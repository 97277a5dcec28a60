import Aventuria.Proofs.Dice.Asking

/-!
# Faults of arguments and faults of dice

A procedure that only throws dice (`Throw.Samples`) fails in one way: its source has no value for
the last die that it asks for. Procedures that have arguments to refuse judge them first. What they
find is a fault on every table, and no die is thrown for it; where they find nothing, the procedure
fails by chance alone (`Throw.JudgedBy`). A procedure stays like this when it begins with one more
judgement (`Throw.judgedBy_ofExcept_bind`), and when it goes on to throw dice
(`Throw.JudgedBy.bind_samples`).
-/

set_option autoImplicit false
set_option relaxedAutoImplicit false

namespace Aventuria.Dice

/-- How a procedure ends on a table that has no value for the last die asked for. -/
inductive Table.RanOut (table : Table) : Fault → Table → Prop
  | last (asked : List Int) (sides : Int)
      (h : table.source.value? (table.askAll asked).asked.size sides = none) :
      RanOut table .diceExhausted ((table.askAll asked).ask sides)

/-- The dice asked for before count too. -/
theorem Table.RanOut.of_askAll {table left : Table} {asked : List Int} {fault : Fault}
    (h : (table.askAll asked).RanOut fault left) : table.RanOut fault left := by
  obtain ⟨later, sides, h⟩ := h
  rw [askAll_askAll] at h ⊢
  exact .last _ sides h

namespace Throw

variable {α β : Type}

/-- Two procedures fail when the first one does, or the second one where the first one left the
table. -/
theorem onTable_bind_eq_error_iff {first : Throw α} {next : α → Throw β} {table left : Table}
    {fault : Fault} :
    (first >>= next).onTable table = (.error fault, left) ↔
      first.onTable table = (.error fault, left) ∨
        ∃ a after, first.onTable table = (.ok a, after) ∧
          (next a).onTable after = (.error fault, left) := by
  rw [onTable_bind]
  rcases first.onTable table with ⟨found | a, after⟩
  · simp
  · constructor
    · exact fun h ↦ .inr ⟨a, after, rfl, h⟩
    · rintro (h | ⟨_, _, hrun, h⟩)
      · cases h
      · cases hrun
        exact h

/-! ### Procedures that only throw dice -/

/-- A procedure that asks for dice and does nothing else to a table. It fails only when these run
out. -/
structure Samples (procedure : Throw α) : Prop where
  answered : ∀ {table a left}, procedure.onTable table = (.ok a, left) →
    ∃ asked, table.askAll asked = left
  failed : ∀ {table fault left}, procedure.onTable table = (.error fault, left) →
    table.RanOut fault left

theorem samples_pure (a : α) : Samples (pure a) where
  answered {table _ _} h := ⟨[], (Table.askAll_nil table).trans (Prod.mk.inj h).2⟩
  failed h := nomatch (Prod.mk.inj h).1

theorem samples_die (sides : Int) : Samples (die sides) where
  answered {table a left} h := by
    rw [onTable_die] at h
    split at h
    · exact ⟨[sides], by rw [← Table.askAll_ask, Table.askAll_nil]; exact (Prod.mk.inj h).2⟩
    · exact nomatch (Prod.mk.inj h).1
  failed {table fault left} h := by
    rw [onTable_die] at h
    split at h
    · exact nomatch (Prod.mk.inj h).1
    · next hnone =>
      obtain ⟨⟨⟩, rfl⟩ := Prod.mk.inj h
      rw [← Table.askAll_nil table] at hnone ⊢
      exact .last [] sides hnone

theorem Samples.bind {first : Throw α} {next : α → Throw β} (hfirst : Samples first)
    (hnext : ∀ a, Samples (next a)) : Samples (first >>= next) where
  answered h := by
    obtain ⟨a, after, hrun, h⟩ := onTable_bind_eq_ok_iff.mp h
    obtain ⟨asked, rfl⟩ := hfirst.answered hrun
    obtain ⟨later, rfl⟩ := (hnext a).answered h
    exact ⟨asked ++ later, (Table.askAll_askAll _ _ _).symm⟩
  failed h := by
    obtain h | ⟨a, after, hrun, h⟩ := onTable_bind_eq_error_iff.mp h
    · exact hfirst.failed h
    · obtain ⟨asked, rfl⟩ := hfirst.answered hrun
      exact ((hnext a).failed h).of_askAll

theorem samples_dice (sides : Int) (count : Nat) : Samples (dice sides count) := by
  induction count with
  | zero => exact samples_pure []
  | succ count ih => exact (samples_die sides).bind fun value ↦ ih.bind fun values ↦ samples_pure _

theorem samples_roll (spec : Spec) (reason : String) : Samples (spec.roll reason) :=
  (samples_dice spec.sides spec.count).bind fun _ ↦ samples_pure _

theorem samples_mapM {f : α → Throw β} (h : ∀ a, Samples (f a)) (as : List α) :
    Samples (as.mapM f) := by
  induction as with
  | nil => exact samples_pure []
  | cons a as ih =>
    rw [List.mapM_cons]
    exact (h a).bind fun _ ↦ ih.bind fun _ ↦ samples_pure _

/-! ### Procedures that judge their arguments -/

/-- A procedure whose arguments are judged before any die is thrown. What the judgement refuses is
refused on every table, which is left as it is. What it accepts can fail by chance alone. -/
structure JudgedBy (procedure : Throw α) (judgement : Except Fault Unit)
    (chance : Table → Fault → Table → Prop) : Prop where
  refused : ∀ fault, judgement = .error fault →
    ∀ table, procedure.onTable table = (.error fault, table)
  accepted : judgement = .ok () →
    ∀ table fault left, procedure.onTable table = (.error fault, left) → chance table fault left

variable {chance : Table → Fault → Table → Prop}

/-- Where nothing was judged, everything is accepted. -/
theorem Samples.judgedBy {procedure : Throw α} (h : Samples procedure)
    (hchance : ∀ table fault left, table.RanOut fault left → chance table fault left) :
    procedure.JudgedBy (.ok ()) chance where
  refused _ hfault := nomatch hfault
  accepted _ _ _ _ hrun := hchance _ _ _ (h.failed hrun)

theorem judgedBy_pure (a : α) : (pure a : Throw α).JudgedBy (.ok ()) chance where
  refused _ hfault := nomatch hfault
  accepted _ _ _ _ hrun := nomatch (Prod.mk.inj hrun).1

/-- One more judgement comes before those that were there. -/
theorem judgedBy_ofExcept_bind {outcome : Except Fault α} {next : α → Throw β}
    {later : α → Except Fault Unit}
    (h : ∀ a, outcome = .ok a → (next a).JudgedBy (later a) chance) :
    (ofExcept outcome >>= next).JudgedBy (outcome >>= later) chance := by
  cases outcome with
  | error found =>
    refine ⟨fun fault hfault table ↦ ?_, nofun⟩
    obtain rfl := Except.error.inj hfault
    rfl
  | ok a => exact h a rfl

/-- The last judgement, after which everything is accepted. -/
theorem judgedBy_of_last {judgement : Except Fault Unit} {next : Unit → Throw β}
    (h : (next ()).JudgedBy (.ok ()) chance) :
    (ofExcept judgement >>= next).JudgedBy judgement chance := by
  have hbind : (ofExcept judgement >>= next).JudgedBy (judgement >>= fun _ ↦ .ok ()) chance :=
    judgedBy_ofExcept_bind fun _ _ ↦ h
  have hlast : (judgement >>= fun _ ↦ .ok ()) = judgement := bind_pure judgement
  rwa [hlast] at hbind

/-- Dice that are thrown after all judgements add to what is left to chance. -/
theorem JudgedBy.bind_samples {first : Throw α} {next : α → Throw β}
    {judgement : Except Fault Unit} (hfirst : first.JudgedBy judgement chance)
    (hasks : ∀ {table a left}, first.onTable table = (.ok a, left) →
      ∃ asked, table.askAll asked = left)
    (hnext : ∀ a, Samples (next a))
    (hchance : ∀ table fault left, table.RanOut fault left → chance table fault left) :
    (first >>= next).JudgedBy judgement chance where
  refused fault hfault table := onTable_bind_of_error (hfirst.refused fault hfault table) next
  accepted haccepted table fault left h := by
    obtain h | ⟨a, after, hrun, h⟩ := onTable_bind_eq_error_iff.mp h
    · exact hfirst.accepted haccepted _ _ _ h
    · obtain ⟨asked, rfl⟩ := hasks hrun
      exact hchance _ _ _ ((hnext a).failed h).of_askAll

end Throw

end Aventuria.Dice
