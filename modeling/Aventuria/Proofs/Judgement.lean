import Aventuria.Proofs.Alchemy.Diluting
import Aventuria.Proofs.Dice.Sampling
import Aventuria.Proofs.Harvest.Reading
import Aventuria.HerbSearch
import Aventuria.Spell.Storage

/-!
# Arguments are judged before any die

A check is judged by its attributes, the exchanged points and its rolls, if these are given
(`Check.judgement`); what is made of a check is judged by more, and always before it. So whatever
is refused is refused alike on all tables, and with no die thrown. What is accepted fails by chance
alone: a die of the check shows no face that it has (`Check.Misrolled`), or the dice run out. The
main result, `arguments_are_judged_first`, says so of checks, brews, dilutions, searches for herbs
and the costs of storages.
-/

set_option autoImplicit false
set_option relaxedAutoImplicit false

namespace Aventuria

open Dice (Throw Table)

/-! ### Checks -/

namespace Check

/-- What is wrong with the rolls of a check before it is made. Nothing is, when they are thrown. -/
def judgeRolls : Option (List Int) → Except Fault Unit
  | some rolls => validateRolls rolls
  | none => .ok ()

/-- What is wrong with a check before any die is thrown, in the order in which it is judged. -/
def judgement (rating : Int) (attributes : List Int) (exchanged : Int)
    (givenRolls : Option (List Int)) : Except Fault Unit :=
  prepare rating attributes exchanged >>= fun _ ↦ judgeRolls givenRolls

/-- How chance makes a procedure with a check fail: by a die that was thrown for the check and shows
no face of twenty, or by dice that run out. -/
inductive Misrolled : Option (List Int) → Table → Fault → Table → Prop
  | outOfRange {table : Table} {rolls : List Int} {roll : Int}
      (hshown : table.shown? sizes = some rolls) (hroll : roll ∈ rolls)
      (hrange : ¬ (1 ≤ roll ∧ roll ≤ 20)) :
      Misrolled none table (.rollOutOfRange roll) (table.askAll sizes)
  | ranOut {givenRolls : Option (List Int)} {table left : Table} {fault : Fault}
      (h : table.RanOut fault left) : Misrolled givenRolls table fault left

theorem validateRolls_eq_error {rolls : List Int} {fault : Fault} (hlength : rolls.length = 3)
    (h : validateRolls rolls = .error fault) :
    ∃ roll ∈ rolls, ¬ (1 ≤ roll ∧ roll ≤ 20) ∧ fault = .rollOutOfRange roll := by
  have hlength' : ¬ rolls.length ≠ diceCount := Decidable.not_not.mpr hlength
  rw [validateRolls, if_neg hlength'] at h
  split at h
  · next roll hfound =>
    refine ⟨roll, List.mem_of_find?_eq_some hfound, ?_, (Except.error.inj h).symm⟩
    rw [← validRoll_iff]
    simpa using List.find?_some hfound
  · cases h

section
variable {α : Type} {judged : List Int → α}

theorem judgedBy_given (rolls : List Int) {chance : Table → Fault → Table → Prop} :
    (throwRolls (some rolls) >>= fun rolls ↦ Throw.ofExcept (validateRolls rolls) >>= fun _ ↦
      pure (judged rolls)).JudgedBy (validateRolls rolls) chance := by
  rw [throwRolls, pure_bind]
  exact Throw.judgedBy_of_last (Throw.judgedBy_pure _)

/-- Three dice that are thrown are refused for nothing but what they show. -/
theorem judgedBy_thrown :
    (throwRolls none >>= fun rolls ↦ Throw.ofExcept (validateRolls rolls) >>= fun _ ↦
      pure (judged rolls)).JudgedBy (.ok ()) (Misrolled none) where
  refused _ hfault := nomatch hfault
  accepted _ table fault left h := by
    obtain h | ⟨rolls, after, hrun, h⟩ := Throw.onTable_bind_eq_error_iff.mp h
    · exact .ranOut ((Throw.samples_dice dieSides diceCount).failed h)
    · cases onTable_throwRolls_eq_ok_iff.mp hrun with
      | thrown hshown =>
        obtain h | ⟨_, _, _, h⟩ := Throw.onTable_bind_eq_error_iff.mp h
        · rw [Throw.onTable_ofExcept] at h
          obtain ⟨hrefused, rfl⟩ := Prod.mk.inj h
          obtain ⟨roll, hroll, hrange, rfl⟩ :=
            validateRolls_eq_error (Table.length_of_shown? hshown) hrefused
          exact .outOfRange hshown hroll hrange
        · cases h

end

theorem judgedBy_resolve (rating difficulty : Int) (attributes : List Int) (exchanged : Int)
    (givenRolls : Option (List Int)) :
    (resolve rating difficulty attributes exchanged givenRolls).JudgedBy
      (judgement rating attributes exchanged givenRolls) (Misrolled givenRolls) := by
  rw [resolve_eq, judgement]
  refine Throw.judgedBy_ofExcept_bind fun skill _ ↦ ?_
  cases givenRolls with
  | some rolls => exact judgedBy_given rolls
  | none => exact judgedBy_thrown

theorem asked_of_resolve {rating difficulty exchanged : Int} {attributes : List Int}
    {givenRolls : Option (List Int)} {table left : Table} {outcome : Outcome}
    (h : (resolve rating difficulty attributes exchanged givenRolls).onTable table =
      (.ok outcome, left)) : ∃ asked, table.askAll asked = left := by
  obtain ⟨-, -, rolls, hrolls, -, -⟩ := onTable_resolve_eq_ok_iff.mp h
  cases hrolls with
  | given => exact ⟨[], Table.askAll_nil table⟩
  | thrown => exact ⟨sizes, rfl⟩

/-- Dice that are thrown after a check add nothing to judge. -/
theorem judgedBy_resolve_bind {β : Type} (rating difficulty : Int) (attributes : List Int)
    (exchanged : Int) (givenRolls : Option (List Int)) {next : Outcome → Throw β}
    (hnext : ∀ outcome, (next outcome).Samples) :
    (resolve rating difficulty attributes exchanged givenRolls >>= next).JudgedBy
      (judgement rating attributes exchanged givenRolls) (Misrolled givenRolls) :=
  (judgedBy_resolve rating difficulty attributes exchanged givenRolls).bind_samples asked_of_resolve
    hnext fun _ _ _ ↦ .ranOut

end Check

/-! ### Procedures with a check -/

section
variable (rating : Int) (attributes : List Int) (givenRolls : Option (List Int))

theorem Alchemy.samples_finish (modifier : Int) (effort : Effort) (check : Check.Outcome) :
    (finish modifier effort check).Samples := by
  unfold finish
  split
  · exact (Throw.samples_roll qualitySpec _).bind fun _ ↦ Throw.samples_pure _
  · exact Throw.samples_pure _

theorem Alchemy.judgedBy_brew (recipe : Recipe) (effort : Effort) :
    (brew rating attributes recipe effort givenRolls).JudgedBy
      (effort.validate rating recipe.difficulty >>= fun _ ↦
        Check.judgement rating attributes effort.mastery givenRolls) (Check.Misrolled givenRolls) :=
  Throw.judgedBy_ofExcept_bind fun _ _ ↦
    Check.judgedBy_resolve_bind _ _ _ _ _ (samples_finish _ effort)

/-- There is a quality so many steps down, so a dilution has nothing to refuse after its check. -/
theorem Alchemy.judgedBy_dilute (quality : Quality) (steps difficulty facilitation mastery : Int)
    (available : Option Int) :
    (dilute quality steps rating attributes difficulty facilitation mastery available
        givenRolls).JudgedBy
      (validateDilution steps rating mastery available >>= fun _ ↦
        Check.judgement rating attributes mastery givenRolls) (Check.Misrolled givenRolls) := by
  refine Throw.judgedBy_ofExcept_bind fun _ hvalid ↦
    Check.judgedBy_resolve_bind _ _ _ _ _ fun check ↦ ?_
  obtain ⟨⟨hsteps, -⟩, -, -⟩ := validateDilution_eq_ok_iff.mp hvalid
  have hdiluted : ∃ lower, dilutedQuality quality steps check.success = .ok lower := by
    cases check.success with
    | true =>
      obtain ⟨lower, hlower, -⟩ := quality.exists_diluted (show 0 ≤ steps by omega)
      exact ⟨lower, hlower⟩
    | false => exact ⟨.m, rfl⟩
  obtain ⟨lower, hlower⟩ := hdiluted
  rw [hlower]
  exact Throw.samples_pure _

/-- Whatever a description says, gathering what it says throws dice and does nothing else. -/
theorem Harvest.samples_gather (points : Option Int) (description : String) :
    (gather points description).Samples := by
  obtain ⟨entries, -, hread⟩ := exists_lists_read description
  rw [gather, hread, settleAll]
  refine Throw.samples_mapM (fun item ↦ ?_) _
  unfold Item.settle Item.roll
  rw [if_pos rfl]
  split
  · exact Throw.samples_pure _
  · exact (Throw.samples_roll _ _).bind fun _ ↦ Throw.samples_pure _

theorem HerbSearch.samples_gatherPortions (points : Int) (description : String) (count : Nat) :
    (gatherPortions points description count).Samples := by
  induction count with
  | zero => exact Throw.samples_pure []
  | succ count ih =>
    exact (Harvest.samples_gather (some points) description).bind fun _ ↦
      ih.bind fun _ ↦ Throw.samples_pure _

theorem HerbSearch.judgedBy_search (talents : Talents) (terrain : Terrain) (doubled : Bool)
    (description : String) :
    (search talents terrain attributes doubled description givenRolls).JudgedBy
      (searchRating talents doubled >>= fun rating ↦
        Check.judgement rating attributes 0 givenRolls) (Check.Misrolled givenRolls) := by
  refine Throw.judgedBy_ofExcept_bind fun _ _ ↦
    Check.judgedBy_resolve_bind _ _ _ _ _ fun check ↦ ?_
  split
  · split
    · exact Throw.samples_pure _
    · exact (samples_gatherPortions _ description _).bind fun _ ↦ Throw.samples_pure _
  · exact Throw.samples_pure _

end

/-! ### The cost of a storage -/

theorem Spell.judgedBy_storageCost (storage : Storage) (savingPercent traits : Int) :
    (storageCost storage savingPercent traits).JudgedBy
      (validateSaving savingPercent >>= fun _ ↦ validateTraits traits) Table.RanOut := by
  have hthrown : (storage.costSpec.roll "storage cost" >>= fun roll ↦
      pure (StorageCost.mk (reducedCost roll.total savingPercent traits) roll)).Samples :=
    (Throw.samples_roll storage.costSpec _).bind fun _ ↦ Throw.samples_pure _
  exact Throw.judgedBy_ofExcept_bind fun _ _ ↦
    Throw.judgedBy_of_last (hthrown.judgedBy fun _ _ _ ↦ id)

/-- Checks, brews, dilutions, searches for herbs and the costs of storages are judged before any die
is thrown. What the judgement refuses is refused with the same fault on every table, and the table
is left alone. What it accepts is refused on no table, unless a die of the check shows no face of
twenty, or the dice run out. -/
theorem arguments_are_judged_first :
    (∀ rating difficulty attributes exchanged givenRolls,
      (Check.resolve rating difficulty attributes exchanged givenRolls).JudgedBy
        (Check.judgement rating attributes exchanged givenRolls) (Check.Misrolled givenRolls)) ∧
    (∀ rating attributes recipe effort givenRolls,
      (Alchemy.brew rating attributes recipe effort givenRolls).JudgedBy
        (effort.validate rating recipe.difficulty >>= fun _ ↦
          Check.judgement rating attributes effort.mastery givenRolls)
        (Check.Misrolled givenRolls)) ∧
    (∀ quality steps rating attributes difficulty facilitation mastery available givenRolls,
      (Alchemy.dilute quality steps rating attributes difficulty facilitation mastery available
          givenRolls).JudgedBy
        (Alchemy.validateDilution steps rating mastery available >>= fun _ ↦
          Check.judgement rating attributes mastery givenRolls) (Check.Misrolled givenRolls)) ∧
    (∀ talents terrain attributes doubled description givenRolls,
      (HerbSearch.search talents terrain attributes doubled description givenRolls).JudgedBy
        (HerbSearch.searchRating talents doubled >>= fun rating ↦
          Check.judgement rating attributes 0 givenRolls) (Check.Misrolled givenRolls)) ∧
    ∀ storage savingPercent traits,
      (Spell.storageCost storage savingPercent traits).JudgedBy
        (Spell.validateSaving savingPercent >>= fun _ ↦ Spell.validateTraits traits)
        Table.RanOut :=
  ⟨Check.judgedBy_resolve,
    fun rating attributes recipe effort givenRolls ↦
      Alchemy.judgedBy_brew rating attributes givenRolls recipe effort,
    fun quality steps rating attributes difficulty facilitation mastery available givenRolls ↦
      Alchemy.judgedBy_dilute rating attributes givenRolls quality steps difficulty facilitation
        mastery available,
    fun talents terrain attributes doubled description givenRolls ↦
      HerbSearch.judgedBy_search attributes givenRolls talents terrain doubled description,
    Spell.judgedBy_storageCost⟩

end Aventuria
