import Aventuria.Proofs.Dice.Table

/-!
# Procedures that ask for fixed dice

Most procedures ask for the same dice whatever these show, and make their result out of the values
(`Throw.Asks`). On a table that shows enough values such a procedure succeeds and leaves the table
with just its dice asked for; on any other table the dice run out. Procedures that follow one
another ask for their dice one after the other (`Throw.Asks.bind`).
-/

set_option autoImplicit false
set_option relaxedAutoImplicit false

namespace Aventuria.Dice

/-- A source that never runs out. -/
def Source.Endless (source : Source) : Prop :=
  ∀ n sides, ∃ value, source.value? n sides = some value

theorem Source.endless_highest : Source.highest.Endless :=
  fun _ sides ↦ ⟨sides, rfl⟩

namespace Table

/-- A table that has a value for each of the next dice, whatever their sizes. -/
def ShowsNext (table : Table) (count : Nat) : Prop :=
  ∀ n < count, ∀ sides, ∃ value, table.source.value? (table.asked.size + n) sides = some value

theorem ShowsNext.of_le {table : Table} {count fewer : Nat} (h : table.ShowsNext count)
    (hle : fewer ≤ count) : table.ShowsNext fewer :=
  fun n hn ↦ h n (Nat.lt_of_lt_of_le hn hle)

theorem ShowsNext.ask {table : Table} {count : Nat} (h : table.ShowsNext (count + 1))
    (sides : Int) : (table.ask sides).ShowsNext count := by
  intro n hn size
  have hsize : (table.ask sides).asked.size + n = table.asked.size + (n + 1) := by
    rw [Table.ask, Array.size_push, Nat.add_assoc, Nat.add_comm 1]
  rw [hsize]
  exact h (n + 1) (Nat.succ_lt_succ hn) size

theorem ShowsNext.exists_shown? {table : Table} {sizes : List Int}
    (h : table.ShowsNext sizes.length) : ∃ values, table.shown? sizes = some values := by
  induction sizes generalizing table with
  | nil => exact ⟨[], rfl⟩
  | cons sides sizes ih =>
    obtain ⟨value, hvalue⟩ := h 0 (Nat.zero_lt_succ _) sides
    obtain ⟨rest, hrest⟩ := ih (h.ask sides)
    exact ⟨value :: rest, shown?_cons_eq_some_iff.mpr ⟨value, rest, hvalue, hrest, rfl⟩⟩

theorem showsNext_replay (values : Array Int) :
    (fresh (.replay values)).ShowsNext values.size :=
  fun n hn _ ↦ ⟨values[n], by simp [fresh, Source.replay, hn]⟩

theorem exists_shown? {table : Table} (h : table.source.Endless) (sizes : List Int) :
    ∃ values, table.shown? sizes = some values :=
  ShowsNext.exists_shown? fun _ _ sides ↦ h _ sides

/-- What is true of every value that a source has for dice of some sizes is true of the values that
such dice show. -/
theorem forall_of_shown? {table : Table} {sizes values : List Int} {p : Int → Prop}
    (h : ∀ sides ∈ sizes, ∀ n value, table.source.value? n sides = some value → p value)
    (hshown : table.shown? sizes = some values) : ∀ value ∈ values, p value := by
  induction sizes generalizing table values with
  | nil =>
    obtain rfl := Option.some.inj hshown
    exact fun _ hvalue ↦ absurd hvalue List.not_mem_nil
  | cons sides sizes ih =>
    obtain ⟨value, rest, hvalue, hrest, rfl⟩ := shown?_cons_eq_some_iff.mp hshown
    rw [List.forall_mem_cons] at h
    exact List.forall_mem_cons.mpr ⟨h.1 _ value hvalue, @ih (table.ask sides) _ h.2 hrest⟩

/-- Dice of one size show faces of that size. -/
theorem range_of_shown? {table : Table} (h : table.source.InRange) {sides : Int}
    (hsides : 1 ≤ sides) (count : Nat) {values : List Int}
    (hshown : table.shown? (List.replicate count sides) = some values) :
    ∀ value ∈ values, 1 ≤ value ∧ value ≤ sides := by
  refine forall_of_shown? (fun size hsize n value hvalue ↦ ?_) hshown
  obtain rfl := List.eq_of_mem_replicate hsize
  exact h n size value hsides hvalue

end Table

namespace Throw

/-- A procedure that asks for dice of these sizes and no others, and whose result comes out of the
values that they show. -/
structure Asks {α : Type} (procedure : Throw α) (sizes : List Int)
    (result : List Int → α → Prop) : Prop where
  shown : ∀ table values, table.shown? sizes = some values →
    ∃ a, procedure.onTable table = (.ok a, table.askAll sizes) ∧ result values a
  exhausted : ∀ table, table.shown? sizes = none →
    (procedure.onTable table).1 = .error .diceExhausted

/-- A procedure that comes to an answer on a table. -/
def Answers {α : Type} (procedure : Throw α) (table : Table) : Prop :=
  ∃ a, (procedure.onTable table).1 = .ok a

/-- Two procedures that throw the same dice on a table and then both fail, with the same fault, or
both succeed, with results that belong together. -/
inductive Agree {α β : Type} (first : Throw α) (second : Throw β) (table : Table)
    (related : α → β → Prop) : Prop
  | done {a : α} {b : β} {left : Table} (hfirst : first.onTable table = (.ok a, left))
      (hsecond : second.onTable table = (.ok b, left)) (h : related a b)
  | failed {fault : Fault} {left : Table} (hfirst : first.onTable table = (.error fault, left))
      (hsecond : second.onTable table = (.error fault, left))

section
variable {α β : Type}

theorem answers_pure (a : α) (table : Table) : (pure a : Throw α).Answers table :=
  ⟨a, rfl⟩

theorem Answers.of_bind {first : Throw α} {next : α → Throw β} {table : Table}
    (h : (first >>= next).Answers table) : first.Answers table := by
  obtain ⟨b, hb⟩ := h
  rw [onTable_bind] at hb
  rcases hrun : first.onTable table with ⟨fault | a, left⟩
  · rw [hrun] at hb
    cases hb
  · exact ⟨a, by rw [hrun]⟩

/-- Procedures agree that make something different of the same answer. -/
theorem agree_bind_pure {γ : Type} (procedure : Throw γ) (f : γ → α) (g : γ → β) (table : Table) :
    Agree (procedure >>= fun c ↦ pure (f c)) (procedure >>= fun c ↦ pure (g c)) table
      fun a b ↦ ∃ c, (procedure.onTable table).1 = .ok c ∧ f c = a ∧ g c = b := by
  rcases hrun : procedure.onTable table with ⟨fault | c, left⟩
  · exact .failed (by rw [onTable_bind, hrun]) (by rw [onTable_bind, hrun])
  · exact .done (by rw [onTable_bind, hrun]; rfl) (by rw [onTable_bind, hrun]; rfl)
      ⟨c, rfl, rfl, rfl⟩

theorem Agree.mono {first : Throw α} {second : Throw β} {table : Table}
    {related other : α → β → Prop} (h : Agree first second table related)
    (himp : ∀ a b, related a b → other a b) : Agree first second table other := by
  cases h with
  | done hfirst hsecond h => exact .done hfirst hsecond (himp _ _ h)
  | failed hfirst hsecond => exact .failed hfirst hsecond

/-- Procedures agree when both of them agree with a third one. -/
theorem Agree.join {γ : Type} {common : Throw γ} {first : Throw α} {second : Throw β}
    {table : Table} {related : γ → α → Prop} {related' : γ → β → Prop}
    (h : Agree common first table related) (h' : Agree common second table related') :
    Agree first second table fun a b ↦
      ∃ c, (common.onTable table).1 = .ok c ∧ related c a ∧ related' c b := by
  cases h with
  | done hcommon hfirst ha =>
    cases h' with
    | done hcommon' hsecond hb =>
      cases hcommon.symm.trans hcommon'
      exact .done hfirst hsecond ⟨_, by rw [hcommon], ha, hb⟩
    | failed hcommon' hsecond => cases hcommon.symm.trans hcommon'
  | failed hcommon hfirst =>
    cases h' with
    | done hcommon' hsecond hb => cases hcommon.symm.trans hcommon'
    | failed hcommon' hsecond =>
      cases hcommon.symm.trans hcommon'
      exact .failed hfirst hsecond

/-- What is made of an answer does not decide whether there is one. -/
theorem answers_bind_pure_iff (procedure : Throw α) (f : α → β) (table : Table) :
    (procedure >>= fun a ↦ pure (f a)).Answers table ↔ procedure.Answers table := by
  refine ⟨Answers.of_bind, ?_⟩
  rintro ⟨a, ha⟩
  rcases hrun : procedure.onTable table with ⟨outcome, left⟩
  obtain rfl : outcome = .ok a := by rw [← ha, hrun]
  exact ⟨f a, by rw [onTable_bind, hrun]; rfl⟩

theorem onTable_bind_eq_error {first : Throw α} {table : Table} {fault : Fault}
    (h : (first.onTable table).1 = .error fault) (next : α → Throw β) :
    ((first >>= next).onTable table).1 = .error fault := by
  rw [onTable_bind]
  generalize first.onTable table = run at h ⊢
  obtain ⟨outcome, left⟩ := run
  obtain rfl : outcome = .error fault := h
  rfl

theorem onTable_bind_of_error {first : Throw α} {table left : Table} {fault : Fault}
    (h : first.onTable table = (.error fault, left)) (next : α → Throw β) :
    (first >>= next).onTable table = (.error fault, left) := by
  rw [onTable_bind, h]

/-- Two procedures succeed together when the first one succeeds and the second one does on the table
that it leaves. -/
theorem onTable_bind_eq_ok_iff {first : Throw α} {next : α → Throw β} {table left : Table} {b : β} :
    (first >>= next).onTable table = (.ok b, left) ↔
      ∃ a after, first.onTable table = (.ok a, after) ∧
        (next a).onTable after = (.ok b, left) := by
  rw [onTable_bind]
  rcases first.onTable table with ⟨fault | a, after⟩
  · simp
  · constructor
    · exact fun h ↦ ⟨a, after, rfl, h⟩
    · rintro ⟨_, _, hrun, h⟩
      cases hrun
      exact h

/-- Two procedures come to an answer when the first one does and the second one goes on from it. -/
theorem answers_bind_iff {first : Throw α} {next : α → Throw β} {table : Table} :
    (first >>= next).Answers table ↔
      ∃ a after, first.onTable table = (.ok a, after) ∧ (next a).Answers after := by
  constructor
  · rintro ⟨b, hb⟩
    obtain ⟨a, after, hfirst, hnext⟩ :=
      onTable_bind_eq_ok_iff.mp (Prod.ext hb rfl : (first >>= next).onTable table = (.ok b, _))
    exact ⟨a, after, hfirst, b, by rw [hnext]⟩
  · rintro ⟨a, after, hfirst, b, hb⟩
    exact ⟨b, by rw [onTable_bind, hfirst]; exact hb⟩

theorem onTable_ofExcept_eq_ok_iff {outcome : Except Fault α} {table left : Table} {a : α} :
    (ofExcept outcome).onTable table = (.ok a, left) ↔ outcome = .ok a ∧ table = left := by
  rw [onTable_ofExcept, Prod.mk.injEq]

theorem onTable_pure_eq_ok_iff {a b : α} {table left : Table} :
    (pure a : Throw α).onTable table = (.ok b, left) ↔ a = b ∧ table = left := by
  rw [onTable_pure, Prod.mk.injEq, Except.ok.injEq]

theorem asks_pure (a : α) : Asks (pure a) [] fun values b ↦ values = [] ∧ b = a where
  shown table values h := by
    obtain rfl := Option.some.inj h
    exact ⟨a, by rw [onTable_pure, Table.askAll_nil], rfl, rfl⟩
  exhausted table h := nomatch h

namespace Asks

theorem mono {procedure : Throw α} {sizes : List Int} {result other : List Int → α → Prop}
    (h : Asks procedure sizes result) (himp : ∀ values a, result values a → other values a) :
    Asks procedure sizes other where
  shown table values hshown := by
    obtain ⟨a, hrun, ha⟩ := h.shown table values hshown
    exact ⟨a, hrun, himp values a ha⟩
  exhausted := h.exhausted

/-- As many dice show their values as were asked for. -/
theorem with_length {procedure : Throw α} {sizes : List Int} {result : List Int → α → Prop}
    (h : Asks procedure sizes result) :
    Asks procedure sizes fun values a ↦ values.length = sizes.length ∧ result values a where
  shown table values hshown := by
    obtain ⟨a, hrun, ha⟩ := h.shown table values hshown
    exact ⟨a, hrun, Table.length_of_shown? hshown, ha⟩
  exhausted := h.exhausted

theorem bind {first : Throw α} {next : α → Throw β} {sizes later : List Int}
    {result : List Int → α → Prop} {final : α → List Int → β → Prop}
    (hfirst : Asks first sizes result) (hnext : ∀ a, Asks (next a) later (final a)) :
    Asks (first >>= next) (sizes ++ later) fun values b ↦
      ∃ shown rest a, shown ++ rest = values ∧ result shown a ∧ final a rest b where
  shown table values h := by
    obtain ⟨shown, rest, hshown, hrest, rfl⟩ := Table.shown?_append_eq_some_iff.mp h
    obtain ⟨a, hrun, ha⟩ := hfirst.shown table shown hshown
    obtain ⟨b, hrun', hb⟩ := (hnext a).shown _ rest hrest
    refine ⟨b, ?_, shown, rest, a, rfl, ha, hb⟩
    rw [onTable_bind, hrun, ← Table.askAll_askAll]
    exact hrun'
  exhausted table h := by
    cases hshown : table.shown? sizes with
    | none => exact onTable_bind_eq_error (hfirst.exhausted table hshown) next
    | some shown =>
      have hrest := (Table.shown?_append_eq_none h).resolve_left (by simp [hshown])
      obtain ⟨a, hrun, -⟩ := hfirst.shown table shown hshown
      rw [onTable_bind, hrun]
      exact (hnext a).exhausted _ hrest

/-- Where such a procedure succeeds, the table showed values for its dice, and these were asked
for. -/
theorem of_onTable {procedure : Throw α} {sizes : List Int} {result : List Int → α → Prop}
    (h : Asks procedure sizes result) {table left : Table} {a : α}
    (hrun : procedure.onTable table = (.ok a, left)) :
    ∃ values, table.shown? sizes = some values ∧ table.askAll sizes = left ∧ result values a := by
  cases hshown : table.shown? sizes with
  | none =>
    have hfault := h.exhausted table hshown
    rw [hrun] at hfault
    cases hfault
  | some values =>
    obtain ⟨b, hrun', hb⟩ := h.shown table values hshown
    rw [hrun, Prod.mk.injEq, Except.ok.injEq] at hrun'
    obtain ⟨rfl, rfl⟩ := hrun'
    exact ⟨values, rfl, rfl, hb⟩

/-- On a table that never runs out such a procedure answers, and the table still does not run
out. -/
theorem onTable_of_endless {procedure : Throw α} {sizes : List Int} {result : List Int → α → Prop}
    (h : Asks procedure sizes result) {table : Table} (hendless : table.source.Endless) :
    ∃ a left, procedure.onTable table = (.ok a, left) ∧ left.source.Endless ∧
      ∃ values, result values a := by
  obtain ⟨values, hvalues⟩ := Table.exists_shown? hendless sizes
  obtain ⟨a, hrun, ha⟩ := h.shown table values hvalues
  exact ⟨a, _, hrun, hendless, values, ha⟩

/-- A result that is put together from another one asks for no more dice. -/
theorem bind_pure {first : Throw α} {sizes : List Int} {result : List Int → α → Prop} (f : α → β)
    (h : Asks first sizes result) :
    Asks (first >>= fun a ↦ pure (f a)) sizes fun values b ↦ ∃ a, result values a ∧ b = f a := by
  have hbind := h.bind fun a ↦ asks_pure (f a)
  rw [List.append_nil] at hbind
  refine hbind.mono ?_
  rintro _ b ⟨shown, rest, a, rfl, ha, rfl, rfl⟩
  exact ⟨a, by rwa [List.append_nil], rfl⟩

end Asks

end

theorem asks_die (sides : Int) :
    Asks (die sides) [sides] fun values value ↦ values = [value] where
  shown table values h := by
    obtain ⟨value, rest, -, hrest, rfl⟩ := Table.shown?_cons_eq_some_iff.mp h
    obtain rfl := Option.some.inj hrest
    exact ⟨value, onTable_die_of_shown h, rfl⟩
  exhausted table h := by
    rw [onTable_die, (Table.shown?_cons_eq_none h).resolve_right nofun]

theorem asks_dice (sides : Int) (count : Nat) :
    Asks (dice sides count) (List.replicate count sides) fun values shown ↦ shown = values := by
  induction count with
  | zero =>
    refine (asks_pure []).mono ?_
    rintro values shown ⟨rfl, rfl⟩
    rfl
  | succ count ih =>
    refine ((asks_die sides).bind fun value ↦ ih.bind_pure (value :: ·)).mono ?_
    rintro _ _ ⟨_, _, value, rfl, rfl, values, rfl, rfl⟩
    rfl

end Throw

namespace Spec

theorem asks_roll (spec : Spec) (reason : String) :
    Throw.Asks (spec.roll reason) spec.sizes fun values roll ↦
      roll = ⟨spec.label, values, spec.modifier, reason⟩ := by
  refine ((Throw.asks_dice spec.sides spec.count).bind_pure
    fun values ↦ (⟨spec.label, values, spec.modifier, reason⟩ : Roll)).mono ?_
  rintro values roll ⟨shown, rfl, rfl⟩
  rfl

theorem asks_throwAll (specs : List Spec) :
    Throw.Asks (throwAll specs) (specs.flatMap Spec.sizes) fun _ _ ↦ True := by
  induction specs with
  | nil => exact (Throw.asks_pure ()).mono fun _ _ _ ↦ trivial
  | cons spec specs ih => exact ((spec.asks_roll "").bind fun _ ↦ ih).mono fun _ _ _ ↦ trivial

end Spec

end Aventuria.Dice
