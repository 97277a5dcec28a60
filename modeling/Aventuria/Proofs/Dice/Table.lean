import Aventuria.Dice.Roll

/-!
# The values a table shows

The values that dice of given sizes show on a table, and the table they leave. Throwing dice one
after the other shows those values and asks for nothing else (`onTable_dice`). Dice that run out
leave a table on which they were asked for down to the first one without a value
(`onTable_dice_of_exhausts`).
-/

set_option autoImplicit false
set_option relaxedAutoImplicit false

namespace Aventuria.Dice

namespace Table

/-- The table after dice of these sizes, whatever they showed. -/
def askAll (table : Table) (sizes : List Int) : Table :=
  { table with asked := table.asked ++ sizes.toArray }

/-- The values that dice of these sizes show in turn, if the source has so many. -/
def shown? : Table → List Int → Option (List Int)
  | _, [] => some []
  | table, sides :: sizes => do
    let value ← table.source.value? table.asked.size sides
    let values ← (table.ask sides).shown? sizes
    some (value :: values)

@[simp] theorem askAll_nil (table : Table) : table.askAll [] = table := by
  simp [askAll]

theorem askAll_ask (table : Table) (sides : Int) (sizes : List Int) :
    (table.ask sides).askAll sizes = table.askAll (sides :: sizes) := by
  simp [askAll, ask]

theorem askAll_askAll (table : Table) (first second : List Int) :
    (table.askAll first).askAll second = table.askAll (first ++ second) := by
  simp [askAll]

theorem shown?_cons_eq_some_iff {table : Table} {sides : Int} {sizes values : List Int} :
    table.shown? (sides :: sizes) = some values ↔
      ∃ value rest, table.source.value? table.asked.size sides = some value ∧
        (table.ask sides).shown? sizes = some rest ∧ value :: rest = values := by
  show (table.source.value? table.asked.size sides).bind (fun value ↦
    ((table.ask sides).shown? sizes).bind fun rest ↦ some (value :: rest)) = some values ↔ _
  simp only [Option.bind_eq_some_iff, Option.some.injEq, exists_and_left]

/-- The values of two throws are those of the first, then those of the second on the table that
the first one leaves. -/
theorem shown?_append_eq_some_iff {table : Table} {first second values : List Int} :
    table.shown? (first ++ second) = some values ↔
      ∃ shown rest, table.shown? first = some shown ∧
        (table.askAll first).shown? second = some rest ∧ shown ++ rest = values := by
  induction first generalizing table values with
  | nil => simp [shown?]
  | cons sides first ih =>
    rw [List.cons_append, shown?_cons_eq_some_iff, ← askAll_ask]
    constructor
    · rintro ⟨value, later, hvalue, hlater, rfl⟩
      obtain ⟨shown, rest, hshown, hrest, rfl⟩ := ih.mp hlater
      exact ⟨value :: shown, rest,
        shown?_cons_eq_some_iff.mpr ⟨value, shown, hvalue, hshown, rfl⟩, hrest, rfl⟩
    · rintro ⟨values, rest, hvalues, hrest, rfl⟩
      obtain ⟨value, shown, hvalue, hshown, rfl⟩ := shown?_cons_eq_some_iff.mp hvalues
      exact ⟨value, shown ++ rest, hvalue, ih.mpr ⟨shown, rest, hshown, hrest, rfl⟩, rfl⟩

theorem shown?_singleton_eq_some_iff {table : Table} {sides value : Int} :
    table.shown? [sides] = some [value] ↔
      table.source.value? table.asked.size sides = some value := by
  rw [shown?_cons_eq_some_iff]
  constructor
  · rintro ⟨first, rest, hfirst, -, heq⟩
    obtain ⟨rfl, -⟩ := List.cons.inj heq
    exact hfirst
  · exact fun h ↦ ⟨value, [], h, rfl, rfl⟩

theorem shown?_cons_eq_none {table : Table} {sides : Int} {sizes : List Int}
    (h : table.shown? (sides :: sizes) = none) :
    table.source.value? table.asked.size sides = none ∨ (table.ask sides).shown? sizes = none := by
  cases hvalue : table.source.value? table.asked.size sides with
  | none => exact .inl rfl
  | some value =>
    cases hrest : (table.ask sides).shown? sizes with
    | none => exact .inr rfl
    | some rest =>
      rw [shown?_cons_eq_some_iff.mpr ⟨value, rest, hvalue, hrest, rfl⟩] at h
      cases h

theorem shown?_append_eq_none {table : Table} {first second : List Int}
    (h : table.shown? (first ++ second) = none) :
    table.shown? first = none ∨ (table.askAll first).shown? second = none := by
  cases hfirst : table.shown? first with
  | none => exact .inl rfl
  | some shown =>
    cases hsecond : (table.askAll first).shown? second with
    | none => exact .inr rfl
    | some rest =>
      rw [shown?_append_eq_some_iff.mpr ⟨shown, rest, hfirst, hsecond, rfl⟩] at h
      cases h

theorem length_of_shown? {table : Table} {sizes values : List Int}
    (h : table.shown? sizes = some values) : values.length = sizes.length := by
  induction sizes generalizing table values with
  | nil => rw [← Option.some.inj h]
  | cons sides sizes ih =>
    obtain ⟨value, rest, -, hrest, rfl⟩ := shown?_cons_eq_some_iff.mp h
    rw [List.length_cons, List.length_cons, ih hrest]

/-- Dice of these sizes run out on a table. The first of them without a value is the last one that
is asked for. -/
inductive Exhausts : Table → List Int → Table → Prop
  | here {table : Table} {sides : Int} {sizes : List Int}
      (hnone : table.source.value? table.asked.size sides = none) :
      Exhausts table (sides :: sizes) (table.ask sides)
  | later {table left : Table} {sides value : Int} {sizes : List Int}
      (hvalue : table.source.value? table.asked.size sides = some value)
      (hrest : Exhausts (table.ask sides) sizes left) :
      Exhausts table (sides :: sizes) left

theorem exists_exhausts {table : Table} {sizes : List Int} (h : table.shown? sizes = none) :
    ∃ left, table.Exhausts sizes left := by
  induction sizes generalizing table with
  | nil => cases h
  | cons sides sizes ih =>
    cases hvalue : table.source.value? table.asked.size sides with
    | none => exact ⟨_, .here hvalue⟩
    | some value =>
      have hrest : (table.ask sides).shown? sizes = none :=
        (shown?_cons_eq_none h).resolve_left (by rw [hvalue]; exact Option.some_ne_none value)
      obtain ⟨left, hleft⟩ := ih hrest
      exact ⟨left, .later hvalue hleft⟩

end Table

/-- The sizes of the dice of an expression. -/
def Spec.sizes (spec : Spec) : List Int :=
  List.replicate spec.count spec.sides

namespace Throw

theorem pure_inj {α : Type} {first second : α} (h : (pure first : Throw α) = pure second) :
    first = second := by
  have hrun := congrArg (fun procedure : Throw α ↦
    (procedure.onTable (Table.fresh (Source.constant 0))).1) h
  exact Except.ok.inj hrun

theorem onTable_die_of_shown {table : Table} {sides value : Int}
    (h : table.shown? [sides] = some [value]) :
    (die sides).onTable table = (.ok value, table.askAll [sides]) := by
  rw [onTable_die, Table.shown?_singleton_eq_some_iff.mp h, ← Table.askAll_ask, Table.askAll_nil]

theorem onTable_die_of_exhausts {table left : Table} {sides : Int}
    (h : table.Exhausts [sides] left) :
    (die sides).onTable table = (.error .diceExhausted, left) := by
  cases h with
  | here hnone => rw [onTable_die, hnone]
  | later _ hrest => cases hrest

theorem onTable_dice {table : Table} {sides : Int} {count : Nat} {values : List Int}
    (h : table.shown? (List.replicate count sides) = some values) :
    (dice sides count).onTable table =
      (.ok values, table.askAll (List.replicate count sides)) := by
  induction count generalizing table values with
  | zero =>
    rw [← Option.some.inj h, dice, onTable_pure, List.replicate_zero, Table.askAll_nil]
  | succ count ih =>
    obtain ⟨value, rest, hvalue, hrest, rfl⟩ := Table.shown?_cons_eq_some_iff.mp h
    simp only [dice, onTable_bind, onTable_die, hvalue, ih hrest, onTable_pure]
    rw [Table.askAll_ask, List.replicate_succ]

example : ((dice 6 2).onTable (Table.fresh (Source.replay #[3, 4]))).1 = .ok [3, 4] := rfl

theorem onTable_dice_of_exhausts {table left : Table} {sides : Int} {count : Nat}
    (h : table.Exhausts (List.replicate count sides) left) :
    (dice sides count).onTable table = (.error .diceExhausted, left) := by
  induction count generalizing table with
  | zero => cases h
  | succ count ih =>
    cases h with
    | here hnone => simp only [dice, onTable_bind, onTable_die, hnone]
    | later hvalue hrest => simp only [dice, onTable_bind, onTable_die, hvalue, ih hrest]

end Throw

end Aventuria.Dice
