import Mathlib.Algebra.Order.BigOperators.Group.List
import Mathlib.Algebra.Order.Ring.Int
import Aventuria.Proofs.Dice.Asking
import Aventuria.Proofs.Dice.Notation
import Aventuria.Proofs.Dice.Stepping

/-!
# Rolling a notation

A text is rolled for its total, for the whole roll, or by a roller that keeps a log. A text that is
refused throws nothing, and only a roller says why (`Roller.take_roll_of_refused`). A text that is
read throws the dice of its expression and no others, and all three come to the same roll
(`notations_are_rolled`). Dice that show their faces come to a total between the least and the
greatest of the expression; it is one of these two only where every die shows its lowest face or
every die its highest (`Spec.total_between`).
-/

set_option autoImplicit false
set_option relaxedAutoImplicit false

namespace Aventuria.Dice

/-! ### Totals -/

/-- Of two sums the one with the smaller terms is as large only where no term is smaller. -/
theorem sum_map_eq_iff_of_le {values : List Int} {f g : Int → Int}
    (h : ∀ value ∈ values, f value ≤ g value) :
    sum (values.map f) = sum (values.map g) ↔ ∀ value ∈ values, f value = g value := by
  constructor
  · intro hsum value hvalue
    by_contra hne
    have hlt : f value < g value := lt_of_le_of_ne (h value hvalue) hne
    exact (List.sum_lt_sum f g h ⟨value, hvalue, hlt⟩).ne hsum
  · intro heq
    rw [List.map_congr_left heq]

section
variable {spec : Spec} {values : List Int}

theorem Spec.minimum_eq (h : values.length = spec.count) :
    spec.minimum = sum (values.map fun _ ↦ 1) + spec.modifier := by
  have hsum : sum (List.replicate values.length 1) = _ := List.sum_replicate values.length 1
  rw [Spec.minimum, List.map_const', hsum, nsmul_one, h]

theorem Spec.maximum_eq (h : values.length = spec.count) :
    spec.maximum = sum (values.map fun _ ↦ (spec.sides : Int)) + spec.modifier := by
  have hsum : sum (List.replicate values.length (spec.sides : Int)) = _ :=
    List.sum_replicate values.length (spec.sides : Int)
  rw [Spec.maximum, List.map_const', hsum, nsmul_eq_mul, h]

/-- The total of dice that show their faces. -/
theorem Spec.total_between (hlength : values.length = spec.count)
    (hfaces : ∀ value ∈ values, 1 ≤ value ∧ value ≤ spec.sides) :
    (spec.minimum ≤ sum values + spec.modifier ∧ sum values + spec.modifier ≤ spec.maximum) ∧
      (sum values + spec.modifier = spec.minimum ↔ ∀ value ∈ values, value = 1) ∧
      (sum values + spec.modifier = spec.maximum ↔ ∀ value ∈ values, value = spec.sides) := by
  have hlow : ∀ value ∈ values, 1 ≤ id value := fun value hvalue ↦ (hfaces value hvalue).1
  have hhigh : ∀ value ∈ values, id value ≤ (spec.sides : Int) :=
    fun value hvalue ↦ (hfaces value hvalue).2
  have hleast := sum_map_eq_iff_of_le hlow
  have hgreatest := sum_map_eq_iff_of_le hhigh
  have hlower := List.sum_le_sum hlow
  have hupper := List.sum_le_sum hhigh
  rw [List.map_id] at hleast hgreatest hlower hupper
  rw [Spec.minimum_eq hlength, Spec.maximum_eq hlength]
  refine ⟨⟨Int.add_le_add_right hlower _, Int.add_le_add_right hupper _⟩, ?_, ?_⟩
  · rw [Int.add_left_inj, eq_comm, hleast]
    exact forall₂_congr fun _ _ ↦ eq_comm
  · rw [Int.add_left_inj, hgreatest]
    rfl

end

/-! ### Texts -/

section
variable {text : String} {table : Table}

theorem onTable_roll?_of_refused {fault : Fault} (h : Spec.ofText text = .error fault)
    (reason : String) : (roll? text reason).onTable table = (.ok none, table) := by
  rw [roll?, Spec.ofText?_eq_none_iff.mpr ⟨fault, h⟩, Throw.onTable_pure]

theorem onTable_roll?_of_read {spec : Spec} (h : Spec.ofText text = .ok spec) {values : List Int}
    (hvalues : table.shown? spec.sizes = some values) (reason : String) :
    (roll? text reason).onTable table =
      (.ok (some ⟨spec.label, values, spec.modifier, reason⟩), table.askAll spec.sizes) := by
  obtain ⟨_, hrun, rfl⟩ := (spec.asks_roll reason).shown table values hvalues
  rw [roll?, Spec.ofText?_eq_some_iff.mpr h, Throw.onTable_map, hrun]
  rfl

/-- The total is that of the roll without a reason. -/
theorem onTable_total? {roll : Option Roll} {left : Table}
    (h : (roll? text "").onTable table = (.ok roll, left)) :
    (total? text).onTable table = (.ok (roll.map Roll.total), left) := by
  rw [total?, Throw.onTable_bind, h]
  rfl

theorem Roller.take_roll_of_refused {roller : Roller} {fault : Fault}
    (h : Spec.ofText text = .error fault) (reason : String) :
    roller.take (.roll text reason) = (.error fault, roller) :=
  Roller.takes_iff.mp (.refused (.roll text reason) h)

theorem Roller.take_roll_of_read {roller : Roller} {spec : Spec} (h : Spec.ofText text = .ok spec)
    {values : List Int} (hvalues : roller.table.shown? spec.sizes = some values)
    (reason : String) :
    roller.take (.roll text reason) =
      (.ok (.rolled ⟨spec.label, values, spec.modifier, reason⟩),
        { roller with
          table := roller.table.askAll spec.sizes
          log := roller.log.push ⟨spec.label, values, spec.modifier, reason⟩ }) :=
  Roller.takes_iff.mp (.rolled (.roll text reason) h hvalues)

end

/-! ### The three ways to roll -/

/-- A text that comes to nothing in all three ways. No die is thrown, and the roller, its log
included, stays as it is. -/
structure NothingRolled (text reason : String) (roller : Roller) (fault : Fault) : Prop where
  total : (total? text).onTable roller.table = (.ok none, roller.table)
  detailed : (roll? text reason).onTable roller.table = (.ok none, roller.table)
  logged : roller.take (.roll text reason) = (.error fault, roller)

/-- A text that comes to one roll of an expression in all three ways. The dice of the expression are
thrown in turn, and no others. -/
structure RolledAlike (text reason : String) (roller : Roller) (spec : Spec) (roll : Roll) :
    Prop where
  shown : roller.table.shown? spec.sizes = some roll.values
  length_values : roll.values.length = spec.count
  total_eq : roll.total = sum roll.values + spec.modifier
  total : (total? text).onTable roller.table =
    (.ok (some roll.total), roller.table.askAll spec.sizes)
  detailed : (roll? text reason).onTable roller.table =
    (.ok (some roll), roller.table.askAll spec.sizes)
  logged : roller.take (.roll text reason) =
    (.ok (.rolled roll),
      { roller with table := roller.table.askAll spec.sizes, log := roller.log.push roll })

theorem nothingRolled_of_refused {text : String} {fault : Fault}
    (h : Spec.ofText text = .error fault) (reason : String) (roller : Roller) :
    NothingRolled text reason roller fault where
  total := onTable_total? (onTable_roll?_of_refused h "")
  detailed := onTable_roll?_of_refused h reason
  logged := Roller.take_roll_of_refused h reason

theorem rolledAlike_of_read {text : String} {spec : Spec} (h : Spec.ofText text = .ok spec)
    {roller : Roller} {values : List Int}
    (hvalues : roller.table.shown? spec.sizes = some values) (reason : String) :
    RolledAlike text reason roller spec ⟨spec.label, values, spec.modifier, reason⟩ where
  shown := hvalues
  length_values := by rw [Table.length_of_shown? hvalues, Spec.sizes, List.length_replicate]
  total_eq := rfl
  total := onTable_total? (onTable_roll?_of_read h hvalues "")
  detailed := onTable_roll?_of_read h hvalues reason
  logged := Roller.take_roll_of_read h hvalues reason

/-- A text that is refused comes to nothing, and a roller tells what is wrong with it. A text that
is read throws at most a hundred dice; as long as there are values for these, it comes to their
total and the modifier. If they show their faces, the total is within the bounds of the expression,
and at a bound only where all of them are. -/
theorem notations_are_rolled (text reason : String) (roller : Roller) :
    (∀ fault, Spec.ofText text = .error fault →
      Spec.Refuses text fault ∧ NothingRolled text reason roller fault) ∧
    ∀ spec, Spec.ofText text = .ok spec → spec.count ≤ 100 ∧
      (roller.table.ShowsNext spec.count → ∃ roll, RolledAlike text reason roller spec roll ∧
        ((∀ value ∈ roll.values, 1 ≤ value ∧ value ≤ spec.sides) →
          (spec.minimum ≤ roll.total ∧ roll.total ≤ spec.maximum) ∧
            (roll.total = spec.minimum ↔ ∀ value ∈ roll.values, value = 1) ∧
            (roll.total = spec.maximum ↔ ∀ value ∈ roll.values, value = spec.sides))) := by
  refine ⟨fun fault h ↦ ⟨Spec.ofText_eq_error_iff.mp h, nothingRolled_of_refused h reason roller⟩,
    fun spec h ↦ ⟨spec.count_le, fun hdice ↦ ?_⟩⟩
  have hlength : spec.sizes.length = spec.count := List.length_replicate
  obtain ⟨values, hvalues⟩ := Table.ShowsNext.exists_shown? (hlength ▸ hdice)
  have hrolled := rolledAlike_of_read h hvalues reason
  exact ⟨_, hrolled, Spec.total_between hrolled.length_values⟩

/-- Three dice of a roller that has thrown another one before all show their highest face. -/
theorem notations_are_rolled_at_their_highest :
    Spec.ofText "\t3w6-2 " = .ok ⟨3, 6, -2, "3w6-2", by decide, by decide, by decide⟩ ∧
      (⟨.replay #[2, 6, 6, 6], #[20]⟩ : Table).ShowsNext 3 ∧
      ∃ roll, RolledAlike "\t3w6-2 " "Probe" ⟨⟨.replay #[2, 6, 6, 6], #[20]⟩, false, #[]⟩
          ⟨3, 6, -2, "3w6-2", by decide, by decide, by decide⟩ roll ∧
        (∀ value ∈ roll.values, value = 6) ∧ roll.total = 16 := by
  have hread : Spec.ofText "\t3w6-2 " =
      .ok ⟨3, 6, -2, "3w6-2", by decide, by decide, by decide⟩ := by decide
  have hdice : (⟨.replay #[2, 6, 6, 6], #[20]⟩ : Table).ShowsNext 3
    | 0, _, _ | 1, _, _ | 2, _, _ => ⟨6, rfl⟩
  obtain ⟨roll, hrolled, hbounds⟩ := ((notations_are_rolled "\t3w6-2 " "Probe"
    ⟨⟨.replay #[2, 6, 6, 6], #[20]⟩, false, #[]⟩).2 _ hread).2 hdice
  have hvalues : [6, 6, 6] = roll.values := Option.some.inj hrolled.shown
  rw [← hvalues] at hbounds
  have hsix : ∀ value ∈ [6, 6, 6], value = (6 : Int) := by decide
  refine ⟨hread, hdice, roll, hrolled, hvalues ▸ hsix, ?_⟩
  exact (hbounds (by decide)).2.2.mpr hsix

end Aventuria.Dice
