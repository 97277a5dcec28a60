import Aventuria.Check
import Aventuria.Proofs.Dice.Asking

/-!
# Outcomes of checks

A check is made when it has three attributes, no negative number of exchanged points and three
valid rolls, which are given or thrown; its outcome is then judged from these
(`onTable_resolve_eq_ok_iff`). The rolls force the outcome or leave it to the points
(`judge_verdict`), and either way the extra points of a success are not negative and those of a
failure not positive.
-/

set_option autoImplicit false
set_option relaxedAutoImplicit false

namespace Aventuria.Check

open Dice (Throw Table)

/-! ### Verdicts -/

/-- How a budget and the points to be paid decide a check. The rolls may force the outcome, and then
nothing is paid; else the check succeeds when the budget suffices. -/
inductive Verdict (budget due : Int) : Critical → Bool → Int → Prop
  | forcedSuccess {critical : Critical} (h : critical.forcesSuccess = true) :
      Verdict budget due critical true budget
  | forcedFailure {critical : Critical} (h : critical.forcesFailure = true) :
      Verdict budget due critical false 0
  | paid (h : due ≤ budget) : Verdict budget due .ordinary true (budget - due)
  | unpaid (h : budget < due) : Verdict budget due .ordinary false (budget - due)

theorem judge_verdict (skill difficulty : Int) (attributes rolls : List Int) :
    Verdict (max 0 (skill - difficulty)) (overflow rolls attributes)
      (judge skill difficulty attributes rolls).critical
      (judge skill difficulty attributes rolls).success
      (judge skill difficulty attributes rolls).extraPoints := by
  unfold judge
  cases hcritical : Critical.ofRolls rolls with
  | doubleOne | tripleOne => exact .forcedSuccess rfl
  | doubleTwenty | tripleTwenty => exact .forcedFailure rfl
  | ordinary =>
    show Verdict _ _ .ordinary
      (decide (0 ≤ max 0 (skill - difficulty) - overflow rolls attributes)) _
    by_cases hdue : overflow rolls attributes ≤ max 0 (skill - difficulty)
    · rw [decide_eq_true (Int.sub_nonneg.mpr hdue)]
      exact .paid hdue
    · rw [decide_eq_false (mt Int.sub_nonneg.mp hdue)]
      exact .unpaid (Int.not_le.mp hdue)

/-- Points to spare are what a check succeeds by. -/
theorem Verdict.extraPoints_sign {budget due extra : Int} {critical : Critical} {success : Bool}
    (h : Verdict budget due critical success extra) (hbudget : 0 ≤ budget) :
    (success = true → 0 ≤ extra) ∧ (success = false → extra ≤ 0) := by
  cases h with
  | forcedSuccess _ => exact ⟨fun _ ↦ hbudget, nofun⟩
  | forcedFailure _ => exact ⟨nofun, fun _ ↦ Int.le_refl 0⟩
  | paid hdue => exact ⟨fun _ ↦ by omega, nofun⟩
  | unpaid hdue => exact ⟨nofun, fun _ ↦ by omega⟩

theorem judge_extraPoints_sign (skill difficulty : Int) (attributes rolls : List Int) :
    ((judge skill difficulty attributes rolls).success = true →
        0 ≤ (judge skill difficulty attributes rolls).extraPoints) ∧
      ((judge skill difficulty attributes rolls).success = false →
        (judge skill difficulty attributes rolls).extraPoints ≤ 0) :=
  (judge_verdict skill difficulty attributes rolls).extraPoints_sign (Int.le_max_left _ _)

/-! ### Rolls -/

/-- The sizes of the dice of a check. -/
def sizes : List Int := [20, 20, 20]

/-- Three rolls, each within the faces of the die. -/
structure ValidRolls (rolls : List Int) : Prop where
  length_eq : rolls.length = 3
  range : ∀ roll ∈ rolls, 1 ≤ roll ∧ roll ≤ 20

/-- The rolls of a check and the table after it. They are given, or three dice show them. -/
inductive Rolls (table : Table) : Option (List Int) → List Int → Table → Prop
  | given (rolls : List Int) : Rolls table (some rolls) rolls table
  | thrown {rolls : List Int} (hshown : table.shown? sizes = some rolls) :
      Rolls table none rolls (table.askAll sizes)

theorem validRoll_iff {roll : Int} : validRoll roll = true ↔ 1 ≤ roll ∧ roll ≤ 20 := by
  rw [validRoll, Bool.and_eq_true, decide_eq_true_eq, decide_eq_true_eq, dieSides]

theorem validateRolls_eq_ok_iff {rolls : List Int} :
    validateRolls rolls = .ok () ↔ ValidRolls rolls := by
  unfold validateRolls
  constructor
  · intro h
    split at h
    · cases h
    · next hlength =>
      split at h
      · cases h
      · next hnone =>
        refine ⟨Decidable.not_not.mp hlength, fun roll hroll ↦ validRoll_iff.mp ?_⟩
        simpa using List.find?_eq_none.mp hnone roll hroll
  · intro h
    have hnone : rolls.find? (!validRoll ·) = none :=
      List.find?_eq_none.mpr fun roll hroll ↦ by simp [validRoll_iff.mpr (h.range roll hroll)]
    have hlength : ¬ rolls.length ≠ diceCount := Decidable.not_not.mpr h.length_eq
    rw [if_neg hlength, hnone]

/-- The rolls of a check, given or thrown. -/
def throwRolls : Option (List Int) → Throw (List Int)
  | some rolls => pure rolls
  | none => Throw.dice dieSides diceCount

theorem onTable_throwRolls_eq_ok_iff {givenRolls : Option (List Int)} {rolls : List Int}
    {table left : Table} :
    (throwRolls givenRolls).onTable table = (.ok rolls, left) ↔
      Rolls table givenRolls rolls left := by
  constructor
  · intro h
    cases givenRolls with
    | some given =>
      obtain ⟨rfl, rfl⟩ := Throw.onTable_pure_eq_ok_iff.mp h
      exact .given given
    | none =>
      obtain ⟨values, hshown, rfl, rfl⟩ := (Throw.asks_dice dieSides diceCount).of_onTable h
      exact .thrown hshown
  · intro h
    cases h with
    | given => exact Throw.onTable_pure table rolls
    | thrown hshown => exact Throw.onTable_dice hshown

/-! ### Whole checks -/

theorem prepare_eq_ok_iff {rating exchanged skill : Int} {attributes : List Int} :
    prepare rating attributes exchanged = .ok skill ↔
      attributes.length = 3 ∧ 0 ≤ exchanged ∧ boostedRating rating exchanged = skill := by
  unfold prepare validateAttributes effectiveRating
  by_cases hlength : attributes.length = 3
  · by_cases hexchanged : exchanged < 0
    · simp [hlength, hexchanged, diceCount, Int.not_le.mpr hexchanged]
    · simp [hlength, hexchanged, diceCount, Int.not_lt.mp hexchanged]
  · simp [hlength, diceCount]

theorem resolve_eq (rating difficulty : Int) (attributes : List Int) (exchanged : Int)
    (givenRolls : Option (List Int)) :
    resolve rating difficulty attributes exchanged givenRolls =
      Throw.ofExcept (prepare rating attributes exchanged) >>= fun skill ↦
        throwRolls givenRolls >>= fun rolls ↦
          Throw.ofExcept (validateRolls rolls) >>= fun _ ↦
            pure (judge skill difficulty attributes rolls) := by
  cases givenRolls <;> rfl

/-- When a check is made, and what it comes to. -/
theorem onTable_resolve_eq_ok_iff {rating difficulty exchanged : Int} {attributes : List Int}
    {givenRolls : Option (List Int)} {table left : Table} {outcome : Outcome} :
    (resolve rating difficulty attributes exchanged givenRolls).onTable table =
        (.ok outcome, left) ↔
      attributes.length = 3 ∧ 0 ≤ exchanged ∧
        ∃ rolls, Rolls table givenRolls rolls left ∧ ValidRolls rolls ∧
          judge (boostedRating rating exchanged) difficulty attributes rolls = outcome := by
  simp only [resolve_eq, Throw.onTable_bind_eq_ok_iff, Throw.onTable_ofExcept_eq_ok_iff,
    Throw.onTable_pure_eq_ok_iff, prepare_eq_ok_iff, onTable_throwRolls_eq_ok_iff]
  constructor
  · rintro ⟨_, _, ⟨⟨hlength, hexchanged, rfl⟩, rfl⟩, rolls, _, hrolls, _, _, ⟨hvalid, rfl⟩, rfl,
      rfl⟩
    exact ⟨hlength, hexchanged, rolls, hrolls, validateRolls_eq_ok_iff.mp hvalid, rfl⟩
  · rintro ⟨hlength, hexchanged, rolls, hrolls, hvalid, rfl⟩
    exact ⟨_, _, ⟨⟨hlength, hexchanged, rfl⟩, rfl⟩, rolls, _, hrolls, (), _,
      ⟨validateRolls_eq_ok_iff.mpr hvalid, rfl⟩, rfl, rfl⟩

/-- A check whose rolls are not given throws its three dice and no others. -/
theorem askAll_of_onTable_resolve {rating difficulty exchanged : Int} {attributes : List Int}
    {table left : Table} {outcome : Outcome}
    (h : (resolve rating difficulty attributes exchanged none).onTable table =
      (.ok outcome, left)) :
    table.askAll sizes = left := by
  obtain ⟨-, -, rolls, hrolls, -, -⟩ := onTable_resolve_eq_ok_iff.mp h
  cases hrolls with
  | thrown => rfl

/-! ### Checks that are refused -/

theorem onTable_resolve_of_negative {rating difficulty exchanged : Int} {attributes : List Int}
    (hlength : attributes.length = 3) (hexchanged : exchanged < 0)
    (givenRolls : Option (List Int)) (table : Table) :
    (resolve rating difficulty attributes exchanged givenRolls).onTable table =
      (.error (.negativeExchange exchanged), table) := by
  have hprepare : prepare rating attributes exchanged = .error (.negativeExchange exchanged) := by
    simp [prepare, validateAttributes, effectiveRating, hlength, hexchanged, diceCount]
  rw [resolve_eq, Throw.onTable_bind, Throw.onTable_ofExcept, hprepare]

theorem exists_validateRolls_eq_error {rolls : List Int} (hlength : rolls.length = 3) {roll : Int}
    (hroll : roll ∈ rolls) (hrange : ¬ (1 ≤ roll ∧ roll ≤ 20)) :
    ∃ first, validateRolls rolls = .error (.rollOutOfRange first) := by
  have hinvalid : (!validRoll roll) = true := by
    rw [Bool.not_eq_true', ← Bool.not_eq_true, validRoll_iff]
    exact hrange
  obtain ⟨first, hfirst⟩ : ∃ first, rolls.find? (!validRoll ·) = some first :=
    Option.isSome_iff_exists.mp (List.find?_isSome.mpr ⟨roll, hroll, hinvalid⟩)
  have hlength' : ¬ rolls.length ≠ diceCount := Decidable.not_not.mpr hlength
  exact ⟨first, by rw [validateRolls, if_neg hlength', hfirst]⟩

/-- A check is refused for given rolls that no die shows. -/
theorem exists_onTable_resolve_of_rolls (rating difficulty : Int) {exchanged : Int}
    {attributes rolls : List Int} (hlength : attributes.length = 3) (hexchanged : 0 ≤ exchanged)
    (hthree : rolls.length = 3) {roll : Int} (hroll : roll ∈ rolls)
    (hrange : ¬ (1 ≤ roll ∧ roll ≤ 20)) (table : Table) :
    ∃ first, (resolve rating difficulty attributes exchanged (some rolls)).onTable table =
      (.error (.rollOutOfRange first), table) := by
  obtain ⟨first, hfirst⟩ := exists_validateRolls_eq_error hthree hroll hrange
  have hprepare : prepare rating attributes exchanged = .ok (boostedRating rating exchanged) :=
    prepare_eq_ok_iff.mpr ⟨hlength, hexchanged, rfl⟩
  refine ⟨first, ?_⟩
  rw [resolve_eq, Throw.onTable_bind, Throw.onTable_ofExcept, hprepare]
  dsimp only
  rw [Throw.onTable_bind, throwRolls, Throw.onTable_pure]
  dsimp only
  rw [Throw.onTable_bind, Throw.onTable_ofExcept, hfirst]

/-- A check that is not refused is made on any table whose dice do not run out. -/
theorem exists_onTable_resolve (rating difficulty : Int) {exchanged : Int} {attributes : List Int}
    (hlength : attributes.length = 3) (hexchanged : 0 ≤ exchanged) {givenRolls : Option (List Int)}
    (hgiven : ∀ rolls, givenRolls = some rolls → ValidRolls rolls) {table : Table}
    (hendless : table.source.Endless) (hrange : table.source.InRange) :
    ∃ outcome left, (resolve rating difficulty attributes exchanged givenRolls).onTable table =
      (.ok outcome, left) := by
  obtain ⟨rolls, left, hrolls, hvalid⟩ :
      ∃ rolls left, Rolls table givenRolls rolls left ∧ ValidRolls rolls := by
    cases givenRolls with
    | some rolls => exact ⟨rolls, table, .given rolls, hgiven rolls rfl⟩
    | none =>
      obtain ⟨rolls, hshown⟩ := Table.exists_shown? hendless sizes
      exact ⟨rolls, _, .thrown hshown, Table.length_of_shown? hshown,
        Table.range_of_shown? hrange (by decide) diceCount hshown⟩
  exact ⟨_, left, onTable_resolve_eq_ok_iff.mpr
    ⟨hlength, hexchanged, rolls, hrolls, hvalid, rfl⟩⟩

end Aventuria.Check
