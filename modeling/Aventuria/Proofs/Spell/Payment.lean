import Aventuria.Proofs.Check.Outcome
import Aventuria.Proofs.Formula.Value
import Aventuria.Spell.Cost

/-!
# Paying for a casting

A casting costs what its formula and its base come to, less the traits if it succeeds, and a share
of it if it fails; the price is never negative. The check of a casting never leaves points that
could not be paid with, and all failures leave none, so they cost the same
(`check_outcomes_can_be_paid`).
-/

set_option autoImplicit false
set_option relaxedAutoImplicit false

namespace Aventuria.Spell

/-! ### Prices -/

/-- The price before traits and failure, where the formula has the given value or none. -/
def price (base : Int) (value : Option Int) : Int :=
  max 0 (base + value.getD 0)

theorem price_nonneg (base : Int) (value : Option Int) : 0 ≤ price base value :=
  Int.le_max_left _ _

theorem successCost_nonneg (raw traits : Int) : 0 ≤ successCost raw traits := by
  unfold successCost
  split
  · exact Int.le_refl 0
  · omega

theorem failureShare_nonneg {raw : Int} (h : 0 ≤ raw) (tradition : Tradition) :
    0 ≤ tradition.failureShare raw := by
  cases tradition with
  | guild => exact Int.ediv_nonneg (by omega) (by decide)
  | witch => exact Int.ediv_nonneg (by omega) (by decide)

theorem rawCost_eq {formula : Option String} {points base : Int} {value : Option Int}
    (h : Formula.evaluate formula (max 0 points) = .ok value) :
    rawCost formula points base = .ok (price base value) := by
  rw [rawCost, h]
  rfl

/-! ### Costs -/

section
variable {formula : Option String} {points base traits : Int} {value : Option Int}
  {tradition : Tradition}

theorem cost_of_success (hbase : 0 ≤ base) (htraits : 0 ≤ traits ∧ traits ≤ 2)
    (hpoints : 0 ≤ points) (hvalue : Formula.evaluate formula points = .ok value) :
    cost formula points true base tradition traits =
      .ok (successCost (price base value) traits) := by
  have hraw : rawCost formula points base = .ok (price base value) :=
    rawCost_eq (by rwa [Int.max_eq_right hpoints])
  rw [cost, validateBase, if_neg (Int.not_lt.mpr hbase), validateTraits, mostTraits, if_pos htraits,
    if_pos rfl, if_neg (Int.not_lt.mpr hpoints), hraw]
  rfl

/-- A failure with negative points is charged as if none were left over. -/
theorem cost_of_failure (hbase : 0 ≤ base) (htraits : 0 ≤ traits ∧ traits ≤ 2)
    (hvalue : Formula.evaluate formula (max 0 points) = .ok value) :
    cost formula points false base tradition traits =
      .ok (tradition.failureShare (price base value)) := by
  rw [cost, validateBase, if_neg (Int.not_lt.mpr hbase), validateTraits, mostTraits, if_pos htraits,
    if_neg Bool.false_ne_true, rawCost_eq hvalue]
  rfl

theorem cost_of_negative_base (hbase : base < 0) (success : Bool) :
    cost formula points success base tradition traits = .error (.negativeBaseCost base) := by
  rw [cost, validateBase, if_pos hbase, error_bind]

theorem cost_of_negative_points (hbase : 0 ≤ base) (htraits : 0 ≤ traits ∧ traits ≤ 2)
    (hpoints : points < 0) :
    cost formula points true base tradition traits = .error (.successWithoutPoints points) := by
  rw [cost, validateBase, if_neg (Int.not_lt.mpr hbase), validateTraits, mostTraits, if_pos htraits,
    if_pos rfl, if_pos hpoints]
  rfl

/-- A casting has a price unless its base is negative or it succeeded with negative points. -/
theorem exists_cost (hbase : 0 ≤ base) (htraits : 0 ≤ traits ∧ traits ≤ 2) {success : Bool}
    (hpoints : success = true → 0 ≤ points) (formula : Option String) (tradition : Tradition) :
    ∃ charge, cost formula points success base tradition traits = .ok charge := by
  obtain ⟨value, hvalue⟩ := Formula.exists_evaluate_eq_ok formula (max 0 points)
  cases success with
  | true =>
    rw [Int.max_eq_right (hpoints rfl)] at hvalue
    exact ⟨_, cost_of_success hbase htraits (hpoints rfl) hvalue⟩
  | false => exact ⟨_, cost_of_failure hbase htraits hvalue⟩

/-- A casting can be paid for when the points of a success are not negative and those of a failure
not positive. -/
theorem exists_cost_of_sign (hbase : 0 ≤ base) (htraits : 0 ≤ traits ∧ traits ≤ 2)
    (hvalue : Formula.evaluate formula 0 = .ok value) (tradition : Tradition) {success : Bool}
    (hsign : (success = true → 0 ≤ points) ∧ (success = false → points ≤ 0)) :
    ∃ charge, cost formula points success base tradition traits = .ok charge ∧ 0 ≤ charge ∧
      (success = false → charge = tradition.failureShare (price base value)) := by
  cases success with
  | true =>
    obtain ⟨left, hleft⟩ := Formula.exists_evaluate_eq_ok formula points
    exact ⟨_, cost_of_success hbase htraits (hsign.1 rfl) hleft, successCost_nonneg _ _, nofun⟩
  | false =>
    rw [← Int.max_eq_left (hsign.2 rfl)] at hvalue
    exact ⟨_, cost_of_failure hbase htraits hvalue,
      failureShare_nonneg (price_nonneg base value) tradition, fun _ ↦ rfl⟩

end

/-- Whatever a check with valid rolls comes to, given or thrown, its casting can be paid for,
whatever the formula. The charge is not negative, and for every failure it is the one that the
formula comes to with no points left over. -/
theorem check_outcomes_can_be_paid (formula : Option String) {base traits : Int}
    (tradition : Tradition) (hbase : 0 ≤ base) (htraits : 0 ≤ traits ∧ traits ≤ 2) :
    ∃ value, Formula.evaluate formula 0 = .ok value ∧
      ∀ (rating difficulty exchanged : Int) (attributes : List Int) (givenRolls : Option (List Int))
        (rolls : List Int) (table left : Dice.Table),
        attributes.length = 3 → 0 ≤ exchanged → Check.Rolls table givenRolls rolls left →
        Check.ValidRolls rolls →
        ∃ outcome charge,
          (Check.resolve rating difficulty attributes exchanged givenRolls).onTable table =
            (.ok outcome, left) ∧
          cost formula outcome.extraPoints outcome.success base tradition traits = .ok charge ∧
          0 ≤ charge ∧
          (outcome.success = false →
            charge = tradition.failureShare (price base value)) := by
  obtain ⟨value, hvalue⟩ := Formula.exists_evaluate_eq_ok formula 0
  refine ⟨value, hvalue, ?_⟩
  intro rating difficulty exchanged attributes givenRolls rolls table left hlength hexchanged hrolls
    hvalid
  have hsign := Check.judge_extraPoints_sign (Check.boostedRating rating exchanged) difficulty
    attributes rolls
  obtain ⟨charge, hcharge⟩ := exists_cost_of_sign hbase htraits hvalue tradition hsign
  refine ⟨_, charge, Check.onTable_resolve_eq_ok_iff.mpr ?_, hcharge⟩
  exact ⟨hlength, hexchanged, rolls, hrolls, hvalid, rfl⟩

/-- A witch whose rolls ask for nine points more than she has pays a third of nineteen. -/
theorem check_outcomes_can_be_paid_overspent :
    (0 : Int) ≤ 3 ∧ ((0 : Int) ≤ 2 ∧ (2 : Int) ≤ 2) ∧
      ∃ outcome, (Check.resolve 5 2 [10, 11, 12] 0 (some [18, 15, 12])).onTable
          (Dice.Table.fresh (.constant 1)) = (.ok outcome, Dice.Table.fresh (.constant 1)) ∧
        outcome.extraPoints = -9 ∧
        cost (some "16-ZfP/2") outcome.extraPoints outcome.success 3 .witch 2 = .ok 6 := by
  have htokens : Formula.Token.ofChars "16-ZfP/2".toList =
      .ok [.number ['1', '6'], .sign .minus, .points, .sign .slash, .number ['2']] := by
    cbv
  have htree : Formula.ofTokens
      [.number ['1', '6'], .sign .minus, .points, .sign .slash, .number ['2']] =
      .ok (.binary .subtract (.number 16) (.binary .divide .points (.number 2))) := by
    cbv
  have hread : Formula.ofChars "16-ZfP/2".toList =
      .ok (.binary .subtract (.number 16) (.binary .divide .points (.number 2))) := by
    rw [Formula.ofChars, htokens, ok_bind, htree]
  have hsixteen : Formula.evaluate (some "16-ZfP/2") 0 = .ok (some 16) := by
    rw [Formula.evaluate, Formula.compile_some, hread]
    rfl
  obtain ⟨value, hvalue, hpaid⟩ :=
    check_outcomes_can_be_paid (some "16-ZfP/2") .witch (show (0 : Int) ≤ 3 by decide)
      (show (0 : Int) ≤ 2 ∧ (2 : Int) ≤ 2 by decide)
  obtain ⟨outcome, charge, hrun, hcost, -, hfailure⟩ := hpaid 5 2 0 [10, 11, 12] _ [18, 15, 12] _ _
    rfl (by decide) (.given _) ⟨rfl, by decide⟩
  obtain rfl : Check.judge 5 2 [10, 11, 12] [18, 15, 12] = outcome :=
    Except.ok.inj (Prod.mk.inj hrun).1
  obtain rfl : some 16 = value := Except.ok.inj (hsixteen.symm.trans hvalue)
  rw [hfailure rfl] at hcost
  exact ⟨by decide, by decide, _, hrun, rfl, hcost⟩

end Aventuria.Spell
