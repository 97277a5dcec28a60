import Mathlib.Data.Fin.VecNotation
import Mathlib.Data.List.FinRange
import Mathlib.Data.List.Perm.Basic
import Aventuria.Proofs.Check.Outcome

/-!
# Scoring

How an outcome was scored can be told from its extra points: a success keeps between nothing and the
whole budget, and a failure is short of points unless the dice force it (`scored_judge`). At most one
kind of critical rolls is flagged, and it is the kind of the rolls. The order of the attributes does
not count as long as every roll stays against its own attribute (`judge_comp_perm`). The main result
is `checks_are_scored`.
-/

set_option autoImplicit false
set_option relaxedAutoImplicit false

namespace Aventuria

/-! ### Critical rolls -/

theorem Critical.ofRolls_perm {rolls others : List Int} (h : rolls.Perm others) :
    ofRolls rolls = ofRolls others := by
  simp only [ofRolls, h.count_eq]

/-- It takes two twenties to force a failure. -/
theorem Critical.two_le_count_of_forcesFailure {rolls : List Int}
    (h : (ofRolls rolls).forcesFailure = true) : 2 ≤ rolls.count 20 := by
  unfold ofRolls at h
  split at h
  · cases h
  · split at h
    · cases h
    · split at h
      · next htwenties => omega
      · split at h
        · next htwenties => omega
        · cases h

namespace Check

/-- The flags of an outcome, one for each kind of critical rolls. -/
def Outcome.flags (outcome : Outcome) : List Bool :=
  [outcome.isDoubleOne, outcome.isTripleOne, outcome.isDoubleTwenty, outcome.isTripleTwenty]

section
variable (skill difficulty : Int) (attributes rolls : List Int)

/-- The flags tell the kind of the rolls. -/
theorem critical_judge :
    (judge skill difficulty attributes rolls).critical = Critical.ofRolls rolls := by
  unfold judge Outcome.critical
  cases Critical.ofRolls rolls <;> rfl

theorem count_flags_judge : (judge skill difficulty attributes rolls).flags.count true ≤ 1 := by
  have hone : ∀ critical : Critical,
      [decide (critical = .doubleOne), decide (critical = .tripleOne),
        decide (critical = .doubleTwenty), decide (critical = .tripleTwenty)].count true ≤ 1 := by
    intro critical
    cases critical <;> decide
  exact hone (Critical.ofRolls rolls)

end

/-! ### Points -/

theorem overflow_nonneg (rolls attributes : List Int) : 0 ≤ overflow rolls attributes := by
  induction rolls generalizing attributes with
  | nil => exact Int.le_refl 0
  | cons roll rolls ih =>
    cases attributes with
    | nil => exact Int.le_refl 0
    | cons ability attributes =>
      exact Int.add_nonneg (Int.le_max_left 0 (roll - ability)) (ih attributes)

/-- A success keeps at most its budget. -/
theorem Verdict.of_success {budget due extra : Int} {critical : Critical}
    (h : Verdict budget due critical true extra) (hbudget : 0 ≤ budget) (hdue : 0 ≤ due) :
    0 ≤ extra ∧ extra ≤ budget := by
  cases h with
  | forcedSuccess _ => exact ⟨hbudget, Int.le_refl budget⟩
  | paid hpaid => exact ⟨Int.sub_nonneg.mpr hpaid, Int.sub_le_self budget hdue⟩

/-- A failure that is not forced is short of points. -/
theorem Verdict.of_failure {budget due extra : Int} {critical : Critical}
    (h : Verdict budget due critical false extra) :
    extra < 0 ∨ extra = 0 ∧ critical.forcesFailure = true := by
  cases h with
  | forcedFailure hforced => exact .inr ⟨rfl, hforced⟩
  | unpaid hunpaid => exact .inl (Int.sub_neg_of_lt hunpaid)

/-- How the points, the rolls and the flags of an outcome go together. -/
structure Outcome.Scored (outcome : Outcome) : Prop where
  of_success : outcome.success = true →
    0 ≤ outcome.extraPoints ∧
      outcome.extraPoints ≤ max 0 (outcome.effectiveRating - outcome.difficulty)
  of_failure : outcome.success = false →
    outcome.extraPoints < 0 ∨ outcome.extraPoints = 0 ∧ 2 ≤ outcome.rolls.count 20
  flags : outcome.flags.count true ≤ 1
  critical_eq : outcome.critical = Critical.ofRolls outcome.rolls

theorem scored_judge (skill difficulty : Int) (attributes rolls : List Int) :
    (judge skill difficulty attributes rolls).Scored where
  of_success hsuccess := by
    have hverdict := judge_verdict skill difficulty attributes rolls
    rw [hsuccess] at hverdict
    exact hverdict.of_success (Int.le_max_left _ _) (overflow_nonneg rolls attributes)
  of_failure hfailure := by
    have hverdict := judge_verdict skill difficulty attributes rolls
    rw [hfailure, critical_judge] at hverdict
    exact hverdict.of_failure.imp_right
      (And.imp_right Critical.two_le_count_of_forcesFailure)
  flags := count_flags_judge skill difficulty attributes rolls
  critical_eq := critical_judge skill difficulty attributes rolls

/-! ### The order of the attributes -/

section
variable {n : Nat} (attributes rolls : Fin n → Int) (σ : Equiv.Perm (Fin n))

theorem overflow_ofFn :
    overflow (List.ofFn rolls) (List.ofFn attributes) =
      sum (List.ofFn fun i ↦ max 0 (rolls i - attributes i)) := by
  rw [overflow]
  congr 1
  apply List.ext_getElem
  · simp
  · intro i _ _
    simp

theorem overflow_comp_perm :
    overflow (List.ofFn (rolls ∘ σ)) (List.ofFn (attributes ∘ σ)) =
      overflow (List.ofFn rolls) (List.ofFn attributes) := by
  rw [overflow_ofFn, overflow_ofFn]
  exact (σ.ofFn_comp_perm fun i ↦ max 0 (rolls i - attributes i)).foldr_op_eq

/-- A check is judged alike when its attributes change places together with their rolls. -/
theorem judge_comp_perm (skill difficulty : Int) :
    judge skill difficulty (List.ofFn (attributes ∘ σ)) (List.ofFn (rolls ∘ σ)) =
      { judge skill difficulty (List.ofFn attributes) (List.ofFn rolls) with
        rolls := List.ofFn (rolls ∘ σ) } := by
  simp only [judge, overflow_comp_perm, Critical.ofRolls_perm (σ.ofFn_comp_perm rolls)]

end

/-! ### Whole checks -/

/-- A check with these rolls, given or thrown, comes to an outcome. -/
def ComesTo (rating difficulty exchanged : Int) (attributes rolls : List Int)
    (outcome : Outcome) : Prop :=
  ∀ table givenRolls left, Rolls table givenRolls rolls left →
    (resolve rating difficulty attributes exchanged givenRolls).onTable table =
      (.ok outcome, left)

theorem comesTo_judge (rating difficulty : Int) {exchanged : Int} {attributes rolls : List Int}
    (hlength : attributes.length = 3) (hexchanged : 0 ≤ exchanged) (hvalid : ValidRolls rolls) :
    ComesTo rating difficulty exchanged attributes rolls
      (judge (boostedRating rating exchanged) difficulty attributes rolls) :=
  fun _ _ _ hrolls ↦
    onTable_resolve_eq_ok_iff.mpr ⟨hlength, hexchanged, rolls, hrolls, hvalid, rfl⟩

theorem validRolls_ofFn {rolls : Fin 3 → Int} (h : ∀ i, 1 ≤ rolls i ∧ rolls i ≤ 20) :
    ValidRolls (List.ofFn rolls) where
  length_eq := List.length_ofFn
  range roll hroll := by
    obtain ⟨i, rfl⟩ := List.mem_ofFn.mp hroll
    exact h i

/-- Every check with valid rolls is scored. If it succeeds, its extra points lie between nothing and
what the rating exceeds the difficulty by; if it fails, they are negative unless two twenties leave
it with none. The flags tell the kind of the rolls, and when the attributes change places together
with their rolls, nothing changes but the order of the rolls. -/
theorem checks_are_scored (rating difficulty : Int) {exchanged : Int} (hexchanged : 0 ≤ exchanged)
    (attributes : Fin 3 → Int) {rolls : Fin 3 → Int} (hrolls : ∀ i, 1 ≤ rolls i ∧ rolls i ≤ 20) :
    ∃ outcome : Outcome,
      ComesTo rating difficulty exchanged (List.ofFn attributes) (List.ofFn rolls) outcome ∧
      outcome.rolls = List.ofFn rolls ∧
      outcome.effectiveRating = boostedRating rating exchanged ∧
      outcome.difficulty = difficulty ∧ outcome.Scored ∧
      ∀ σ : Equiv.Perm (Fin 3),
        ComesTo rating difficulty exchanged (List.ofFn (attributes ∘ σ)) (List.ofFn (rolls ∘ σ))
          { outcome with rolls := List.ofFn (rolls ∘ σ) } := by
  refine ⟨judge (boostedRating rating exchanged) difficulty (List.ofFn attributes)
    (List.ofFn rolls), ?_, rfl, rfl, rfl, scored_judge _ _ _ _, fun σ ↦ ?_⟩
  · exact comesTo_judge rating difficulty List.length_ofFn hexchanged (validRolls_ofFn hrolls)
  · rw [← judge_comp_perm]
    exact comesTo_judge rating difficulty List.length_ofFn hexchanged
      (validRolls_ofFn fun i ↦ hrolls (σ i))

/-- A check that is two points short is so from either end. -/
theorem checks_are_scored_from_either_end :
    (0 : Int) ≤ 2 ∧ (∀ i, 1 ≤ (![18, 13, 15] : Fin 3 → Int) i ∧
      (![18, 13, 15] : Fin 3 → Int) i ≤ 20) ∧
      ∃ outcome, ComesTo (-3) (-4) 2 [12, 13, 14] [18, 13, 15] outcome ∧
        outcome.success = false ∧ outcome.extraPoints = -2 ∧
        ComesTo (-3) (-4) 2 [14, 13, 12] [15, 13, 18]
          { outcome with rolls := [15, 13, 18] } := by
  have hexchanged : (0 : Int) ≤ 2 := by decide
  have hrolls : ∀ i, 1 ≤ (![18, 13, 15] : Fin 3 → Int) i ∧
      (![18, 13, 15] : Fin 3 → Int) i ≤ 20 := by decide
  obtain ⟨outcome, hcomes, -, -, -, -, hswapped⟩ :=
    checks_are_scored (-3) (-4) hexchanged ![12, 13, 14] hrolls
  have hrun := hcomes (Dice.Table.fresh (.constant 1)) _ _ (.given _)
  obtain rfl : judge 1 (-4) [12, 13, 14] [18, 13, 15] = outcome :=
    Except.ok.inj (Prod.mk.inj hrun).1
  exact ⟨hexchanged, hrolls, _, hcomes, by decide, by decide, hswapped (Equiv.swap 0 2)⟩

end Check

end Aventuria
