import Aventuria.Proofs.Check.Advantage

/-!
# Ratings and exchanged points

Every exchanged point raises a rating by two, and a rating of at least zero is at most doubled that
way. The double of a negative rating bounds it from below, where it is of no effect, so a negative
rating is raised without an end and at last goes past a better one that is not negative
(`Overtakes`). Everywhere else the better rating stays the better one, and a check with it succeeds
whenever it does with the other one; that is the main result,
`higher_ratings_are_worth_more_iff`.
-/

set_option autoImplicit false
set_option relaxedAutoImplicit false

namespace Aventuria.Check

section
variable {low high exchanged : Int}

theorem boostedRating_of_nonneg (hlow : 0 ≤ low) :
    boostedRating low exchanged = min (low + 2 * exchanged) (2 * low) :=
  if_pos hlow

/-- The bound of a negative rating lies below the rating itself. -/
theorem boostedRating_of_neg (hlow : low < 0) (hexchanged : 0 ≤ exchanged) :
    boostedRating low exchanged = low + 2 * exchanged := by
  rw [boostedRating, if_neg (Int.not_le.mpr hlow)]
  omega

theorem effectiveRating_eq_ok (hexchanged : 0 ≤ exchanged) (base : Int) :
    effectiveRating base exchanged = .ok (boostedRating base exchanged) :=
  if_neg (Int.not_lt.mpr hexchanged)

/-- A negative rating is raised to more than the double of one that is not negative. -/
structure Overtakes (low high exchanged : Int) : Prop where
  negative : low < 0
  nonneg : 0 ≤ high
  double_lt : 2 * high < low + 2 * exchanged

theorem boostedRating_le_iff (hle : low ≤ high) (hexchanged : 0 ≤ exchanged) :
    boostedRating low exchanged ≤ boostedRating high exchanged ↔
      ¬ Overtakes low high exchanged := by
  by_cases hhigh : 0 ≤ high
  · rw [boostedRating_of_nonneg hhigh]
    by_cases hlow : 0 ≤ low
    · rw [boostedRating_of_nonneg hlow]
      exact iff_of_true (by omega) fun h ↦ absurd h.negative (Int.not_lt.mpr hlow)
    · have hneg : low < 0 := Int.not_le.mp hlow
      rw [boostedRating_of_neg hneg hexchanged]
      constructor
      · intro hbound hovertakes
        have hdouble := hovertakes.double_lt
        omega
      · intro hkept
        have hdouble : ¬ 2 * high < low + 2 * exchanged := fun h ↦ hkept ⟨hneg, hhigh, h⟩
        omega
  · have hneg : high < 0 := Int.not_le.mp hhigh
    rw [boostedRating_of_neg hneg hexchanged, boostedRating_of_neg (by omega) hexchanged]
    exact iff_of_true (by omega) fun h ↦ absurd h.nonneg hhigh

/-! ### Checks with two ratings -/

/-- Whatever check succeeds with one rating succeeds with the other one too. -/
def KeepsSuccesses (low high exchanged : Int) : Prop :=
  ∀ (difficulty : Int) (attributes rolls : List Int) (outcome : Outcome),
    ComesTo low difficulty exchanged attributes rolls outcome →
      ∃ other, ComesTo high difficulty exchanged attributes rolls other ∧
        (outcome.success = true → other.success = true)

theorem keepsSuccesses_of_le
    (h : boostedRating low exchanged ≤ boostedRating high exchanged) :
    KeepsSuccesses low high exchanged := by
  intro difficulty attributes rolls outcome hcomes
  obtain ⟨hlength, hexchanged, hvalid, rfl⟩ := comesTo_iff.mp hcomes
  exact ⟨_, comesTo_judge high difficulty hlength hexchanged hvalid,
    (judge_mono rolls h (Int.le_refl _) (List.forall₂_refl attributes)).2⟩

/-- With rolls of no critical kind, a check succeeds when its budget pays for them. -/
theorem Verdict.success_iff {budget due extra : Int} {success : Bool}
    (h : Verdict budget due .ordinary success extra) : success = true ↔ due ≤ budget := by
  cases h with
  | forcedSuccess hforced | forcedFailure hforced => cases hforced
  | paid hpaid => exact iff_of_true rfl hpaid
  | unpaid hunpaid => exact iff_of_false Bool.false_ne_true (Int.not_le.mpr hunpaid)

/-- A single point above an attribute can be paid with the one rating and not with the other. -/
theorem not_keepsSuccesses_of_lt (hexchanged : 0 ≤ exchanged)
    (h : boostedRating high exchanged < boostedRating low exchanged) :
    ¬ KeepsSuccesses low high exchanged := by
  intro hkeeps
  obtain ⟨other, hother, hsuccess⟩ := hkeeps (boostedRating low exchanged - 1) [1, 2, 2] [2, 2, 2] _
    (comesTo_judge low _ rfl hexchanged ⟨rfl, by decide⟩)
  obtain ⟨-, -, -, rfl⟩ := comesTo_iff.mp hother
  have hlow := (verdict_ofRolls (boostedRating low exchanged) (boostedRating low exchanged - 1)
    [1, 2, 2] [2, 2, 2]).success_iff
  have hhigh := (verdict_ofRolls (boostedRating high exchanged) (boostedRating low exchanged - 1)
    [1, 2, 2] [2, 2, 2]).success_iff
  have hdue : overflow [2, 2, 2] [1, 2, 2] = 1 := rfl
  rw [hlow, hhigh, hdue] at hsuccess
  omega

end

/-- A check that a negative rating passes, raised by one point, is failed with a rating of zero. -/
theorem not_keepsSuccesses_at_zero :
    effectiveRating (-1) 1 = .ok 1 ∧ effectiveRating 0 1 = .ok 0 ∧ ¬ KeepsSuccesses (-1) 0 1 :=
  ⟨rfl, rfl, not_keepsSuccesses_of_lt (by decide) (by decide)⟩

/-- With the same number of exchanged points, a higher rating is worth no less unless a negative
rating overtakes it, and checks keep their successes with the higher rating exactly then. -/
theorem higher_ratings_are_worth_more_iff {low high exchanged : Int} (hle : low ≤ high)
    (hexchanged : 0 ≤ exchanged) :
    ∃ lesser greater, effectiveRating low exchanged = .ok lesser ∧
      effectiveRating high exchanged = .ok greater ∧
      (lesser ≤ greater ↔ ¬ Overtakes low high exchanged) ∧
      (KeepsSuccesses low high exchanged ↔ ¬ Overtakes low high exchanged) := by
  have horder := boostedRating_le_iff hle hexchanged
  refine ⟨_, _, effectiveRating_eq_ok hexchanged low, effectiveRating_eq_ok hexchanged high,
    horder, ?_⟩
  rw [← horder]
  refine ⟨fun hkeeps ↦ ?_, keepsSuccesses_of_le⟩
  by_contra hlt
  exact not_keepsSuccesses_of_lt hexchanged (Int.not_le.mp hlt) hkeeps

/-- Two points raise a rating of three below zero to one, and a rating of one just to two. -/
theorem higher_ratings_are_worth_more_across_zero :
    ((-3 : Int) ≤ 1 ∧ (0 : Int) ≤ 2) ∧ effectiveRating (-3) 2 = .ok 1 ∧
      effectiveRating 1 2 = .ok 2 ∧ KeepsSuccesses (-3) 1 2 := by
  have hle : (-3 : Int) ≤ 1 := by decide
  have hexchanged : (0 : Int) ≤ 2 := by decide
  obtain ⟨lesser, greater, hlesser, hgreater, -, hkeeps⟩ :=
    higher_ratings_are_worth_more_iff hle hexchanged
  obtain rfl : 1 = lesser := Except.ok.inj hlesser
  obtain rfl : 2 = greater := Except.ok.inj hgreater
  refine ⟨⟨hle, hexchanged⟩, hlesser, hgreater, hkeeps.mpr fun hovertakes ↦ ?_⟩
  exact absurd hovertakes.double_lt (by decide)

end Aventuria.Check
