import Aventuria.Alchemy.Brewing
import Aventuria.HerbSearch
import Aventuria.Proofs.Rounding.HalfEven

/-!
# Limits of one and a half

The highest voluntary handicap and the rating of a search in twice the time are one and a half times
a number, rounded up. Before that the number and the product are rounded half to even
(`oneAndAHalf_eq`), which leaves both alone as long as the number is small and never changes the
order of two results. The main result is `limits_are_rounded_up`.
-/

set_option autoImplicit false
set_option relaxedAutoImplicit false

namespace Aventuria

namespace Rounding

/-- One and a half times a number, before it is rounded up: the number and the product are rounded
half to even. -/
structure FormedAs (n : ℤ) (operand product : ℚ) : Prop where
  rounds_operand : Rounds n operand
  rounds_product : Rounds (3 / 2 * operand) product

/-- A product rounded up, when it and the number it comes from are below the limit. -/
def ceilBelowLimit (operand product : ℚ) : Except Fault ℤ :=
  if limit ≤ |operand| then .error .tooLargeToRound
  else if limit ≤ |product| then .error .roundedToInfinity
  else .ok ⌈product⌉

section
variable {sign : ℚ}

theorem rounds_signed (hsign : sign = 1 ∨ sign = -1) {x r : ℚ} (h : Rounds x r) :
    Rounds (sign * x) (sign * r) := by
  rcases hsign with rfl | rfl
  · rwa [one_mul, one_mul]
  · rw [neg_one_mul, neg_one_mul]
    exact h.neg

/-- The product of a rounded number: half of a whole number, which is rounded like the whole. -/
theorem rounds_three_halves (n : Nat) : Rounds (3 / 2 * nearest n) (triple n / 2) := by
  have hhalf := (rounds_nearest (3 * nearest n)).zpow_mul (-1)
  have hinv : (2 ^ (-1 : ℤ) : ℚ) = 1 / 2 := by norm_num
  have hx : (3 / 2 * nearest n : ℚ) = 1 / 2 * (3 * nearest n : Nat) := by
    push_cast
    ring
  have hr : (triple n / 2 : ℚ) = 1 / 2 * nearest (3 * nearest n) := by
    rw [triple]
    ring
  rwa [hinv, ← hx, ← hr] at hhalf

/-- A number has the sign that its size lacks, and the rounded product keeps it. -/
theorem exists_sign (n : ℤ) : ∃ sign : ℚ, (sign = 1 ∨ sign = -1) ∧ (n : ℚ) = sign * n.natAbs ∧
    ∀ product : Nat, ⌈sign * (product / 2 : ℚ)⌉ = ceilHalf (n < 0) product := by
  by_cases hneg : n < 0
  · refine ⟨-1, .inr rfl, ?_, fun product ↦ ?_⟩
    · rw [neg_one_mul, ← Int.cast_natCast, Int.ofNat_natAbs_of_nonpos hneg.le, Int.cast_neg,
        neg_neg]
    · have hhalf := ceil_half (-product)
      push_cast at hhalf
      rw [neg_one_mul, ← neg_div, hhalf, ceilHalf_of_neg hneg]
      omega
  · refine ⟨1, .inl rfl, ?_, fun product ↦ ?_⟩
    · rw [one_mul, ← Int.cast_natCast, Int.natAbs_of_nonneg (Int.not_lt.mp hneg)]
    · have hhalf := ceil_half product
      push_cast at hhalf
      rw [one_mul, hhalf, ceilHalf_of_nonneg (Int.not_lt.mp hneg)]
      omega

end

theorem exists_formedAs (n : ℤ) : ∃ operand product, FormedAs n operand product ∧
    oneAndAHalf n = ceilBelowLimit operand product := by
  obtain ⟨sign, hsign, hn, hceil⟩ := exists_sign n
  have habs : |sign| = 1 := by rcases hsign with rfl | rfl <;> norm_num
  have hoperand : Rounds n (sign * nearest n.natAbs) := hn ▸ rounds_signed hsign (rounds_nearest _)
  have hproduct : Rounds (3 / 2 * (sign * nearest n.natAbs)) (sign * (triple n.natAbs / 2)) := by
    rw [mul_left_comm]
    exact rounds_signed hsign (rounds_three_halves _)
  have hoperand_le : limit ≤ |sign * nearest n.natAbs| ↔ limit ≤ nearest n.natAbs := by
    rw [abs_mul, habs, one_mul, Nat.abs_cast]
    exact Nat.cast_le
  have hproduct_le : limit ≤ |sign * (triple n.natAbs / 2)| ↔ 2 * limit ≤ triple n.natAbs := by
    rw [abs_mul, habs, one_mul, abs_div, Nat.abs_cast, abs_two, le_div_iff₀' two_pos]
    exact_mod_cast Iff.rfl
  refine ⟨_, _, ⟨hoperand, hproduct⟩, ?_⟩
  simp only [ceilBelowLimit, hoperand_le, hproduct_le, hceil]
  rfl

/-- There is only one way to round half to even, so what is computed is what comes of it. -/
theorem oneAndAHalf_eq {n : ℤ} {operand product : ℚ} (h : FormedAs n operand product) :
    oneAndAHalf n = ceilBelowLimit operand product := by
  obtain ⟨operand', product', h', heq⟩ := exists_formedAs n
  obtain rfl := h.rounds_operand.unique h'.rounds_operand
  obtain rfl := h.rounds_product.unique h'.rounds_product
  exact heq

/-- One and a half times a number is rounded up: what is computed comes of rounding half to even and
a ceiling, it is the ceiling itself where three times the number has no more than 53 digits, and the
numbers in order have their results in order, where none is refused. -/
structure RoundsUp {α : Type} (number : α → ℤ) (roundedUp : α → Except Fault ℤ) : Prop where
  eq_ceilBelowLimit : ∀ a operand product, FormedAs (number a) operand product →
    roundedUp a = ceilBelowLimit operand product
  eq_ceil : ∀ a, 3 * |number a| ≤ 2 ^ 53 → roundedUp a = .ok ⌈(3 / 2 * number a : ℚ)⌉
  mono : ∀ a b k l, number a ≤ number b → roundedUp a = .ok k → roundedUp b = .ok l → k ≤ l

theorem roundsUp_of_eq {α : Type} {number : α → ℤ} {roundedUp : α → Except Fault ℤ}
    (h : ∀ a, roundedUp a = oneAndAHalf (number a)) : RoundsUp number roundedUp where
  eq_ceilBelowLimit a operand product hformed := (h a).trans (oneAndAHalf_eq hformed)
  eq_ceil a hsmall := by
    have hle : 3 * (number a).natAbs ≤ 2 ^ precision := by
      rw [Int.abs_eq_natAbs] at hsmall
      exact_mod_cast hsmall
    rw [h, oneAndAHalf_of_isExact (isExact_of_le hle)]
  mono a b k l hle hk hl := oneAndAHalf_mono hle ((h a).symm.trans hk) ((h b).symm.trans hl)

end Rounding

open Alchemy (mostHandicap)
open HerbSearch (Talents searchRating)
open Rounding (FormedAs RoundsUp)

/-- Both limits of one and a half are rounded up in the same way, and there is a way for every
number. -/
theorem limits_are_rounded_up :
    (∀ n, ∃ operand product, FormedAs n operand product) ∧
      RoundsUp id mostHandicap ∧ RoundsUp Talents.rating (searchRating · true) := by
  refine ⟨fun n ↦ ?_, Rounding.roundsUp_of_eq fun _ ↦ rfl,
    Rounding.roundsUp_of_eq fun _ ↦ if_pos rfl⟩
  obtain ⟨operand, product, hformed, -⟩ := Rounding.exists_formedAs n
  exact ⟨operand, product, hformed⟩

/-- The ceiling of half a negative number, and two ratings too large for all their digits. -/
theorem limits_are_rounded_up_on_both_sides :
    3 * |(-5 : ℤ)| ≤ 2 ^ 53 ∧ mostHandicap (-5) = .ok ⌈(3 / 2 * (-5 : ℤ) : ℚ)⌉ ∧
      ∃ k l, searchRating ⟨2 ^ 53 + 1, 2 ^ 53 + 1, 2 ^ 53 + 1⟩ true = .ok k ∧
        searchRating ⟨2 ^ 53 + 3, 2 ^ 53 + 3, 2 ^ 53 + 3⟩ true = .ok l ∧ k ≤ l := by
  obtain ⟨-, hhandicap, hrating⟩ := limits_are_rounded_up
  have hlow : searchRating ⟨2 ^ 53 + 1, 2 ^ 53 + 1, 2 ^ 53 + 1⟩ true = .ok (3 * 2 ^ 52) := by
    decide +kernel
  have hhigh : searchRating ⟨2 ^ 53 + 3, 2 ^ 53 + 3, 2 ^ 53 + 3⟩ true = .ok (3 * 2 ^ 52 + 6) := by
    decide +kernel
  exact ⟨by decide, hhandicap.eq_ceil (-5) (by decide), _, _, hlow, hhigh,
    hrating.mono _ _ _ _ (by decide) hlow hhigh⟩

end Aventuria
