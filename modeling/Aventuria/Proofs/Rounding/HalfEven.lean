import Mathlib.Algebra.Order.Field.Power
import Mathlib.Algebra.Order.Field.Rat
import Mathlib.Tactic.FieldSimp
import Mathlib.Tactic.Linarith
import Aventuria.Proofs.Rounding

/-!
# Rounding half to even

A number with limited precision is a whole number of few binary digits times a power of two
(`Representable`). A number is rounded to a nearest one among these and, where there are two, to the
one whose last digit is zero (`Rounds`): there is no more than one such number (`Rounds.unique`), and
for whole numbers it is the one that is computed (`rounds_nearest`). Rounding does not notice the
sign of a number or powers of two in it (`Rounds.mul`).
-/

set_option autoImplicit false
set_option relaxedAutoImplicit false

namespace Aventuria.Rounding

/-- A number of so many significant binary digits. -/
def Representable (count : Nat) (x : ℚ) : Prop :=
  ∃ digits exponent : ℤ, |digits| < 2 ^ count ∧ x = digits * 2 ^ exponent

/-- Rounding to the nearest number that is representable. Of two that are equally near, one needs a
digit less: its last digit is zero. -/
structure Rounds (x r : ℚ) : Prop where
  representable : Representable precision r
  nearest : ∀ y, Representable precision y → |x - r| ≤ |x - y|
  even : ∀ y, Representable precision y → |x - y| = |x - r| →
    y = r ∨ Representable (precision - 1) r

variable {x y r s : ℚ} {count : Nat}

/-! ### Signs and powers of two -/

theorem Representable.neg (h : Representable count x) : Representable count (-1 * x) := by
  obtain ⟨digits, exponent, hdigits, rfl⟩ := h
  exact ⟨-digits, exponent, by rwa [abs_neg], by push_cast; ring⟩

theorem Representable.zpow_mul (h : Representable count x) (shift : ℤ) :
    Representable count (2 ^ shift * x) := by
  obtain ⟨digits, exponent, hdigits, rfl⟩ := h
  refine ⟨digits, shift + exponent, hdigits, ?_⟩
  rw [zpow_add₀ two_ne_zero]
  ring

/-- A factor that makes no difference to the digits of a number makes none to rounding. -/
theorem Rounds.mul {c : ℚ} (hc : c ≠ 0)
    (hmul : ∀ count x, Representable count x → Representable count (c * x))
    (hdiv : ∀ count x, Representable count x → Representable count (c⁻¹ * x)) (h : Rounds x r) :
    Rounds (c * x) (c * r) := by
  have hdistance : ∀ y, |c * x - y| = |c| * |x - c⁻¹ * y| := by
    intro y
    rw [← abs_mul, mul_sub, mul_inv_cancel_left₀ hc]
  have hself : |c * x - c * r| = |c| * |x - r| := by rw [← mul_sub, abs_mul]
  have hpos : 0 < |c| := abs_pos.mpr hc
  refine ⟨hmul _ _ h.representable, fun y hy ↦ ?_, fun y hy hsame ↦ ?_⟩
  · rw [hself, hdistance]
    exact mul_le_mul_of_nonneg_left (h.nearest _ (hdiv _ _ hy)) hpos.le
  · rw [hself, hdistance] at hsame
    refine (h.even _ (hdiv _ _ hy) (mul_left_cancel₀ hpos.ne' hsame)).imp ?_ (hmul _ _)
    rintro rfl
    exact (mul_inv_cancel_left₀ hc y).symm

theorem Rounds.neg (h : Rounds x r) : Rounds (-x) (-r) := by
  have hneg := h.mul (c := -1) (by norm_num) (fun _ _ ↦ .neg) fun _ _ hy ↦ by
    rw [inv_neg, inv_one]
    exact hy.neg
  rwa [neg_one_mul, neg_one_mul] at hneg

theorem Rounds.zpow_mul (h : Rounds x r) (shift : ℤ) : Rounds (2 ^ shift * x) (2 ^ shift * r) :=
  h.mul (zpow_ne_zero shift two_ne_zero) (fun _ _ hy ↦ hy.zpow_mul shift) fun _ _ hy ↦ by
    rw [← zpow_neg]
    exact hy.zpow_mul (-shift)

/-! ### Uniqueness -/

theorem exists_eq_mul_zpow {low high : ℤ} (h : low ≤ high) (digits : ℤ) :
    ∃ more : ℤ, (digits * 2 ^ high : ℚ) = more * 2 ^ low := by
  refine ⟨digits * 2 ^ (high - low).toNat, ?_⟩
  have hexponent : high = ((high - low).toNat : ℤ) + low := by omega
  conv_lhs => rw [hexponent, zpow_add₀ two_ne_zero, zpow_natCast]
  push_cast
  ring

/-- Halfway between a number and the next one with the same exponent. -/
theorem representable_half_above {digits : ℤ} (h : |digits| < 2 ^ count) (exponent : ℤ) :
    Representable (count + 1) ((digits + 1 / 2) * 2 ^ exponent) := by
  refine ⟨2 * digits + 1, exponent - 1, ?_, ?_⟩
  · rw [abs_lt] at h ⊢
    rw [pow_succ]
    omega
  · rw [zpow_sub_one₀ two_ne_zero]
    push_cast
    ring

theorem exists_between_of_le {digits digits' exponent exponent' : ℤ} (h : |digits| < 2 ^ count)
    (hle : exponent ≤ exponent') (hlt : (digits * 2 ^ exponent : ℚ) < digits' * 2 ^ exponent') :
    ∃ y, Representable (count + 1) y ∧ digits * 2 ^ exponent < y ∧ y < digits' * 2 ^ exponent' := by
  have hpos : (0 : ℚ) < 2 ^ exponent := zpow_pos two_pos exponent
  obtain ⟨more, hmore⟩ := exists_eq_mul_zpow hle digits'
  rw [hmore] at hlt ⊢
  have hnext : digits + 1 ≤ more := by exact_mod_cast lt_of_mul_lt_mul_right hlt hpos.le
  have hnext' : (digits + 1 : ℚ) ≤ more := by exact_mod_cast hnext
  exact ⟨_, representable_half_above h exponent, mul_lt_mul_of_pos_right (by linarith) hpos,
    mul_lt_mul_of_pos_right (by linarith) hpos⟩

/-- With one more digit there is a number between any two. -/
theorem Representable.exists_between (hr : Representable count r) (hs : Representable count s)
    (h : r < s) : ∃ y, Representable (count + 1) y ∧ r < y ∧ y < s := by
  obtain ⟨digits, exponent, hdigits, rfl⟩ := hr
  obtain ⟨digits', exponent', hdigits', rfl⟩ := hs
  rcases le_total exponent exponent' with hle | hle
  · exact exists_between_of_le hdigits hle h
  · -- Seen from above, the number with the smaller exponent comes first again.
    have hneg : ((-digits' : ℤ) * 2 ^ exponent' : ℚ) < (-digits : ℤ) * 2 ^ exponent := by
      push_cast
      linarith
    obtain ⟨y, hy, hlow, hhigh⟩ := exists_between_of_le (by rwa [abs_neg]) hle hneg
    push_cast at hlow hhigh
    exact ⟨-1 * y, hy.neg, by linarith, by linarith⟩

/-- Between two numbers that are equally near there would be a nearer one, unless one of them needs
all its digits. -/
theorem Rounds.not_lt_of_equally_near (h : Rounds x r) (hsame : |x - s| = |x - r|)
    (hr : Representable (precision - 1) r) (hs : Representable (precision - 1) s) : ¬ r < s := by
  intro hlt
  obtain ⟨y, hy, hry, hys⟩ := hr.exists_between hs hlt
  have hmiddle : x - s = -(x - r) := by
    rcases abs_eq_abs.mp hsame with heq | heq
    · linarith
    · exact heq
  have hnear : |x - y| < |x - r| := by
    rw [abs_of_nonneg (by linarith : 0 ≤ x - r), abs_sub_lt_iff]
    constructor <;> linarith
  exact absurd (h.nearest y hy) (not_le.mpr hnear)

theorem Rounds.unique (h : Rounds x r) (h' : Rounds x s) : r = s := by
  have hsame : |x - s| = |x - r| :=
    le_antisymm (h'.nearest r h.representable) (h.nearest s h'.representable)
  by_contra hne
  have hr := (h.even s h'.representable hsame).resolve_left (Ne.symm hne)
  have hs := (h'.even r h.representable hsame.symm).resolve_left hne
  rcases lt_or_gt_of_ne hne with hlt | hlt
  · exact h.not_lt_of_equally_near hsame hr hs hlt
  · exact h'.not_lt_of_equally_near hsame.symm hs hr hlt

/-! ### Whole numbers -/

section
variable {n divisor : Nat}

/-- How far multiples of the divisor are from a number, told by the steps from the quotient. -/
theorem sub_mul_eq (n divisor : Nat) (steps : ℤ) :
    (n - ((n / divisor : Nat) + steps) * divisor : ℤ) = (n % divisor : Nat) - steps * divisor := by
  have hsplit : ((n / divisor : Nat) * divisor + (n % divisor : Nat) : ℤ) = n := by
    exact_mod_cast Nat.div_add_mod' n divisor
  linarith

/-- The rounded quotient belongs to the nearest multiple, and it is even where another multiple is
as near. -/
theorem nearestQuotient_spec (hdivisor : 0 < divisor) (quotient : ℤ) :
    |(n - nearestQuotient n divisor * divisor : ℤ)| ≤ |(n - quotient * divisor : ℤ)| ∧
      (|(n - quotient * divisor : ℤ)| = |(n - nearestQuotient n divisor * divisor : ℤ)| →
        quotient = nearestQuotient n divisor ∨ 2 ∣ nearestQuotient n divisor) := by
  obtain ⟨steps, rfl⟩ : ∃ steps : ℤ, quotient = (n / divisor : Nat) + steps :=
    ⟨quotient - (n / divisor : Nat), by ring⟩
  have hlt : n % divisor < divisor := Nat.mod_lt n hdivisor
  have hdown := sub_mul_eq n divisor 0
  have hup := sub_mul_eq n divisor 1
  -- No multiple but the two around the number can be nearest.
  have hsteps : steps = 0 ∨ steps = 1 ∨ steps * divisor ≤ -divisor ∨
      2 * divisor ≤ steps * divisor := by
    rcases lt_or_ge steps 0 with hneg | hnonneg
    · exact .inr (.inr (.inl (by nlinarith)))
    · rcases lt_or_ge steps 2 with hsmall | hlarge
      · omega
      · exact .inr (.inr (.inr (by nlinarith)))
  rw [sub_mul_eq]
  unfold nearestQuotient
  dsimp only
  split
  · push_cast at hup ⊢
    rw [hup]
    simp only [Int.abs_eq_natAbs]
    rcases hsteps with rfl | rfl | hsteps | hsteps <;> omega
  · rw [add_zero] at hdown
    rw [hdown]
    simp only [Int.abs_eq_natAbs]
    rcases hsteps with rfl | rfl | hsteps | hsteps <;> omega

/-- All digits may be ones or, for the next power of two, all but the first zeros. -/
theorem representable_of_le {digits : Nat} (hcount : 0 < count) (h : digits ≤ 2 ^ count)
    (exponent : ℤ) : Representable count (digits * 2 ^ exponent) := by
  rcases h.lt_or_eq with hlt | rfl
  · exact ⟨digits, exponent, by rw [Nat.abs_cast]; exact_mod_cast hlt, rfl⟩
  · refine ⟨1, count + exponent, by rw [abs_one]; exact one_lt_pow₀ one_lt_two hcount.ne', ?_⟩
    rw [zpow_add₀ two_ne_zero, zpow_natCast]
    push_cast
    ring

theorem cast_nearest (n : Nat) :
    (nearest n : ℚ) = nearestQuotient n (2 ^ excessDigits n) * 2 ^ (excessDigits n : ℤ) := by
  rw [zpow_natCast]
  exact_mod_cast rfl

/-- The nearest multiple of the power of two that the last kept digit counts. -/
theorem nearest_spec (n : Nat) (quotient : ℤ) :
    |(n - nearest n : ℚ)| ≤ |(n - quotient * 2 ^ (excessDigits n : ℤ) : ℚ)| ∧
      (|(n - quotient * 2 ^ (excessDigits n : ℤ) : ℚ)| = |(n - nearest n : ℚ)| →
        (quotient * 2 ^ (excessDigits n : ℤ) : ℚ) = nearest n ∨
          Representable (precision - 1) (nearest n)) := by
  obtain ⟨hnearest, heven⟩ :=
    nearestQuotient_spec (Nat.two_pow_pos (excessDigits n)) quotient
  rw [cast_nearest, zpow_natCast]
  refine ⟨by exact_mod_cast hnearest, fun hsame ↦ ?_⟩
  rcases heven (by exact_mod_cast hsame) with rfl | ⟨half, hhalf⟩
  · exact .inl rfl
  · have hle := nearestQuotient_le_two_pow n
    have hhalf_le : half ≤ 2 ^ (precision - 1) := by
      unfold precision
      omega
    have heq : (2 ^ excessDigits n * 2 : ℚ) = 2 ^ (excessDigits n + 1 : ℤ) := by
      rw [zpow_add_one₀ two_ne_zero, zpow_natCast]
    rw [hhalf]
    push_cast
    rw [mul_comm 2, mul_assoc, mul_comm 2, heq]
    exact .inr (representable_of_le (by decide) hhalf_le _)

/-- Numbers with too many digits are farther from a number with a smaller exponent than from one of
the multiples around them. -/
theorem exists_multiple_or_lt (hexcess : 0 < excessDigits n) (hy : Representable precision y) :
    (∃ quotient : ℤ, y = quotient * 2 ^ (excessDigits n : ℤ)) ∨
      |(n - nearest n : ℚ)| < |(n - y : ℚ)| := by
  obtain ⟨digits, exponent, hdigits, rfl⟩ := hy
  rcases le_or_gt (excessDigits n : ℤ) exponent with hle | hlt
  · exact .inl (exists_eq_mul_zpow hle digits)
  · right
    have hsmall : (digits * 2 ^ exponent : ℚ) < 2 ^ 52 * 2 ^ (excessDigits n : ℤ) := by
      have hdigits' : (digits : ℚ) < 2 ^ 53 := by exact_mod_cast (abs_lt.mp hdigits).2
      have hexponent : (2 ^ exponent : ℚ) ≤ 2 ^ (excessDigits n - 1 : ℤ) :=
        zpow_le_zpow_right₀ one_le_two (by omega)
      calc
        (digits * 2 ^ exponent : ℚ) < 2 ^ 53 * 2 ^ exponent :=
          mul_lt_mul_of_pos_right hdigits' (zpow_pos two_pos exponent)
        _ ≤ 2 ^ 53 * 2 ^ (excessDigits n - 1 : ℤ) :=
          mul_le_mul_of_nonneg_left hexponent (by norm_num)
        _ = 2 ^ 52 * 2 ^ (excessDigits n : ℤ) := by
          rw [zpow_sub_one₀ two_ne_zero]
          ring
    have hlarge : (2 ^ 52 * 2 ^ (excessDigits n : ℤ) : ℚ) ≤ n := by
      rw [zpow_natCast, ← pow_add]
      exact_mod_cast two_pow_le_of_excessDigits hexcess
    have hnearest := (nearest_spec n (2 ^ 52)).1
    rw [Int.cast_pow, Int.cast_ofNat] at hnearest
    rw [abs_of_nonneg (sub_nonneg.mpr hlarge)] at hnearest
    exact hnearest.trans_lt (lt_of_lt_of_le (by linarith) (le_abs_self _))

/-- The number that is computed is the one that rounding half to even finds. -/
theorem rounds_nearest (n : Nat) : Rounds n (nearest n) := by
  have hrepresentable : Representable precision (nearest n) := by
    rw [cast_nearest]
    exact representable_of_le (by decide) (nearestQuotient_le_two_pow n) _
  by_cases hexcess : 0 < excessDigits n
  · refine ⟨hrepresentable, fun y hy ↦ ?_, fun y hy hsame ↦ ?_⟩
    · rcases exists_multiple_or_lt hexcess hy with ⟨quotient, rfl⟩ | hlt
      · exact (nearest_spec n quotient).1
      · exact hlt.le
    · rcases exists_multiple_or_lt hexcess hy with ⟨quotient, rfl⟩ | hlt
      · exact (nearest_spec n quotient).2 hsame
      · exact absurd hsame hlt.ne'
  · have hfew := lt_two_pow_excessDigits n
    rw [Nat.eq_zero_of_not_pos hexcess] at hfew
    have hself : nearest n = n := nearest_of_fits (fits_of_le hfew.le)
    rw [hself] at hrepresentable ⊢
    refine ⟨hrepresentable, fun y _ ↦ ?_, fun y _ hsame ↦ .inl ?_⟩
    · rw [sub_self, abs_zero]
      exact abs_nonneg _
    · rw [sub_self, abs_zero, abs_eq_zero] at hsame
      linarith

end

end Aventuria.Rounding
