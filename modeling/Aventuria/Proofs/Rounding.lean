import Mathlib.Data.Nat.Log
import Mathlib.Data.Nat.Prime.Basic
import Mathlib.Data.Rat.Floor
import Mathlib.Tactic.Ring
import Aventuria.Rounding

/-!
# What rounding keeps

A number with no more significant binary digits than the precision is its own nearest one
(`nearest_of_fits`). So one and a half times a number comes out exactly, as long as three times the
number fits (`oneAndAHalf_of_isExact`), and this holds of all numbers up to a bound
(`isExact_of_le`).

Numbers that are rounded keep their order (`nearest_mono`) and lose no more than a small part
(`le_nearest_add`). So one and a half times a number grows with the number (`oneAndAHalf_mono`), is
no less than a number that is not negative (`le_oneAndAHalf`), and is less than a negative one but
for minus one (`oneAndAHalf_lt`).
-/

set_option autoImplicit false
set_option relaxedAutoImplicit false

namespace Aventuria.Rounding

/-- A number that has its significant binary digits within the precision, zeros at its end left
out. -/
def Fits (n : Nat) : Prop :=
  ∃ digits zeros, digits < 2 ^ precision ∧ n = digits * 2 ^ zeros

variable {n : Nat}

theorem Fits.pow_excessDigits_dvd (h : Fits n) : 2 ^ excessDigits n ∣ n := by
  obtain ⟨digits, zeros, hdigits, rfl⟩ := h
  refine (Nat.pow_dvd_pow 2 ?_).trans (Nat.dvd_mul_left _ _)
  by_cases hzero : digits * 2 ^ zeros = 0
  · rw [hzero]
    exact Nat.zero_le zeros
  · have hlog : (digits * 2 ^ zeros).log2 < precision + zeros := by
      rw [Nat.log2_lt hzero, Nat.pow_add]
      exact Nat.mul_lt_mul_of_pos_right hdigits (Nat.two_pow_pos zeros)
    unfold excessDigits
    omega

theorem nearestQuotient_of_dvd {divisor : Nat} (hdivisor : 0 < divisor) (h : divisor ∣ n) :
    nearestQuotient n divisor = n / divisor := by
  have hremainder : n % divisor = 0 := Nat.mod_eq_zero_of_dvd h
  unfold nearestQuotient
  rw [hremainder]
  exact if_neg (by omega)

theorem nearest_of_fits (h : Fits n) : nearest n = n := by
  have hdvd : Nat.pow 2 (excessDigits n) ∣ n := h.pow_excessDigits_dvd
  have hpos : 0 < Nat.pow 2 (excessDigits n) := Nat.two_pow_pos _
  rw [nearest, nearestQuotient_of_dvd hpos hdvd, Nat.div_mul_cancel hdvd]

/-- Three has no binary zeros to lend. -/
theorem Fits.of_three_mul (h : Fits (3 * n)) : Fits n := by
  obtain ⟨digits, zeros, hdigits, heq⟩ := h
  have hcoprime : Nat.Coprime 3 (2 ^ zeros) := Nat.Coprime.pow_right zeros (by decide)
  obtain ⟨third, rfl⟩ := hcoprime.dvd_of_dvd_mul_right (Dvd.intro n heq)
  refine ⟨third, zeros, by omega, ?_⟩
  rw [Nat.mul_assoc] at heq
  exact Nat.eq_of_mul_eq_mul_left (by decide) heq

theorem fits_of_le (h : n ≤ 2 ^ precision) : Fits n := by
  by_cases hlt : n < 2 ^ precision
  · exact ⟨n, 0, hlt, (Nat.mul_one n).symm⟩
  · refine ⟨1, precision, Nat.one_lt_two_pow (by decide), ?_⟩
    rw [Nat.one_mul]
    exact Nat.le_antisymm h (Nat.not_lt.mp hlt)

/-! ### One and a half times a number -/

/-- One and a half times the number is formed without loss: three times the number fits, and its
half is below the limit. -/
structure IsExact (n : Int) : Prop where
  fits : Fits (3 * n.natAbs)
  lt_limit : 3 * n.natAbs < 2 * limit

theorem isExact_of_le {n : Int} (h : 3 * n.natAbs ≤ 2 ^ precision) : IsExact n where
  fits := fits_of_le h
  lt_limit := by
    have hpow : 2 ^ precision ≤ limit := by decide +kernel
    have hpos : 0 < limit := (Nat.two_pow_pos precision).trans_le hpow
    omega

theorem ceil_half (n : Int) : ⌈(n / 2 : ℚ)⌉ = -(-n / 2) :=
  Rat.ceil_intCast_div_natCast n 2

theorem ceil_three_halves (n : Int) : ⌈(3 / 2 * n : ℚ)⌉ = -(-(3 * n) / 2) := by
  have hhalf : (3 / 2 * n : ℚ) = (3 * n : Int) / 2 := by
    push_cast
    ring
  rw [hhalf, ceil_half]

theorem ceilHalf_three_mul (n : Int) : ceilHalf (n < 0) (3 * n.natAbs) = ⌈(3 / 2 * n : ℚ)⌉ := by
  rw [ceil_three_halves]
  by_cases hnegative : n < 0
  · rw [decide_eq_true hnegative, ceilHalf, if_pos rfl]
    omega
  · rw [decide_eq_false hnegative, ceilHalf, if_neg Bool.false_ne_true]
    omega

theorem oneAndAHalf_of_isExact {n : Int} (h : IsExact n) :
    oneAndAHalf n = .ok ⌈(3 / 2 * n : ℚ)⌉ := by
  have hoperand := nearest_of_fits h.fits.of_three_mul
  have hproduct := nearest_of_fits h.fits
  have hlimit := h.lt_limit
  have hfinite : ¬ limit ≤ n.natAbs := by omega
  simp only [oneAndAHalf, hoperand, hproduct, if_neg hfinite, if_neg (Nat.not_le.mpr hlimit),
    ceilHalf_three_mul]

/-! ### Order -/

section
variable {m divisor : Nat}

theorem div_le_nearestQuotient (n divisor : Nat) : n / divisor ≤ nearestQuotient n divisor := by
  unfold nearestQuotient
  dsimp only
  split <;> omega

theorem nearestQuotient_le (n divisor : Nat) : nearestQuotient n divisor ≤ n / divisor + 1 := by
  unfold nearestQuotient
  dsimp only
  split <;> omega

theorem nearestQuotient_mono (h : n ≤ m) :
    nearestQuotient n divisor ≤ nearestQuotient m divisor := by
  have hquotient : n / divisor ≤ m / divisor := Nat.div_le_div_right h
  by_cases hlt : n / divisor < m / divisor
  · calc
      nearestQuotient n divisor ≤ n / divisor + 1 := nearestQuotient_le n divisor
      _ ≤ m / divisor := hlt
      _ ≤ nearestQuotient m divisor := div_le_nearestQuotient m divisor
  · -- With the same quotient, the remainders decide, and they have the order of the numbers.
    have hsame : n / divisor = m / divisor := by omega
    have hn := Nat.div_add_mod n divisor
    have hm := Nat.div_add_mod m divisor
    rw [hsame] at hn
    have hremainder : n % divisor ≤ m % divisor := by omega
    unfold nearestQuotient
    dsimp only
    rw [hsame]
    split <;> split <;> omega

/-- The leading digits of a number fill the precision, if the number has more than these. -/
theorem two_pow_le_of_excessDigits (h : 0 < excessDigits n) : 2 ^ (52 + excessDigits n) ≤ n := by
  have hlog : 52 + excessDigits n = n.log2 := by
    unfold excessDigits precision at h ⊢
    omega
  have hne : n ≠ 0 := by
    rintro rfl
    exact absurd h (by decide)
  rw [hlog]
  exact Nat.log2_self_le hne

theorem lt_two_pow_excessDigits (n : Nat) : n < 2 ^ (53 + excessDigits n) := by
  have hlog : n.log2 + 1 ≤ 53 + excessDigits n := by
    unfold excessDigits precision
    omega
  exact Nat.lt_log2_self.trans_le (Nat.pow_le_pow_right (by decide) hlog)

theorem excessDigits_mono (h : n ≤ m) : excessDigits n ≤ excessDigits m := by
  have hlog : n.log2 ≤ m.log2 := by
    rw [Nat.log2_eq_log_two, Nat.log2_eq_log_two]
    exact Nat.log_mono_right h
  unfold excessDigits
  omega

theorem nearestQuotient_le_two_pow (n : Nat) :
    nearestQuotient n (2 ^ excessDigits n) ≤ 2 ^ 53 := by
  have hquotient : n / 2 ^ excessDigits n < 2 ^ 53 := by
    rw [Nat.div_lt_iff_lt_mul (Nat.two_pow_pos _), ← Nat.pow_add]
    exact lt_two_pow_excessDigits n
  exact (nearestQuotient_le n _).trans hquotient

theorem nearest_le_two_pow (n : Nat) : nearest n ≤ 2 ^ (53 + excessDigits n) := by
  rw [Nat.pow_add]
  exact Nat.mul_le_mul_right _ (nearestQuotient_le_two_pow n)

theorem two_pow_le_nearest (h : 0 < excessDigits n) : 2 ^ (52 + excessDigits n) ≤ nearest n := by
  have hquotient : 2 ^ 52 ≤ n / 2 ^ excessDigits n := by
    rw [Nat.le_div_iff_mul_le (Nat.two_pow_pos _), ← Nat.pow_add]
    exact two_pow_le_of_excessDigits h
  rw [Nat.pow_add]
  exact Nat.mul_le_mul_right _ (hquotient.trans (div_le_nearestQuotient n _))

/-- Numbers with the same number of digits are rounded to multiples of the same power; and no number
is rounded past the least one of those with more digits. -/
theorem nearest_mono (h : n ≤ m) : nearest n ≤ nearest m := by
  by_cases hsame : excessDigits n = excessDigits m
  · unfold nearest
    rw [hsame]
    exact Nat.mul_le_mul_right _ (nearestQuotient_mono h)
  · have hfewer : excessDigits n < excessDigits m :=
      Nat.lt_of_le_of_ne (excessDigits_mono h) hsame
    calc
      nearest n ≤ 2 ^ (53 + excessDigits n) := nearest_le_two_pow n
      _ ≤ 2 ^ (52 + excessDigits m) := Nat.pow_le_pow_right (by decide) (by omega)
      _ ≤ nearest m := two_pow_le_nearest (by omega)

/-- Rounding takes away less than one in the last of the digits that are kept. -/
theorem le_nearest_add (n : Nat) : n ≤ nearest n + n / 2 ^ 52 := by
  have hkept : n / 2 ^ excessDigits n * 2 ^ excessDigits n ≤ nearest n :=
    Nat.mul_le_mul_right _ (div_le_nearestQuotient n _)
  have hsplit := Nat.div_add_mod n (2 ^ excessDigits n)
  rw [Nat.mul_comm] at hsplit
  by_cases hexcess : 0 < excessDigits n
  · have hlost : n % 2 ^ excessDigits n < 2 ^ excessDigits n := Nat.mod_lt _ (Nat.two_pow_pos _)
    have hsmall : 2 ^ excessDigits n ≤ n / 2 ^ 52 := by
      rw [Nat.le_div_iff_mul_le (Nat.two_pow_pos _), ← Nat.pow_add, Nat.add_comm]
      exact two_pow_le_of_excessDigits hexcess
    omega
  · have hzero : excessDigits n = 0 := by omega
    rw [hzero, Nat.pow_zero, Nat.div_one, Nat.mul_one] at hkept
    omega

end

/-- Three times a number, the number and the product both rounded. -/
def triple (n : Nat) : Nat :=
  nearest (3 * nearest n)

theorem triple_mono {m : Nat} (h : n ≤ m) : triple n ≤ triple m :=
  nearest_mono (Nat.mul_le_mul_left 3 (nearest_mono h))

/-- What rounding takes away is little against the number itself, and where it is not, nothing is
taken away. -/
theorem triple_bounds (n : Nat) : 2 * n ≤ triple n ∧ (2 ≤ n → 2 * n + 2 ≤ triple n) := by
  by_cases hsmall : 3 * n ≤ 2 ^ precision
  · have hfits := fits_of_le hsmall
    have hexact : triple n = 3 * n := by
      rw [triple, nearest_of_fits hfits.of_three_mul, nearest_of_fits hfits]
    omega
  · have hoperand := le_nearest_add n
    have hproduct := le_nearest_add (3 * nearest n)
    unfold precision at hsmall
    unfold triple
    omega

theorem oneAndAHalf_eq_ok_iff {n k : Int} :
    oneAndAHalf n = .ok k ↔
      (nearest n.natAbs < limit ∧ triple n.natAbs < 2 * limit) ∧
        ceilHalf (n < 0) (triple n.natAbs) = k := by
  unfold oneAndAHalf triple
  dsimp only
  split_ifs with hoperand hproduct
  · simp [Nat.not_lt.mpr hoperand]
  · simp [Nat.not_lt.mpr hproduct]
  · simp [Nat.lt_of_not_le hoperand, Nat.lt_of_not_le hproduct]

theorem ceilHalf_of_neg {n : Int} (h : n < 0) (product : Nat) :
    ceilHalf (n < 0) product = -((product / 2 : Nat) : Int) := by
  rw [decide_eq_true h, ceilHalf, if_pos rfl]

theorem ceilHalf_of_nonneg {n : Int} (h : 0 ≤ n) (product : Nat) :
    ceilHalf (n < 0) product = ((product + 1) / 2 : Nat) := by
  rw [decide_eq_false (Int.not_lt.mpr h), ceilHalf, if_neg Bool.false_ne_true]

theorem oneAndAHalf_mono {n m k l : Int} (h : n ≤ m) (hn : oneAndAHalf n = .ok k)
    (hm : oneAndAHalf m = .ok l) : k ≤ l := by
  obtain ⟨-, rfl⟩ := oneAndAHalf_eq_ok_iff.mp hn
  obtain ⟨-, rfl⟩ := oneAndAHalf_eq_ok_iff.mp hm
  by_cases hneg : n < 0
  · rw [ceilHalf_of_neg hneg]
    by_cases hneg' : m < 0
    · have htriple : triple m.natAbs ≤ triple n.natAbs := triple_mono (by omega)
      rw [ceilHalf_of_neg hneg']
      omega
    · rw [ceilHalf_of_nonneg (Int.not_lt.mp hneg')]
      omega
  · have htriple : triple n.natAbs ≤ triple m.natAbs := triple_mono (by omega)
    rw [ceilHalf_of_nonneg (Int.not_lt.mp hneg), ceilHalf_of_nonneg (by omega)]
    omega

theorem le_oneAndAHalf {n k : Int} (hnonneg : 0 ≤ n) (h : oneAndAHalf n = .ok k) : n ≤ k := by
  obtain ⟨-, rfl⟩ := oneAndAHalf_eq_ok_iff.mp h
  have hbound := (triple_bounds n.natAbs).1
  rw [ceilHalf_of_nonneg hnonneg]
  omega

/-- Half as much again of a negative number is less than the number, unless it is minus one, whose
half is rounded away. -/
theorem oneAndAHalf_lt {n k : Int} (hneg : n ≤ -2) (h : oneAndAHalf n = .ok k) : k < n := by
  obtain ⟨-, rfl⟩ := oneAndAHalf_eq_ok_iff.mp h
  have hbound := (triple_bounds n.natAbs).2 (by omega)
  rw [ceilHalf_of_neg (by omega)]
  omega

end Aventuria.Rounding
