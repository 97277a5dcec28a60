import Aventuria.Proofs.Text.Character
import Aventuria.Proofs.Text.Trim

/-!
# Numerals

The decimal numeral of a number is a run of plain digits (`isDigit_of_mem_numeral`) that stands for
that number (`decimal?_numeral`).
-/

set_option autoImplicit false
set_option relaxedAutoImplicit false

namespace Aventuria.Text

/-- The characters in which a number is written. -/
abbrev numeral (n : Nat) : List Char := (toString n).toList

theorem numeral_eq_toDigits (n : Nat) : numeral n = Nat.toDigits 10 n := by
  rw [numeral, Nat.toString_eq_ofList_toDigits, String.toList_ofList]

theorem numeral_ne_nil (n : Nat) : numeral n ≠ [] := by
  rw [numeral_eq_toDigits]
  exact Nat.toDigits_ne_nil

theorem isDigit_of_mem_numeral {n : Nat} {c : Char} (h : c ∈ numeral n) : c.isDigit = true := by
  rw [numeral_eq_toDigits] at h
  exact Nat.isDigit_of_mem_toDigits (by decide) (by decide) h

theorem toNat_lt_of_isDigit {c : Char} (h : c.isDigit = true) : c.toNat < 128 := by
  have hnine : c.toNat ≤ '9'.toNat := by
    simp only [Char.isDigit, Bool.and_eq_true, decide_eq_true_eq] at h
    exact h.2
  exact Nat.lt_of_le_of_lt hnine (by decide)

theorem digitValue?_of_isDigit {c : Char} (h : c.isDigit = true) :
    digitValue? c = some (c.toNat - '0'.toNat) := by
  exact of_ascii
    (p := fun c ↦ c.isDigit = true → digitValue? c = some (c.toNat - '0'.toNat))
    (by decide) (toNat_lt_of_isDigit h) h

theorem isDecimal_of_isDigit {c : Char} (h : c.isDigit = true) : isDecimal c = true := by
  rw [isDecimal, digitValue?_of_isDigit h]
  rfl

theorem isDecimal_of_mem_numeral {n : Nat} {c : Char} (h : c ∈ numeral n) : isDecimal c = true :=
  isDecimal_of_isDigit (isDigit_of_mem_numeral h)

theorem solid_numeral (n : Nat) : Solid (numeral n) :=
  fun _ hc ↦ not_isBlank_of_isDecimal (isDecimal_of_mem_numeral hc)

theorem value_of_isDigit {digits : List Char} (h : ∀ c ∈ digits, c.isDigit = true) :
    value digits = Nat.ofDigitChars 10 digits 0 := by
  have hstep : ∀ n, digits.foldl (fun n c ↦ 10 * n + (digitValue? c).getD 0) n =
      Nat.ofDigitChars 10 digits n := by
    induction digits with
    | nil => exact fun n ↦ rfl
    | cons c digits ih =>
      rw [List.forall_mem_cons] at h
      intro n
      rw [List.foldl_cons, digitValue?_of_isDigit h.1, ih h.2]
      rfl
  exact hstep 0

theorem value_numeral (n : Nat) : value (numeral n) = n := by
  rw [value_of_isDigit fun _ ↦ isDigit_of_mem_numeral, numeral_eq_toDigits,
    Nat.ofDigitChars_ten_toDigits]

theorem decimal?_numeral (n : Nat) : decimal? (numeral n) = some n :=
  decimal?_eq_some_iff.mpr
    ⟨⟨numeral_ne_nil n, fun _ ↦ isDecimal_of_mem_numeral⟩, value_numeral n⟩

/-- A negative number is written as a minus and the numeral of its amount. -/
theorem toList_toString_negSucc (n : Nat) :
    (toString (Int.negSucc n)).toList = '-' :: numeral (n + 1) := by
  show ("-" ++ toString (n + 1)).toList = _
  rw [String.toList_append]
  rfl

end Aventuria.Text
