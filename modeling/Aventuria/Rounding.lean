import Aventuria.Fault

/-!
One and a half times a number, rounded up. The product is formed with 53 significant binary
digits: the number and the product are both rounded to that precision, a tie going to the even
neighbour, and only then the product is rounded up. The result is exact as long as three times
the number needs no more than 53 digits; numbers of more than 1024 digits are refused.
-/

set_option autoImplicit false
set_option relaxedAutoImplicit false

namespace Aventuria.Rounding

def precision : Nat := 53

/-- The lowest binary digits of a number that do not fit the precision. -/
def excessDigits (n : Nat) : Nat :=
  n.log2 + 1 - precision

/-- The quotient rounded to the nearest number, a tie to the even one. -/
def nearestQuotient (n divisor : Nat) : Nat :=
  let quotient := n / divisor
  let remainder := n % divisor
  if divisor < 2 * remainder ∨ (2 * remainder = divisor ∧ quotient % 2 = 1) then quotient + 1
  else quotient

/-- The nearest number with at most 53 significant binary digits. -/
def nearest (n : Nat) : Nat :=
  nearestQuotient n (Nat.pow 2 (excessDigits n)) * Nat.pow 2 (excessDigits n)

def limit : Nat := Nat.pow 2 1024

/-- Half of a number, rounded up; of a negative one, half its size rounded down. -/
def ceilHalf (negative : Bool) (n : Nat) : Int :=
  if negative then -((n / 2 : Nat) : Int) else ((n + 1) / 2 : Nat)

def oneAndAHalf (n : Int) : Except Fault Int :=
  let operand := nearest n.natAbs
  let product := nearest (3 * operand)
  if limit ≤ operand then .error .tooLargeToRound
  else if 2 * limit ≤ product then .error .roundedToInfinity
  else .ok (ceilHalf (n < 0) product)

end Aventuria.Rounding
