import Aventuria.Fault

/-!
Cost formulas as trees. A formula combines whole numbers and the points left over from a check by
the four basic operations and a sign. Division rounds up, whatever the signs of its operands, and
division by zero is a fault.
-/

set_option autoImplicit false
set_option relaxedAutoImplicit false

namespace Aventuria

inductive Operator where
  | add | subtract | multiply | divide
  deriving DecidableEq, Repr

def Operator.symbol : Operator → String
  | .add => "+"
  | .subtract => "-"
  | .multiply => "*"
  | .divide => "/"

inductive Formula where
  | number (n : Nat)
  | points
  | negate (operand : Formula)
  | binary (operator : Operator) (left right : Formula)
  deriving DecidableEq, Repr

/-- The quotient rounded up. -/
def ceilDiv (numerator denominator : Int) : Except Fault Int :=
  if denominator = 0 then .error .divisionByZero
  else .ok (-((-numerator).fdiv denominator))

def Operator.apply (left right : Int) : Operator → Except Fault Int
  | .add => .ok (left + right)
  | .subtract => .ok (left - right)
  | .multiply => .ok (left * right)
  | .divide => ceilDiv left right

namespace Formula

def value (points : Int) : Formula → Except Fault Int
  | number n => .ok n
  | .points => .ok points
  | negate operand => do
    let v ← operand.value points
    .ok (-v)
  | binary operator left right => do
    let l ← left.value points
    let r ← right.value points
    operator.apply l r

/-- The value of a formula; a formula that divides by zero has none. -/
def definedValue (points : Int) (formula : Formula) : Except Fault (Option Int) :=
  match formula.value points with
  | .ok v => .ok (some v)
  | .error .divisionByZero => .ok none
  | .error fault => .error fault

end Formula

end Aventuria
