import Aventuria.Dice.Spec
import Aventuria.Dice.Throw
import Aventuria.Sum

/-!
Rolls: the values that the dice of an expression showed, with the modifier and the reason of the
throw.
-/

set_option autoImplicit false
set_option relaxedAutoImplicit false

namespace Aventuria.Dice

structure Roll where
  label : String
  values : List Int
  modifier : Int
  reason : String
  deriving DecidableEq, Repr

namespace Roll

def total (roll : Roll) : Int :=
  sum roll.values + roll.modifier

/-- The values between brackets. -/
def showValues (values : List Int) : String :=
  "[" ++ ", ".intercalate (values.map toString) ++ "]"

def describe (roll : Roll) : String :=
  let modifier :=
    if roll.modifier > 0 then s!" + {roll.modifier}"
    else if roll.modifier < 0 then s!" - {-roll.modifier}"
    else ""
  s!"{roll.label}: " ++ showValues roll.values ++ modifier ++ s!" = {roll.total}"

end Roll

/-- Throws the dice of an expression. -/
def Spec.roll (spec : Spec) (reason : String) : Throw Roll := do
  let values ← Throw.dice spec.sides spec.count
  pure { label := spec.label, values, modifier := spec.modifier, reason }

/-- Throws the dice of some expressions in turn, whatever they show. -/
def Spec.throwAll : List Spec → Throw Unit
  | [] => pure ()
  | spec :: specs => do
    let _ ← spec.roll ""
    throwAll specs

/-- Rolls a text if it is a dice expression. -/
def roll? (text : String) (reason : String) : Throw (Option Roll) :=
  match Spec.ofText? text with
  | some spec => some <$> spec.roll reason
  | none => pure none

/-- The total of a text if it is a dice expression. -/
def total? (text : String) : Throw (Option Int) := do
  let roll ← roll? text ""
  pure (roll.map Roll.total)

end Aventuria.Dice
