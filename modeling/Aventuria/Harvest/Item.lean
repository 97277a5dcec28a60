import Aventuria.Dice.Roll
import Aventuria.Harvest.Threshold

/-!
The items of a harvest: a quantity of a product, perhaps bound to a condition. The quantity is a
number or dice that have not been thrown yet.
-/

set_option autoImplicit false
set_option relaxedAutoImplicit false

namespace Aventuria.Harvest

inductive Quantity where
  | fixed (n : Int)
  | dice (spec : Dice.Spec)
  deriving DecidableEq, Repr

namespace Quantity

def isDice : Quantity → Bool
  | fixed _ => false
  | dice _ => true

def number? : Quantity → Option Int
  | fixed n => some n
  | dice _ => none

def describe : Quantity → String
  | fixed n => toString n
  | dice spec => spec.label

end Quantity

structure Item where
  product : String
  quantity : Quantity
  threshold : Option Threshold
  rolled : Bool
  diceLabel : Option String
  individualRolls : List Int
  deriving DecidableEq, Repr

namespace Item

/-- An item as a description gives it, before any dice are thrown. -/
def plain (product : String) (quantity : Quantity) : Item :=
  { product, quantity, threshold := none, rolled := false, diceLabel := none
    individualRolls := [] }

def describe (item : Item) : String :=
  item.quantity.describe ++ " " ++ item.product

/-- The number of points in the condition of an item. -/
def requiredPoints (item : Item) : Option Int :=
  item.threshold.map Threshold.value

/-- An item whose dice have been thrown. Single values are kept for more than one die. -/
def thrown (product : String) (spec : Dice.Spec) (roll : Dice.Roll) : Item :=
  { product
    quantity := .fixed roll.total
    threshold := none
    rolled := true
    diceLabel := some spec.label
    individualRolls := if spec.count > 1 then roll.values else [] }

end Item

end Aventuria.Harvest
