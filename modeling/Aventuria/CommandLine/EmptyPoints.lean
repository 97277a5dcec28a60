import Aventuria.CommandLine.Entry
import Aventuria.Formula.Tree
import Aventuria.Harvest.Segment

/-!
Formulas and harvests whose points are an empty entry. Sums of empty entries and multiples of
them are empty again; whatever else is done with them is a fault.
-/

set_option autoImplicit false
set_option relaxedAutoImplicit false

namespace Aventuria

open CommandLine (Entry)
open Dice (Throw)

namespace CommandLine

/-- So many repetitions of an empty entry; their number must fit into a signed word. -/
def repeatEmpty (times : Int) : Except Fault (Entry Int) :=
  if -0x8000000000000000 ≤ times ∧ times < 0x8000000000000000 then .ok .empty
  else .error .tooManyRepetitions

end CommandLine

def Operator.applyEntries : Operator → Entry Int → Entry Int → Except Fault (Entry Int)
  | operator, .value left, .value right => (operator.apply left right).map .value
  | .add, .empty, .empty => .ok .empty
  | .add, .empty, .value _ => .error (.notJoinable .empty .number)
  | .multiply, .value times, .empty => CommandLine.repeatEmpty times
  | .multiply, .empty, .value times => CommandLine.repeatEmpty times
  | .multiply, .empty, .empty => .error (.notRepeatable .empty)
  | .divide, .empty, _ => .error (.notNegatable .empty)
  | .divide, .value _, .empty => .error (.inoperable "//" .number .empty)
  | operator, left, right => .error (.inoperable operator.symbol left.sort right.sort)

/-- The value of a formula whose points are empty. -/
def Formula.valueWithoutPoints : Formula → Except Fault (Entry Int)
  | number n => .ok (.value n)
  | .points => .ok .empty
  | negate operand => do
    let entry ← operand.valueWithoutPoints
    let v ← entry.require (.notNegatable .empty)
    .ok (.value (-v))
  | binary operator left right => do
    let l ← left.valueWithoutPoints
    let r ← right.valueWithoutPoints
    operator.applyEntries l r

namespace Harvest

/-- The item of a segment whose condition meets empty points: they equal no number, and they
cannot be compared otherwise. -/
def readSegmentWithoutPoints (rolling : Bool) (segment : List Char) : Throw (Option Item) :=
  match Condition.read? (Text.trim segment) with
  | some (condition, _) => do
    let threshold ← Throw.ofExcept condition.threshold
    if threshold.comparator = .equal then pure none
    else throw (.incomparable threshold.comparator.symbol .empty .number)
  | none => readSegment rolling none segment

/-- The items of all segments, and their dice thrown if so wanted, segment by segment. -/
def readWithoutPoints (rolling : Bool) : List (List Char) → Throw (List Item)
  | [] => pure []
  | segment :: segments => do
    let item ← readSegmentWithoutPoints rolling segment
    let items ← readWithoutPoints rolling segments
    pure (item.toList ++ items)

end Harvest

end Aventuria
