import Aventuria.Dice.Throw
import Aventuria.Sum

/-!
Checks. A check throws three dice of twenty faces, one against each of three attributes. The
rating less the difficulty is a budget from which every point above an attribute is paid; what
remains are the extra points, and the check succeeds when they are not negative. Two or three
ones force success with the whole budget, two or three twenties force failure.
-/

set_option autoImplicit false
set_option relaxedAutoImplicit false

namespace Aventuria

open Dice (Throw)

inductive Critical where
  | ordinary | doubleOne | tripleOne | doubleTwenty | tripleTwenty
  deriving DecidableEq, Repr

namespace Critical

def key : Critical → String
  | ordinary => "none"
  | doubleOne => "double_one"
  | tripleOne => "triple_one"
  | doubleTwenty => "double_twenty"
  | tripleTwenty => "triple_twenty"

/-- The remark that a summary of the check ends with. -/
def remark : Critical → String
  | ordinary => ""
  | doubleOne => " - Doppel-1!"
  | tripleOne => " - Dreifach-1!"
  | doubleTwenty => " - Doppel-20!"
  | tripleTwenty => " - Dreifach-20!"

def forcesSuccess (critical : Critical) : Bool :=
  critical = doubleOne || critical = tripleOne

def forcesFailure (critical : Critical) : Bool :=
  critical = doubleTwenty || critical = tripleTwenty

/-- Ones count before twenties. -/
def ofRolls (rolls : List Int) : Critical :=
  if rolls.count 1 = 3 then tripleOne
  else if rolls.count 1 = 2 then doubleOne
  else if rolls.count 20 = 3 then tripleTwenty
  else if rolls.count 20 = 2 then doubleTwenty
  else ordinary

end Critical

namespace Check

def dieSides : Int := 20

def diceCount : Nat := 3

structure Outcome where
  success : Bool
  rolls : List Int
  extraPoints : Int
  isDoubleOne : Bool
  isTripleOne : Bool
  isDoubleTwenty : Bool
  isTripleTwenty : Bool
  effectiveRating : Int
  difficulty : Int
  deriving DecidableEq, Repr

namespace Outcome

/-- The kind of the rolls as far as their flags tell it. -/
def critical (outcome : Outcome) : Critical :=
  if outcome.isTripleOne then .tripleOne
  else if outcome.isDoubleOne then .doubleOne
  else if outcome.isTripleTwenty then .tripleTwenty
  else if outcome.isDoubleTwenty then .doubleTwenty
  else .ordinary

/-- The dice spoil whatever was attempted. -/
def isBotched (outcome : Outcome) : Bool :=
  outcome.isDoubleTwenty || outcome.isTripleTwenty

def describe (outcome : Outcome) (pointsName : String) : String :=
  let verdict := if outcome.success then "Erfolg" else "Misserfolg"
  let rolls := "/".intercalate (outcome.rolls.map toString)
  s!"{verdict} ({rolls}), {pointsName} {outcome.extraPoints}{outcome.critical.remark}"

end Outcome

/-- The usual name of the extra points. -/
def spellPoints : String := "ZfP*"

def talentPoints : String := "TaP*"

/-- The rating after points were exchanged for two points of rating each. The exchange at most
doubles the rating; for a negative rating the double bounds from below. -/
def boostedRating (base exchanged : Int) : Int :=
  if 0 ≤ base then min (base + 2 * exchanged) (2 * base)
  else max (base + 2 * exchanged) (2 * base)

def effectiveRating (base exchanged : Int) : Except Fault Int :=
  if exchanged < 0 then .error (.negativeExchange exchanged)
  else .ok (boostedRating base exchanged)

/-- The points by which the rolls exceed their attributes. -/
def overflow (rolls attributes : List Int) : Int :=
  sum (List.zipWith (fun roll ability ↦ max 0 (roll - ability)) rolls attributes)

/-- The outcome of a check whose dice have been thrown. -/
def judge (skill difficulty : Int) (attributes rolls : List Int) : Outcome :=
  let critical := Critical.ofRolls rolls
  let budget := max 0 (skill - difficulty)
  let extra :=
    if critical.forcesSuccess then budget
    else if critical.forcesFailure then 0
    else budget - overflow rolls attributes
  { success := critical.forcesSuccess || (!critical.forcesFailure && 0 ≤ extra)
    rolls
    extraPoints := extra
    isDoubleOne := critical = .doubleOne
    isTripleOne := critical = .tripleOne
    isDoubleTwenty := critical = .doubleTwenty
    isTripleTwenty := critical = .tripleTwenty
    effectiveRating := skill
    difficulty }

def validRoll (roll : Int) : Bool :=
  1 ≤ roll && roll ≤ dieSides

/-- Rolls must be three, each within the faces of the die. -/
def validateRolls (rolls : List Int) : Except Fault Unit :=
  if rolls.length ≠ diceCount then .error (.rollCount rolls.length)
  else
    match rolls.find? (!validRoll ·) with
    | some roll => .error (.rollOutOfRange roll)
    | none => .ok ()

def validateAttributes (attributes : List Int) : Except Fault Unit :=
  if attributes.length ≠ diceCount then .error (.attributeCount attributes.length) else .ok ()

/-- The rating with which a check is made, once its attributes and the exchange are accepted. -/
def prepare (rating : Int) (attributes : List Int) (exchanged : Int) : Except Fault Int := do
  validateAttributes attributes
  effectiveRating rating exchanged

/-- Makes a check, with the given rolls or by throwing the dice. -/
def resolve (rating difficulty : Int) (attributes : List Int) (exchanged : Int)
    (givenRolls : Option (List Int)) : Throw Outcome := do
  let skill ← Throw.ofExcept (prepare rating attributes exchanged)
  let rolls ←
    match givenRolls with
    | some rolls => pure rolls
    | none => Throw.dice dieSides diceCount
  Throw.ofExcept (validateRolls rolls)
  pure (judge skill difficulty attributes rolls)

/-- A check of a single attribute, made with one die. -/
structure AttributeOutcome where
  roll : Int
  ability : Int
  difficulty : Int
  deriving DecidableEq, Repr

namespace AttributeOutcome

def success (outcome : AttributeOutcome) : Bool :=
  outcome.roll + outcome.difficulty ≤ outcome.ability

/-- The points to spare, negative when the check fails. -/
def margin (outcome : AttributeOutcome) : Int :=
  outcome.ability - outcome.difficulty - outcome.roll

end AttributeOutcome

def resolveAttribute (ability difficulty : Int) : Throw AttributeOutcome := do
  let roll ← Throw.die dieSides
  pure { roll, ability, difficulty }

end Check

end Aventuria
