import Aventuria.Check
import Aventuria.Duration.ShelfLife
import Aventuria.Text.Integer
import Aventuria.Text.Lookup

/-!
Magic signs. A sign is activated by a check against the ritual rating, eased by the sign. It then
works for days according to the rating, for a month, for a quarter, or until the next winter
solstice; two twenties spoil it. One sign lowers the weight of an object.
-/

set_option autoImplicit false
set_option relaxedAutoImplicit false

namespace Aventuria.MagicSign

open Calendar (DatedText Moment)
open Dice (Throw)

inductive Lasting where
  | halfRatingDays | oneMonth | oneQuarter | untilWinterSolstice
  deriving DecidableEq, Repr

namespace Lasting

def all : List Lasting := [halfRatingDays, oneMonth, oneQuarter, untilWinterSolstice]

def key : Lasting → String
  | halfRatingDays => "HALF_RATING_DAYS"
  | oneMonth => "ONE_MONTH"
  | oneQuarter => "ONE_QUARTER"
  | untilWinterSolstice => "UNTIL_WINTER_SOLSTICE"

def name : Lasting → String
  | halfRatingDays => "RkW/2 Tage"
  | oneMonth => "1 Monat"
  | oneQuarter => "1 Quartal"
  | untilWinterSolstice => "Bis Wintersonnenwende"

/-- The time that a sign works where it is the same for every rating and date. -/
def fixedTime? : Lasting → Option String
  | halfRatingDays => none
  | oneMonth => some "30 Tage"
  | oneQuarter => some "90 Tage"
  | untilWinterSolstice => none

def ofName (name : String) : Except Fault Lasting :=
  match Text.lookupName? all (fun lasting ↦ [lasting.key, lasting.name]) name with
  | some lasting => .ok lasting
  | none => .error (.unknownSign name)

end Lasting

/-- Half the rating, rounded up; a negative rating counts as none. -/
def halfRating (rating : Int) : Int :=
  (max 0 rating + 1) / 2

def nextSolstice : Moment → Moment
  | .date date => .date date.nextWinterSolstice
  | .text text =>
    match DatedText.ofText? text with
    | some ⟨date, era⟩ => .text (DatedText.format ⟨date.nextWinterSolstice, era⟩)
    | none => .text text
  | .missing => .missing

/-- The moment at which a sign stops working, in the form in which the date is given. -/
def expiry (lasting : Lasting) (rating : Int) (current : Moment) : Throw Moment :=
  match lasting.fixedTime? with
  | some time => Duration.expiry current time
  | none =>
    if lasting = .halfRatingDays then Duration.expiry current s!"{halfRating rating} Tage"
    else pure (nextSolstice current)

/-- The weight of an object under the sign that lightens it, by two stone for each point. What
has a weight keeps at least one stone. -/
def lightenedWeight (points weight : Int) : Int :=
  if weight ≤ 0 then 0 else max 1 (weight - 2 * max 0 points)

def pointsName : String := "RkP*"

structure Activation where
  check : Check.Outcome
  lasting : Lasting
  ease : Int
  expiry : Option Moment
  deriving DecidableEq, Repr

namespace Activation

def describe (activation : Activation) : String :=
  let ease :=
    if activation.ease = 0 then "" else " " ++ Text.signed activation.ease ++ " Erleichterung"
  let lines :=
    ["Zauberzeichen-Aktivierung (KL/IN/FF)",
      s!"RkW: {activation.check.effectiveRating}" ++ ease,
      activation.check.describe pointsName]
  let ending :=
    if activation.check.isBotched then ["Patzer - Zeichen verdorben!"]
    else activation.expiry.toList.map ("Wirkt bis: " ++ ·.describe)
  "\n".intercalate (lines ++ ending)

end Activation

def activate (rating cleverness intuition dexterity ease : Int) (lasting : Lasting)
    (current : Moment) (givenRolls : Option (List Int)) : Throw Activation := do
  let check ← Check.resolve rating (-ease) [cleverness, intuition, dexterity] 0 givenRolls
  if check.success && current ≠ .missing then
    let ends ← expiry lasting rating current
    pure { check, lasting, ease, expiry := some ends }
  else pure { check, lasting, ease, expiry := none }

end Aventuria.MagicSign
