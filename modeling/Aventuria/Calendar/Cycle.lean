import Aventuria.Calendar.Date

/-!
The two cycles that run through the calendar without regard to months and years: the week of
seven days and the moon Mada, who is new every 28 days.
-/

set_option autoImplicit false
set_option relaxedAutoImplicit false

namespace Aventuria.Calendar

inductive Weekday where
  | windstag | erdstag | markttag | praiostag | rohalstag | feuertag | wassertag
  deriving DecidableEq, Repr

namespace Weekday

def name : Weekday → String
  | windstag => "Windstag"
  | erdstag => "Erdstag"
  | markttag => "Markttag"
  | praiostag => "Praiostag"
  | rohalstag => "Rohalstag"
  | feuertag => "Feuertag"
  | wassertag => "Wassertag"

def next : Weekday → Weekday
  | windstag => erdstag
  | erdstag => markttag
  | markttag => praiostag
  | praiostag => rohalstag
  | rohalstag => feuertag
  | feuertag => wassertag
  | wassertag => windstag

/-- The weekday a number of days after a Windstag. -/
def afterWindstag : Nat → Weekday
  | 0 => windstag
  | n + 1 => (afterWindstag n).next

end Weekday

def Date.weekday (date : Date) : Weekday :=
  Weekday.afterWindstag (date.dayIndex % 7).toNat

inductive MoonPhase where
  | newMoon | waxingCrescent | firstQuarter | waxingMoon
  | fullMoon | waningMoon | lastQuarter | waningCrescent
  deriving DecidableEq, Repr

namespace MoonPhase

def name : MoonPhase → String
  | newMoon => "Neumond"
  | waxingCrescent => "Zunehmende Sichel"
  | firstQuarter => "Erstes Viertel"
  | waxingMoon => "Zunehmender Mond"
  | fullMoon => "Vollmond"
  | waningMoon => "Abnehmender Mond"
  | lastQuarter => "Letztes Viertel"
  | waningCrescent => "Abnehmende Sichel"

def next : MoonPhase → MoonPhase
  | newMoon => waxingCrescent
  | waxingCrescent => firstQuarter
  | firstQuarter => waxingMoon
  | waxingMoon => fullMoon
  | fullMoon => waningMoon
  | waningMoon => lastQuarter
  | lastQuarter => waningCrescent
  | waningCrescent => newMoon

/-- The phase on the given day of the cycle, which begins with the day of the new moon. -/
def ofCycleDay (day : Nat) : MoonPhase :=
  if day = 0 then newMoon
  else if day ≤ 3 then waxingCrescent
  else if day ≤ 6 then firstQuarter
  else if day ≤ 10 then waxingMoon
  else if day ≤ 14 then fullMoon
  else if day ≤ 17 then waningMoon
  else if day ≤ 20 then lastQuarter
  else waningCrescent

end MoonPhase

def Date.moonPhase (date : Date) : MoonPhase :=
  MoonPhase.ofCycleDay ((date.dayIndex + 1) % 28).toNat

end Aventuria.Calendar
