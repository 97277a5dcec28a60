import Aventuria.Calendar.DateText
import Aventuria.Spell.Cost

/-!
The settings of a session. The tradition is judged before the date, and the date must be one.
-/

set_option autoImplicit false
set_option relaxedAutoImplicit false

namespace Aventuria

structure Settings where
  seed : Option Int
  currentDate : String
  tradition : Spell.Tradition
  traits : Int
  verbose : Bool
  deriving DecidableEq, Repr

namespace Settings

def defaultDate : String := "1 Praios 1040 BF"

/-- A text that is a date. -/
def validDate : Option String → Except Fault String
  | some text =>
    match Calendar.Date.ofText? text with
    | some _ => .ok text
    | none => .error (.invalidCurrentDate text)
  | none => .error (.invalidCurrentDate none)

def build (seed : Option Int) (currentDate : Option String) (tradition : String) (traits : Int)
    (verbose : Bool) : Except Fault Settings := do
  let tradition ← Spell.Tradition.ofName tradition
  let currentDate ← validDate currentDate
  .ok { seed, currentDate, tradition, traits, verbose }

end Settings

end Aventuria
