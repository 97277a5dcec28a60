import Aventuria.Text.Blank
import Aventuria.Text.Letter

/-!
The units of durations and their lengths in days, whatever the case of the word.
-/

set_option autoImplicit false
set_option relaxedAutoImplicit false

namespace Aventuria.Duration

def unitWords : List (String × Nat) :=
  [("tag", 1), ("tage", 1), ("tagen", 1), ("woche", 7), ("wochen", 7),
    ("mond", 30), ("monde", 30), ("monden", 30), ("monat", 30), ("monate", 30), ("monaten", 30),
    ("jahr", 365), ("jahre", 365), ("jahren", 365)]

/-- The days of the unit that a word names, blanks around it allowed. -/
def wordDays? (word : List Char) : Option Nat :=
  unitWords.lookup (String.ofList (Text.lowerAll (Text.trim word)))

def unitDays? (unit : String) : Option Nat :=
  wordDays? unit.toList

end Aventuria.Duration
