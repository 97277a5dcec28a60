import Aventuria.Text.Blank
import Aventuria.Text.Decimal

/-!
Reading integers. A typed argument may be surrounded by blanks, carry a sign and group its
decimal digits with single underscores. The information separators, blank as they are, do not
surround numbers.
-/

set_option autoImplicit false
set_option relaxedAutoImplicit false

namespace Aventuria.Text

/-- The digits of a number whose digits may be grouped by single underscores. -/
def ungrouped? : List Char → Option (List Char)
  | [] => none
  | [c] => if isDecimal c then some [c] else none
  | c :: '_' :: rest => if isDecimal c then (ungrouped? rest).map (c :: ·) else none
  | c :: rest => if isDecimal c then (ungrouped? rest).map (c :: ·) else none

def natural? (text : List Char) : Option Nat :=
  (ungrouped? text).map value

def isSeparator (c : Char) : Bool :=
  28 ≤ c.toNat && c.toNat ≤ 31

def integer? (text : List Char) : Option Int :=
  if text.any isSeparator then none
  else
    match trim text with
    | '-' :: digits => (natural? digits).map fun n ↦ -(n : Int)
    | '+' :: digits => (natural? digits).map Int.ofNat
    | digits => (natural? digits).map Int.ofNat

/-- A number with its sign, also when it is positive or zero. -/
def signed (n : Int) : String :=
  if n < 0 then toString n else "+" ++ toString n

end Aventuria.Text
