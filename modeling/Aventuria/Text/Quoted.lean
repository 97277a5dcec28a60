import Aventuria.Text.Printable

/-!
Quoted texts, as messages show them: between single quotes, or between double quotes when the
text holds a single quote and no double one. The backslash and the enclosing quote are escaped;
a character that is not printable is written by its code in two, four or eight hexadecimal
digits.
-/

set_option autoImplicit false
set_option relaxedAutoImplicit false

namespace Aventuria.Text

/-- The lowest `count` hexadecimal digits of a number, the highest first. -/
def hexDigits : Nat → Nat → List Char
  | 0, _ => []
  | count + 1, n => hexDigits count (n / 16) ++ [Nat.digitChar (n % 16)]

def escapedChar (mark c : Char) : List Char :=
  if c = '\\' ∨ c = mark then ['\\', c]
  else if c = '\n' then ['\\', 'n']
  else if c = '\r' then ['\\', 'r']
  else if c = '\t' then ['\\', 't']
  else if isPrintable c then [c]
  else if c.toNat < 0x100 then '\\' :: 'x' :: hexDigits 2 c.toNat
  else if c.toNat < 0x10000 then '\\' :: 'u' :: hexDigits 4 c.toNat
  else '\\' :: 'U' :: hexDigits 8 c.toNat

def quoteMark (text : List Char) : Char :=
  if '\'' ∈ text ∧ '"' ∉ text then '"' else '\''

def quotedChars (text : List Char) : List Char :=
  let mark := quoteMark text
  mark :: text.flatMap (escapedChar mark) ++ [mark]

def quoted (text : String) : String :=
  String.ofList (quotedChars text.toList)

/-- The beginning of a quoted text, quotes and escapes counted. A text that does not fit loses its
closing quote. -/
def quotedWithin (size : Nat) (text : String) : String :=
  String.ofList ((quotedChars text.toList).take size)

end Aventuria.Text
