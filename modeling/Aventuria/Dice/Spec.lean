import Aventuria.Fault
import Aventuria.Text.Blank
import Aventuria.Text.Decimal

/-!
Dice expressions such as 2W6+5: a number of dice of one size and a modifier. At most a hundred
dice are thrown at once and a die has at least two faces; an expression that breaks one of these
rules does not exist. The text as written is kept for display and has no part in what the
expression means.
-/

set_option autoImplicit false
set_option relaxedAutoImplicit false

namespace Aventuria.Dice

def mostDice : Nat := 100

structure Spec where
  count : Nat
  sides : Nat
  modifier : Int
  written : String
  count_pos : 0 < count
  count_le : count ≤ mostDice
  two_le_sides : 2 ≤ sides
  deriving DecidableEq, Repr

namespace Spec

/-- The expression with these numbers, unless one of them is out of bounds. The number of dice
is judged before their size. -/
def build (count sides modifier : Int) (written : String) : Except Fault Spec :=
  if few : count < 1 then .error (.tooFewDice count)
  else if many : count > mostDice then .error (.tooManyDice count)
  else if small : sides < 2 then .error (.dieTooSmall sides)
  else
    .ok
      { count := count.toNat, sides := sides.toNat, modifier, written
        count_pos := by omega
        count_le := by omega
        two_le_sides := by omega }

/-- So many dice of six faces. -/
def sixSided (count : Nat) (modifier : Int) (written : String) (count_pos : 0 < count)
    (count_le : count ≤ mostDice) : Spec :=
  { count, sides := 6, modifier, written, count_pos, count_le, two_le_sides := by decide }

/-- Two dice of six faces. -/
def pair : Spec :=
  sixSided 2 0 "2W6" (by decide) (by decide)

def minimum (spec : Spec) : Int :=
  spec.count + spec.modifier

def maximum (spec : Spec) : Int :=
  spec.count * spec.sides + spec.modifier

/-- The expression with its number of dice written out and no blanks. -/
def canonical (spec : Spec) : String :=
  let dice := s!"{spec.count}W{spec.sides}"
  if spec.modifier > 0 then dice ++ s!"+{spec.modifier}"
  else if spec.modifier < 0 then dice ++ toString spec.modifier
  else dice

def label (spec : Spec) : String :=
  if spec.written = "" then spec.canonical else spec.written

instance : ToString Spec := ⟨label⟩

/-- Two expressions are equivalent when they throw the same dice with the same modifier. -/
def equiv (a b : Spec) : Bool :=
  a.count = b.count && a.sides = b.sides && a.modifier = b.modifier

/-- What follows the dice of an expression: nothing, or a sign and digits. -/
def readModifier? : List Char → Option Int
  | [] => some 0
  | '+' :: digits => (Text.decimal? digits).map Int.ofNat
  | '-' :: digits => (Text.decimal? digits).map fun n ↦ -(n : Int)
  | _ => none

/-- The numbers of a text of the form [digits] W digits [sign digits]; a missing count is one. -/
def readNumbers? (text : List Char) : Option (Nat × Nat × Int) :=
  let count := text.takeWhile Text.isDecimal
  match text.dropWhile Text.isDecimal with
  | mark :: rest =>
    if mark = 'W' ∨ mark = 'w' then do
      let sides ← Text.decimal? (rest.takeWhile Text.isDecimal)
      let modifier ← readModifier? (rest.dropWhile Text.isDecimal)
      some (if count.isEmpty then 1 else Text.value count, sides, modifier)
    else none
  | [] => none

def ofChars (text : List Char) : Except Fault Spec :=
  let trimmed := Text.trim text
  match readNumbers? trimmed with
  | some (count, sides, modifier) => build count sides modifier (String.ofList trimmed)
  | none => .error (.notDice (String.ofList text))

/-- Reads a dice expression, blanks around it allowed. -/
def ofText (text : String) : Except Fault Spec :=
  ofChars text.toList

def ofText? (text : String) : Option Spec :=
  (ofText text).toOption

def ofChars? (text : List Char) : Option Spec :=
  (ofChars text).toOption

/-- Reads a dice expression that may be missing. -/
def ofOptionalText : Option String → Except Fault Spec
  | some text => ofText text
  | none => .error (.notDice none)

end Spec

end Aventuria.Dice
