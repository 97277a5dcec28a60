import Aventuria.Text.Blank
import Aventuria.Text.Decimal

/-!
Flags of a command line and the role of each argument. A flag is named in full, by the beginning
of a long name that no other flag shares, or by one letter behind a single dash, where several
letters may be joined. What looks like a negative number or contains a space is no flag.
-/

set_option autoImplicit false
set_option relaxedAutoImplicit false

namespace Aventuria.CommandLine

/-- A flag with its names, dashes included, and the number of values that follow it. -/
structure Flag where
  names : List String
  arity : Nat
  deriving DecidableEq, Repr

/-- What an argument is; a flag may have a text joined to it. -/
inductive Role where
  | operand
  | flag (flag : Flag) (name : List Char) (joined : Option (List Char))
  | unknown
  deriving DecidableEq, Repr

namespace Flag

/-- The names of all flags, each with its flag. -/
def named (flags : List Flag) : List (List Char × Flag) :=
  flags.flatMap fun flag ↦ flag.names.map fun name ↦ (name.toList, flag)

def find? (flags : List Flag) (name : List Char) : Option Flag :=
  (named flags).lookup name

def isLong : List Char → Bool
  | '-' :: '-' :: _ => true
  | _ => false

/-- A text cut at its first equals sign. -/
def cutEquals (text : List Char) : List Char × Option (List Char) :=
  match text.dropWhile (· ≠ '=') with
  | _ :: value => (text.takeWhile (· ≠ '='), some value)
  | [] => (text, none)

/-- The flags that the beginning of a long name may stand for. -/
def longCandidates (flags : List Flag) (text : List Char) : List Role :=
  let (start, joined) := cutEquals text
  (named flags).filterMap fun (name, flag) ↦
    if Text.startsWith start name then some (.flag flag name joined) else none

/-- The flags that a single dash with letters may stand for. -/
def shortCandidates (flags : List Flag) (text : List Char) : List Role :=
  (named flags).filterMap fun (name, flag) ↦
    if name = text.take 2 then some (.flag flag name (some (text.drop 2)))
    else if Text.startsWith text name then some (.flag flag name none)
    else none

def candidates (flags : List Flag) (text : List Char) : List Role :=
  if isLong text then longCandidates flags text else shortCandidates flags text

/-- The flag with exactly this name, or with the name in front of the equals sign. -/
def spelledOut? (flags : List Flag) (text : List Char) : Option Role :=
  match find? flags text with
  | some flag => some (.flag flag text none)
  | none =>
    match cutEquals text with
    | (_, none) => none
    | (name, joined) => (find? flags name).map (.flag · name joined)

end Flag

/-- A dash in front of digits, with or without a decimal point; a line may end behind it. -/
def looksNegative : List Char → Bool
  | '-' :: text =>
    let number := if text.getLast? = some '\n' then text.dropLast else text
    match number.dropWhile Text.isDecimal with
    | [] => !number.isEmpty
    | '.' :: fraction => !fraction.isEmpty && fraction.all Text.isDecimal
    | _ => false
  | _ => false

/-- The role of an argument, unless it may stand for more than one flag. -/
def role? (flags : List Flag) (text : List Char) : Option Role :=
  if text.head? ≠ some '-' ∨ text.length = 1 then some .operand
  else
    match Flag.spelledOut? flags text with
    | some role => some role
    | none =>
      match Flag.candidates flags text with
      | [role] => some role
      | _ :: _ :: _ => none
      | [] =>
        if looksNegative text || text.contains ' ' then some .operand else some .unknown

end Aventuria.CommandLine
