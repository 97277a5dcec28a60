import Aventuria.Calendar.DateText
import Aventuria.Dice.Roll
import Aventuria.Duration.Unit

/-!
Shelf lives such as "3 Monde", "etwa W3+1 Monate" or "unbegrenzt": an amount of a unit, where the
amount may be an idiom, a number or dice, or no limit at all. A date and a shelf life give the
date of expiry in the form in which the date was given; what cannot be understood leaves the date
as it is.
-/

set_option autoImplicit false
set_option relaxedAutoImplicit false

namespace Aventuria.Duration

open Calendar (DatedText Moment)
open Dice (Throw)

inductive Amount where
  | fixed (n : Nat)
  | rolled (spec : Dice.Spec)
  deriving DecidableEq, Repr

inductive ShelfLife where
  | unlimited
  | limited (amount : Amount) (unitDays : Nat)
  deriving DecidableEq, Repr

/-- A shelf life whose dice are thrown. -/
inductive Span where
  | unlimited
  | days (count : Nat)
  deriving DecidableEq, Repr

/-- "Some" are three and "several" are five. -/
def idioms : List (String × Nat) :=
  [("einige", 3), ("mehrere", 5)]

def approximations : List String :=
  ["etwa", "ca.", "ungefähr"]

/-- The amount that a word in small letters names. Digits that are not decimal are a fault. -/
def Amount.ofWord (word : List Char) : Except Fault (Option Amount) :=
  match idioms.lookup (String.ofList word) with
  | some n => .ok (some (.fixed n))
  | none =>
    if Text.allDigits word then do
      let n ← numberOfDigits word
      .ok (some (.fixed n))
    else .ok ((Dice.Spec.ofChars? word).map .rolled)

/-- The number that an amount comes to, its dice thrown now. -/
def Amount.resolve : Amount → Throw Int
  | fixed n => pure n
  | rolled spec => do
    let roll ← spec.roll ""
    pure roll.total

namespace ShelfLife

/-- Whether a text in small letters says that there is no limit. -/
def isUnlimited (text : List Char) : Bool :=
  Text.contains "unbegrenzt".toList text || text == "ewig".toList || text == "unendlich".toList

/-- The words of a shelf life without the word for an approximation in front. -/
def exactWords : List (List Char) → List (List Char)
  | [] => []
  | word :: words =>
    if approximations.contains (String.ofList word) then words else word :: words

def ofWords : List (List Char) → Except Fault (Option ShelfLife)
  | [amount, unit] =>
    match wordDays? unit with
    | some days => (Amount.ofWord amount).map fun amount? ↦ amount?.map (limited · days)
    | none => .ok none
  | _ => .ok none

def ofChars (text : List Char) : Except Fault (Option ShelfLife) :=
  let text := Text.lowerAll (Text.trim text)
  if isUnlimited text then .ok (some unlimited)
  else ofWords (exactWords (Text.words text))

def ofText (text : String) : Except Fault (Option ShelfLife) :=
  ofChars text.toList

/-- Throws the dice of a shelf life; a negative amount counts as none. -/
def resolve : ShelfLife → Throw Span
  | unlimited => pure .unlimited
  | limited amount days => do
    let n ← amount.resolve
    pure (.days (n.toNat * days))

end ShelfLife

def resolve? (text : String) : Throw (Option Span) := do
  match ← Throw.ofExcept (ShelfLife.ofText text) with
  | some shelfLife => some <$> shelfLife.resolve
  | none => pure none

/-- What stands for the date on which something of unlimited shelf life expires. -/
def unlimitedDate : String := "Unbegrenzt"

/-- The date of expiry of something with the given shelf life. -/
def expiry (current : Moment) (shelfLife : String) : Throw Moment :=
  match current with
  | .date date => do
    match ← resolve? shelfLife with
    | some (.days n) => pure (.date (date.addDays n))
    | some .unlimited => pure (.text unlimitedDate)
    | none => pure current
  | .text text =>
    match DatedText.ofText? text with
    | some ⟨date, era⟩ => do
      match ← resolve? shelfLife with
      | some (.days n) => pure (.text (DatedText.format ⟨date.addDays n, era⟩))
      | some .unlimited => pure (.text unlimitedDate)
      | none => pure current
    | none => pure current
  | .missing => pure .missing

end Aventuria.Duration
