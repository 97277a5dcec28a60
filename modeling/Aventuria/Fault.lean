import Aventuria.Calendar.Month
import Aventuria.Text.Decimal
import Aventuria.Text.Quoted

/-!
What can be wrong with a request. Every fault names its cause and carries the offending values;
its wording stands in one place.
-/

set_option autoImplicit false
set_option relaxedAutoImplicit false

namespace Aventuria

open Calendar (Month)

/-- The sorts of values that meet where they do not fit together. -/
inductive ValueSort where
  | date | text | missing | number | empty
  deriving DecidableEq, Repr

namespace ValueSort

def name : ValueSort → String
  | date => "DerianDate"
  | text => "str"
  | missing => "NoneType"
  | number => "int"
  | empty => "list"

end ValueSort

inductive Fault where
  | notDice (text : Option String)
  | tooFewDice (count : Int)
  | tooManyDice (count : Int)
  | dieTooSmall (sides : Int)
  | diceExhausted
  | unreadable (position : Nat) (rest : String)
  | unexpectedToken (token : String)
  | formulaEnded
  | unclosedParenthesis
  | divisionByZero
  | notANumber (digits : String)
  | invalidDay (day : Int) (month : Month)
  | unknownMonth (name : String)
  | incomparable (sign : String) (left right : ValueSort)
  | inoperable (sign : String) (left right : ValueSort)
  | notNegatable (operand : ValueSort)
  | notJoinable (left right : ValueSort)
  | notRepeatable (count : ValueSort)
  | notCountable (count : ValueSort)
  | tooManyRepetitions
  | emptySeed
  | invalidCurrentDate (text : Option String)
  | emptyCurrentDate
  | unknownComparator (symbol : String)
  | unknownTradition (name : String)
  | emptyTradition
  | unknownStorage (name : String)
  | unknownSign (name : String)
  | attributeCount (count : Nat)
  | rollCount (count : Nat)
  | rollOutOfRange (roll : Int)
  | negativeExchange (points : Int)
  | negativeBaseCost (cost : Int)
  | traitsOutOfRange (traits : Int)
  | successWithoutPoints (points : Int)
  | savingOutOfRange (percent : Int)
  | handicapTooSmall (handicap : Int)
  | handicapTooLarge (most handicap : Int)
  | negativeMastery (points : Int)
  | masteryTooLarge (most rating points : Int)
  | negativeCharging (points : Int)
  | astralEnergyLacking (need available : Int)
  | stepsOutOfRange (steps : Int)
  | qualityOutOfRange
  | tooLargeToRound
  | roundedToInfinity
  deriving DecidableEq, Repr

namespace Fault

/-- A text in quotes, or the word for a text that is missing. -/
def quotedOrNone : Option String → String
  | some text => Text.quoted text
  | none => "None"

/-- The characters that a message shows of a run of digits that is no number. -/
def longestNumber : Nat := 200

def message : Fault → String
  | notDice text => "not a dice expression: " ++ quotedOrNone text
  | tooFewDice count => s!"Dice count must be at least 1, got {count}"
  | tooManyDice count => s!"Dice count must be at most 100, got {count}"
  | dieTooSmall sides => s!"Die size must be at least 2, got {sides}"
  | diceExhausted => "fixed sampler exhausted"
  | unreadable position rest => s!"Unexpected input at {position}: " ++ Text.quoted rest
  | unexpectedToken token => "Unexpected token " ++ Text.quoted token
  | formulaEnded => "Unexpected end of formula"
  | unclosedParenthesis => "Missing closing parenthesis"
  | divisionByZero => "integer division or modulo by zero"
  | notANumber digits =>
    "invalid literal for int() with base 10: " ++ Text.quotedWithin longestNumber digits
  | invalidDay day month => s!"Invalid day {day} for {month.name}"
  | unknownMonth name => Text.quoted name ++ " is not a valid DerianMonth"
  | incomparable sign left right =>
    s!"'{sign}' not supported between instances of '{left.name}' and '{right.name}'"
  | inoperable sign left right =>
    s!"unsupported operand type(s) for {sign}: '{left.name}' and '{right.name}'"
  | notNegatable operand => s!"bad operand type for unary -: '{operand.name}'"
  | notJoinable left right =>
    s!"can only concatenate {left.name} (not \"{right.name}\") to {left.name}"
  | notRepeatable count => s!"can't multiply sequence by non-int of type '{count.name}'"
  | notCountable count => s!"'{count.name}' object cannot be interpreted as an integer"
  | tooManyRepetitions => "cannot fit 'int' into an index-sized integer"
  | emptySeed =>
    "The only supported seed types are: None,\nint, float, str, bytes, and bytearray."
  | invalidCurrentDate text => "Invalid current date: " ++ quotedOrNone text
  | emptyCurrentDate => "Invalid current date: []"
  | unknownComparator symbol => Text.quoted symbol ++ " is not a valid Comparator"
  | unknownTradition name => Text.quoted name ++ " is not a valid CastingTradition"
  | emptyTradition => "[] is not a valid CastingTradition"
  | unknownStorage name => "Unknown Applicatus duration: " ++ Text.quoted name
  | unknownSign name => "Unknown magic sign duration: " ++ Text.quoted name
  | attributeCount count => s!"A check needs exactly 3 attributes, got {count}"
  | rollCount count => s!"A check needs exactly 3 rolls, got {count}"
  | rollOutOfRange roll => s!"Check roll out of range 1-20: {roll}"
  | negativeExchange points => s!"Exchanged points must not be negative, got {points}"
  | negativeBaseCost cost => s!"Base cost must not be negative, got {cost}"
  | traitsOutOfRange traits => s!"Cost-reducing traits must be between 0 and 2, got {traits}"
  | successWithoutPoints points =>
    s!"A successful check cannot have negative extra points ({points})"
  | savingOutOfRange percent => s!"Saving percent must be between 0 and 100, got {percent}"
  | handicapTooSmall handicap =>
    s!"Voluntary handicap must be 0 or at least 2, got {handicap}"
  | handicapTooLarge most handicap =>
    s!"Voluntary handicap must be at most {most}, got {handicap}"
  | negativeMastery points => s!"Mastery points must not be negative, got {points}"
  | masteryTooLarge most rating points =>
    s!"At most {most} mastery points for rating {rating}, got {points}"
  | negativeCharging points => s!"Astral charging must not be negative, got {points}"
  | astralEnergyLacking need available =>
    s!"Not enough astral energy: need {need}, have {available}"
  | stepsOutOfRange steps => s!"Dilution steps must be between 1 and 10, got {steps}"
  | qualityOutOfRange => "list index out of range"
  | tooLargeToRound => "int too large to convert to float"
  | roundedToInfinity => "cannot convert float infinity to integer"

end Fault

/-- The number that a run of digits stands for. Digits that are not decimal are a fault. -/
def numberOfDigits (digits : List Char) : Except Fault Nat :=
  match Text.decimal? digits with
  | some n => .ok n
  | none => .error (.notANumber (String.ofList digits))

section
variable {ε α β : Type}

@[simp] theorem ok_bind (a : α) (next : α → Except ε β) : (Except.ok a >>= next) = next a := rfl

@[simp] theorem error_bind (error : ε) (next : α → Except ε β) :
    (Except.error error >>= next) = .error error := rfl

/-- Two steps succeed together when the first one succeeds and the second one does on its
result. -/
theorem bind_eq_ok_iff {first : Except ε α} {next : α → Except ε β} {b : β} :
    (first >>= next) = .ok b ↔ ∃ a, first = .ok a ∧ next a = .ok b := by
  cases first with
  | error error => simp
  | ok a => simp

/-- A judgement lets the next step go on when it finds nothing wrong. -/
theorem unit_bind_eq_ok_iff {first : Except ε Unit} {next : Unit → Except ε β} {b : β} :
    (first >>= next) = .ok b ↔ first = .ok () ∧ next () = .ok b := by
  rw [bind_eq_ok_iff]
  exact ⟨fun ⟨_, hfirst, hnext⟩ ↦ ⟨hfirst, hnext⟩, fun ⟨hfirst, hnext⟩ ↦ ⟨(), hfirst, hnext⟩⟩

end

end Aventuria
