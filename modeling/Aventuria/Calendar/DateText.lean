import Aventuria.Calendar.Date
import Aventuria.Text.Blank
import Aventuria.Text.Decimal

/-!
Dates as texts: day, month, year and era, such as "15 Praios 1040 BF". On reading, the case of
the month is free, a full stop may follow the day, and the era may be missing; an era that is
present is kept as written.
-/

set_option autoImplicit false
set_option relaxedAutoImplicit false

namespace Aventuria.Calendar

def defaultEra : String := "BF"

structure DatedText where
  date : Date
  era : String
  deriving DecidableEq, Repr

namespace DatedText

def format (dated : DatedText) : String :=
  s!"{dated.date.day} {dated.date.month.name} {dated.date.year} {dated.era}"

/-- A day number, a full stop behind it allowed. -/
def readDay? (word : List Char) : Option Nat :=
  match word.dropWhile Text.isDecimal with
  | [] | ['.'] => Text.decimal? (word.takeWhile Text.isDecimal)
  | _ => none

def readYear? : List Char → Option Int
  | '-' :: digits => (Text.decimal? digits).map fun n ↦ -(n : Int)
  | digits => (Text.decimal? digits).map Int.ofNat

/-- The era from the words after the year: none of them, or one made of letters. -/
def readEra? : List (List Char) → Option String
  | [] => some defaultEra
  | [word] => if word.all Text.isLatin then some (String.ofList word) else none
  | _ => none

def assemble? (day : List Char) (month : Month) (year : List Char) (era : List (List Char)) :
    Option DatedText := do
  let day ← readDay? day
  let year ← readYear? year
  let era ← readEra? era
  let date ← Date.build? day month year
  some ⟨date, era⟩

/-- The Nameless Days are the one month whose name has two words. -/
def ofWords? : List (List Char) → Option DatedText
  | day :: first :: second :: rest =>
    match Month.ofChars? first with
    | some month => assemble? day month second rest
    | none =>
      match Month.ofChars? (first ++ ' ' :: second), rest with
      | some month, year :: rest => assemble? day month year rest
      | _, _ => none
  | _ => none

def ofChars? (text : List Char) : Option DatedText :=
  ofWords? (Text.words text)

def ofText? (text : String) : Option DatedText :=
  ofChars? text.toList

end DatedText

namespace Date

def format (date : Date) : String :=
  DatedText.format ⟨date, defaultEra⟩

instance : ToString Date := ⟨format⟩

def ofText? (text : String) : Option Date :=
  (DatedText.ofText? text).map DatedText.date

/-- Whether a day number and a month name make up a date, in whatever year. -/
def isValid (day : Int) (monthName : String) : Bool :=
  match Month.ofName? monthName with
  | some month => validDay day month
  | none => false

/-- Whether the current date lies after the expiry date. Texts that are no dates, the mark of
unlimited shelf life among them, never expire. -/
def isExpired (expiry current : String) : Bool :=
  match ofText? expiry, ofText? current with
  | some expiry, some current => Comparison.after.holds current expiry
  | _, _ => false

end Date

/-- What stands for a point in time: a date, a text that may denote one, or nothing. -/
inductive Moment where
  | date (date : Date)
  | text (text : String)
  | missing
  deriving DecidableEq, Repr

namespace Moment

def sort : Moment → ValueSort
  | date _ => .date
  | text _ => .text
  | missing => .missing

/-- Dates compare by their days and texts by their characters. Nothing else compares, but for
sameness. -/
def compare (comparison : Comparison) : Moment → Moment → Except Fault Bool
  | date a, date b => .ok (comparison.holds a b)
  | text a, text b => .ok (comparison.accepts (Ord.compare a b))
  | a, b =>
    if comparison = .same then .ok (a = b)
    else .error (.incomparable comparison.sign a.sort b.sort)

def describe : Moment → String
  | date d => d.format
  | text t => t
  | missing => ""

end Moment

end Aventuria.Calendar
