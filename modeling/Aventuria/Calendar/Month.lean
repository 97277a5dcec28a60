import Aventuria.Text.Letter

/-!
The months of the Aventurian year: twelve months of thirty days, each named after a god, and the
five Nameless Days that close the year and count as a thirteenth month.
-/

set_option autoImplicit false
set_option relaxedAutoImplicit false

namespace Aventuria.Calendar

inductive Month where
  | praios | rondra | efferd | travia | boron | hesinde
  | firun | tsa | phex | peraine | ingerimm | rahja
  | namelessDays
  deriving DecidableEq, Repr

namespace Month

def all : List Month :=
  [praios, rondra, efferd, travia, boron, hesinde, firun, tsa, phex, peraine, ingerimm, rahja,
    namelessDays]

def name : Month → String
  | praios => "Praios"
  | rondra => "Rondra"
  | efferd => "Efferd"
  | travia => "Travia"
  | boron => "Boron"
  | hesinde => "Hesinde"
  | firun => "Firun"
  | tsa => "Tsa"
  | phex => "Phex"
  | peraine => "Peraine"
  | ingerimm => "Ingerimm"
  | rahja => "Rahja"
  | namelessDays => "Namenlose Tage"

/-- The identifier of the month in capital letters. -/
def key : Month → String
  | praios => "PRAIOS"
  | rondra => "RONDRA"
  | efferd => "EFFERD"
  | travia => "TRAVIA"
  | boron => "BORON"
  | hesinde => "HESINDE"
  | firun => "FIRUN"
  | tsa => "TSA"
  | phex => "PHEX"
  | peraine => "PERAINE"
  | ingerimm => "INGERIMM"
  | rahja => "RAHJA"
  | namelessDays => "NAMELESS_DAYS"

/-- The months that precede a month in the year. -/
def index : Month → Nat
  | praios => 0
  | rondra => 1
  | efferd => 2
  | travia => 3
  | boron => 4
  | hesinde => 5
  | firun => 6
  | tsa => 7
  | phex => 8
  | peraine => 9
  | ingerimm => 10
  | rahja => 11
  | namelessDays => 12

/-- The month with the given number of months before it; the Nameless Days come last. -/
def ofIndex : Nat → Month
  | 0 => praios
  | 1 => rondra
  | 2 => efferd
  | 3 => travia
  | 4 => boron
  | 5 => hesinde
  | 6 => firun
  | 7 => tsa
  | 8 => phex
  | 9 => peraine
  | 10 => ingerimm
  | 11 => rahja
  | _ => namelessDays

@[simp] theorem ofIndex_index (month : Month) : ofIndex month.index = month := by
  cases month <;> rfl

theorem index_ofIndex {n : Nat} (h : n ≤ 12) : (ofIndex n).index = n := by
  match n with
  | 0 | 1 | 2 | 3 | 4 | 5 | 6 | 7 | 8 | 9 | 10 | 11 | 12 => rfl
  | n + 13 => omega

def number (month : Month) : Nat :=
  month.index + 1

def length : Month → Nat
  | namelessDays => 5
  | _ => 30

/-- The days of the year before the first day of a month. -/
def offset (month : Month) : Nat :=
  30 * month.index

theorem length_ofIndex {n : Nat} (h : n < 12) : (ofIndex n).length = 30 := by
  match n with
  | 0 | 1 | 2 | 3 | 4 | 5 | 6 | 7 | 8 | 9 | 10 | 11 => rfl
  | n + 12 => omega

theorem length_le (month : Month) : month.length ≤ 30 := by
  cases month <;> decide

/-- The month with exactly this name, capital and small letters alike. -/
def ofChars? (name : List Char) : Option Month :=
  all.find? fun month ↦ Text.lowerAll month.name.toList == Text.lowerAll name

def ofName? (name : String) : Option Month :=
  ofChars? name.toList

/-- The month whose name is spelled exactly so. -/
def ofExactName? (name : String) : Option Month :=
  all.find? fun month ↦ month.name == name

end Month

/-- The days of all months together. -/
def daysPerYear : Nat :=
  (Month.all.map Month.length).foldr (· + ·) 0

example : daysPerYear = 365 := rfl

end Aventuria.Calendar
