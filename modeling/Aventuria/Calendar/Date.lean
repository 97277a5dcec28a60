import Aventuria.Fault

/-!
Dates of the Aventurian calendar and their day index, the number of days since the first day of
the year zero. Every day index belongs to exactly one date, and all arithmetic on dates goes
through it. Two dates are compared by their day indexes, or for sameness by their parts.
-/

set_option autoImplicit false
set_option relaxedAutoImplicit false

namespace Aventuria.Calendar

structure Date where
  day : Nat
  month : Month
  year : Int
  one_le_day : 1 ≤ day
  day_le : day ≤ month.length
  deriving DecidableEq, Repr

namespace Date

/-- Whether a day number occurs in a month. -/
def validDay (day : Int) (month : Month) : Bool :=
  1 ≤ day && day ≤ month.length

def build (day : Int) (month : Month) (year : Int) : Except Fault Date :=
  if h : validDay day month then
    .ok
      { day := day.toNat, month, year
        one_le_day := by simp only [validDay, Bool.and_eq_true, decide_eq_true_eq] at h; omega
        day_le := by simp only [validDay, Bool.and_eq_true, decide_eq_true_eq] at h; omega }
  else .error (.invalidDay day month)

def build? (day : Int) (month : Month) (year : Int) : Option Date :=
  (build day month year).toOption

/-- The date in the month that is spelled exactly so. The month is judged before the day. -/
def inNamedMonth (day : Int) (monthName : String) (year : Int) : Except Fault Date :=
  match Month.ofExactName? monthName with
  | some month => build day month year
  | none => .error (.unknownMonth monthName)

def dayIndex (date : Date) : Int :=
  365 * date.year + date.month.offset + date.day - 1

private theorem day_le_of_dayOfYear {n : Nat} (h : n < 365) :
    n % 30 + 1 ≤ (Month.ofIndex (n / 30)).length := by
  by_cases h12 : n / 30 < 12
  · rw [Month.length_ofIndex h12]
    omega
  · have h' : n / 30 = 12 := by omega
    rw [h']
    show n % 30 + 1 ≤ 5
    omega

def ofDayIndex (index : Int) : Date where
  day := (index % 365).toNat % 30 + 1
  month := Month.ofIndex ((index % 365).toNat / 30)
  year := index / 365
  one_le_day := Nat.le_add_left 1 _
  day_le := day_le_of_dayOfYear (by omega)

/-- The same date, divided out of the day index and judged like any other that is built. What is
behind the twelfth month are Nameless Days. -/
def buildOfDayIndex (index : Int) : Except Fault Date :=
  let day := index % 365
  if 12 ≤ day / 30 then build (day - 12 * 30 + 1) .namelessDays (index / 365)
  else build (day % 30 + 1) (Month.ofIndex (day / 30).toNat) (index / 365)

def addDays (date : Date) (days : Int) : Date :=
  ofDayIndex (date.dayIndex + days)

instance : LT Date := ⟨fun a b ↦ a.dayIndex < b.dayIndex⟩

/-- Only the strict order counts days; a date is at most another one that is later or the same. -/
instance : LE Date := ⟨fun a b ↦ a < b ∨ a = b⟩

instance (a b : Date) : Decidable (a < b) :=
  inferInstanceAs (Decidable (a.dayIndex < b.dayIndex))

instance (a b : Date) : Decidable (a ≤ b) :=
  inferInstanceAs (Decidable (a < b ∨ a = b))

theorem lt_iff {a b : Date} : a < b ↔ a.dayIndex < b.dayIndex := Iff.rfl

theorem le_iff_lt_or_eq {a b : Date} : a ≤ b ↔ a < b ∨ a = b := Iff.rfl

/-- Dates from the earliest to the latest. -/
def sort (dates : List Date) : List Date :=
  dates.mergeSort fun a b ↦ a ≤ b

def firstOfFirun (year : Int) : Date :=
  ⟨1, .firun, year, by decide, by decide⟩

/-- The next first of Firun, strictly after the date. -/
def nextWinterSolstice (date : Date) : Date :=
  let solstice := firstOfFirun date.year
  if solstice ≤ date then firstOfFirun (date.year + 1) else solstice

end Date

/-- The ways in which two values are compared. -/
inductive Comparison where
  | before | notAfter | after | notBefore | same
  deriving DecidableEq, Repr

namespace Comparison

def sign : Comparison → String
  | before => "<"
  | notAfter => "<="
  | after => ">"
  | notBefore => ">="
  | same => "=="

/-- Whether a comparison holds of values that lie to each other as given. -/
def accepts : Comparison → Ordering → Bool
  | before, order => order.isLT
  | notAfter, order => order.isLE
  | after, order => order.isGT
  | notBefore, order => order.isGE
  | same, order => order.isEq

/-- Whether a comparison holds of two dates. All are made of the strict order and of sameness, which
looks at day, month and year one by one. -/
def holds : Comparison → Date → Date → Bool
  | before, a, b => a < b
  | notAfter, a, b => a ≤ b
  | after, a, b => ¬ a < b ∧ a ≠ b
  | notBefore, a, b => ¬ a < b
  | same, a, b => a = b

end Comparison

end Aventuria.Calendar
