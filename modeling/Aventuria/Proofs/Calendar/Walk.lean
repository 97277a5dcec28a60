import Mathlib.Algebra.Group.End
import Mathlib.Data.Nat.Count
import Aventuria.Calendar.Cycle
import Aventuria.Proofs.Calendar.DayIndex

/-!
# Walks through the calendar

Walks of some days, forwards or backwards, add up, and each of them ends on a date. Along a walk the
weekdays go round their cycle day by day (`Date.weekday_addDays`). The phase of the moon depends on
the day of a cycle of 28 days and is kept or left for the next one each day, so a walk moves it on by
as many phases as it has left (`Date.moonPhase_addDays`); in 28 days these are all eight of them,
wherever in the cycle the walk begins (`Date.phaseChanges_cycle`).
-/

set_option autoImplicit false
set_option relaxedAutoImplicit false

namespace Aventuria.Calendar

/-! ### Sums of days -/

namespace Date

theorem addDays_zero (date : Date) : date.addDays 0 = date :=
  dayIndex_injective (by rw [dayIndex_addDays, Int.add_zero])

theorem addDays_addDays (date : Date) (m n : Int) :
    (date.addDays m).addDays n = date.addDays (m + n) :=
  dayIndex_injective (by simp only [dayIndex_addDays, Int.add_assoc])

end Date

/-! ### The week -/

namespace Weekday

def previous : Weekday → Weekday
  | windstag => wassertag
  | erdstag => windstag
  | markttag => erdstag
  | praiostag => markttag
  | rohalstag => praiostag
  | feuertag => rohalstag
  | wassertag => feuertag

/-- The weekdays in their cycle; its powers go on by as many places, its negative ones back. -/
def cycle : Equiv.Perm Weekday where
  toFun := next
  invFun := previous
  left_inv day := by cases day <;> rfl
  right_inv day := by cases day <;> rfl

theorem cycle_pow_seven : cycle ^ 7 = 1 := by
  ext day
  cases day <;> rfl

theorem afterWindstag_eq (n : Nat) : afterWindstag n = (cycle ^ n) windstag := by
  induction n with
  | zero => rfl
  | succ n ih =>
    rw [pow_succ', Equiv.Perm.mul_apply, ← ih]
    rfl

end Weekday

namespace Date

theorem weekday_eq (date : Date) : date.weekday = (Weekday.cycle ^ date.dayIndex) .windstag := by
  have hday : ((date.dayIndex % 7).toNat : Int) = date.dayIndex % 7 := by omega
  rw [weekday, Weekday.afterWindstag_eq, zpow_eq_zpow_emod' date.dayIndex Weekday.cycle_pow_seven,
    ← zpow_natCast, hday]
  rfl

/-- After some days it is as many weekdays later. -/
theorem weekday_addDays (date : Date) (n : Int) :
    (date.addDays n).weekday = (Weekday.cycle ^ n) date.weekday := by
  rw [weekday_eq, weekday_eq, dayIndex_addDays, Int.add_comm, zpow_add, Equiv.Perm.mul_apply]

end Date

/-! ### The moon -/

namespace MoonPhase

/-- Whether a day of the cycle is the last one of its phase. -/
def EndsOn (day : Nat) : Prop :=
  ofCycleDay ((day + 1) % 28) ≠ ofCycleDay (day % 28)

instance : DecidablePred EndsOn :=
  fun _ ↦ inferInstanceAs (Decidable (_ ≠ _))

theorem next_of_endsOn {day : Nat} (h : EndsOn day) :
    ofCycleDay ((day + 1) % 28) = (ofCycleDay (day % 28)).next := by
  have hcycle : ∀ day < 28, EndsOn day →
      ofCycleDay ((day + 1) % 28) = (ofCycleDay (day % 28)).next := by
    decide
  have hday := hcycle (day % 28) (Nat.mod_lt _ (by decide))
  unfold EndsOn at h hday
  rw [Nat.mod_mod, Nat.mod_add_mod] at hday
  exact hday h

/-- The phases that end in a whole cycle are the same ones from whatever day on. -/
theorem count_endsOn (day : Nat) : Nat.count (fun n ↦ EndsOn (day + n)) 28 = 8 := by
  have hcycle : Nat.count EndsOn 28 = 8 := by decide
  have hperiod : (fun n ↦ EndsOn (28 + n)) = EndsOn := by
    funext n
    unfold EndsOn
    rw [Nat.add_assoc, Nat.add_mod_left, Nat.add_mod_left]
  have hfront := Nat.count_add EndsOn day 28
  have hback := Nat.count_add EndsOn 28 day
  simp only [hperiod] at hback
  rw [Nat.add_comm] at hback
  omega

theorem next_iterate_eight (phase : MoonPhase) : next^[8] phase = phase := by
  cases phase <;> rfl

end MoonPhase

namespace Date

/-- The days since the last new moon. -/
def cycleDay (date : Date) : Nat :=
  ((date.dayIndex + 1) % 28).toNat

/-- Whether the moon is in another phase on the day after. -/
def ChangesPhase (date : Date) : Prop :=
  (date.addDays 1).moonPhase ≠ date.moonPhase

instance : DecidablePred ChangesPhase :=
  fun _ ↦ inferInstanceAs (Decidable (_ ≠ _))

/-- How often the phase of the moon changes in so many days from a date on. -/
def phaseChanges (date : Date) (days : Nat) : Nat :=
  Nat.count (fun n ↦ (date.addDays n).ChangesPhase) days

theorem moonPhase_addDays_eq (date : Date) (n : Nat) :
    (date.addDays n).moonPhase = MoonPhase.ofCycleDay ((date.cycleDay + n) % 28) := by
  rw [moonPhase, dayIndex_addDays, cycleDay]
  congr 1
  omega

theorem moonPhase_eq (date : Date) : date.moonPhase = MoonPhase.ofCycleDay (date.cycleDay % 28) := by
  have hnow := date.moonPhase_addDays_eq 0
  rwa [Int.natCast_zero, addDays_zero] at hnow

theorem changesPhase_iff (date : Date) (n : Nat) :
    (date.addDays n).ChangesPhase ↔ MoonPhase.EndsOn (date.cycleDay + n) := by
  rw [ChangesPhase, addDays_addDays, ← Int.natCast_succ, moonPhase_addDays_eq, moonPhase_addDays_eq]
  rfl

theorem phaseChanges_eq (date : Date) (days : Nat) :
    date.phaseChanges days = Nat.count (fun n ↦ MoonPhase.EndsOn (date.cycleDay + n)) days := by
  induction days with
  | zero => rfl
  | succ n ih =>
    rw [phaseChanges, Nat.count_succ, ← phaseChanges, ih, Nat.count_succ]
    simp only [changesPhase_iff]

/-- A moon that changes its phase comes into the one that follows. -/
theorem moonPhase_of_changesPhase {date : Date} (h : date.ChangesPhase) :
    (date.addDays 1).moonPhase = date.moonPhase.next := by
  have hends : MoonPhase.EndsOn date.cycleDay :=
    (date.changesPhase_iff 0).mp (by rwa [Int.natCast_zero, addDays_zero])
  calc (date.addDays 1).moonPhase = MoonPhase.ofCycleDay ((date.cycleDay + 1) % 28) :=
        date.moonPhase_addDays_eq 1
    _ = (MoonPhase.ofCycleDay (date.cycleDay % 28)).next := MoonPhase.next_of_endsOn hends
    _ = date.moonPhase.next := by rw [← moonPhase_eq]

theorem moonPhase_addDays (date : Date) (n : Nat) :
    (date.addDays n).moonPhase = MoonPhase.next^[date.phaseChanges n] date.moonPhase := by
  induction n with
  | zero => exact congrArg moonPhase date.addDays_zero
  | succ n ih =>
    rw [phaseChanges, Nat.count_succ, ← phaseChanges, Int.natCast_succ, ← addDays_addDays]
    split_ifs with h
    · rw [moonPhase_of_changesPhase h, Function.iterate_succ_apply', ih]
    · exact (not_not.mp h).trans ih

theorem phaseChanges_cycle (date : Date) : date.phaseChanges 28 = 8 :=
  (date.phaseChanges_eq 28).trans (MoonPhase.count_endsOn date.cycleDay)

end Date

/-- All walks lead to dates, and one after the other they are as long as both together. On their way
the weekdays go round day by day. The moon is in the same phase 28 days later; from one day to the
next it stays in its phase or comes into the one that follows, and it does so eight times in any 28
days. -/
theorem walks_go_round (date : Date) (m n : Int) :
    Date.buildOfDayIndex (date.dayIndex + m) = .ok (date.addDays m) ∧
      date.addDays 0 = date ∧ (date.addDays m).addDays n = date.addDays (m + n) ∧
      (date.addDays n).weekday = (Weekday.cycle ^ n) date.weekday ∧
      (date.addDays 28).moonPhase = date.moonPhase ∧
      ((date.addDays 1).moonPhase = date.moonPhase ∨
        (date.addDays 1).moonPhase = date.moonPhase.next) ∧
      date.phaseChanges 28 = 8 := by
  refine ⟨Date.buildOfDayIndex_eq _, date.addDays_zero, date.addDays_addDays m n,
    date.weekday_addDays n, ?_, ?_, date.phaseChanges_cycle⟩
  · have hcycle := date.moonPhase_addDays 28
    rwa [date.phaseChanges_cycle, MoonPhase.next_iterate_eight] at hcycle
  · by_cases hchange : date.ChangesPhase
    · exact .inr (Date.moonPhase_of_changesPhase hchange)
    · exact .inl (not_not.mp hchange)

end Aventuria.Calendar
