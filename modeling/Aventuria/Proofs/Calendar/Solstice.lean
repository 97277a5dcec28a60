import Mathlib.Order.Bounds.Defs
import Aventuria.Proofs.Calendar.DayIndex

/-!
# The winter solstice

The firsts of Firun lie a year apart, and every date lies in one of these years. So there is a next
one after every date (`Date.isLeast_nextWinterSolstice`), no more than a year away, and none that is
passed over by a later date (`Date.nextWinterSolstice_mono`). From one solstice to the next it is
always a whole year (`Date.iterate_nextWinterSolstice`).
-/

set_option autoImplicit false
set_option relaxedAutoImplicit false

namespace Aventuria.Calendar.Date

/-- The firsts of Firun after a date. -/
def laterSolstices (date : Date) : Set Date :=
  {solstice | solstice.day = 1 ∧ solstice.month = .firun ∧ date < solstice}

theorem dayIndex_firstOfFirun (year : Int) : (firstOfFirun year).dayIndex = 365 * year + 180 := by
  simp [firstOfFirun, dayIndex, Month.offset, Month.index]

theorem eq_firstOfFirun {date : Date} (hday : date.day = 1) (hmonth : date.month = .firun) :
    date = firstOfFirun date.year := by
  obtain ⟨day, month, year, _, _⟩ := date
  cases hday
  cases hmonth
  rfl

theorem le_iff_dayIndex_le {a b : Date} : a ≤ b ↔ a.dayIndex ≤ b.dayIndex := by
  rw [le_iff_lt_or_eq, lt_iff, Int.le_iff_lt_or_eq]
  exact or_congr_right ⟨congrArg dayIndex, dayIndex_injective⟩

theorem nextWinterSolstice_eq (date : Date) :
    date.nextWinterSolstice =
      firstOfFirun (if (firstOfFirun date.year).dayIndex ≤ date.dayIndex then date.year + 1
        else date.year) := by
  rw [nextWinterSolstice]
  split_ifs with h h' h'
  · rfl
  · exact absurd (le_iff_dayIndex_le.mp h) h'
  · exact absurd (le_iff_dayIndex_le.mpr h') h
  · rfl

/-- The next winter solstice is the earliest first of Firun after a date. -/
theorem isLeast_nextWinterSolstice (date : Date) :
    IsLeast date.laterSolstices date.nextWinterSolstice := by
  have hdate := date.dayIndex_eq
  obtain ⟨hpos, hlt⟩ := date.dayOfYear_bounds
  rw [nextWinterSolstice_eq]
  simp only [dayIndex_firstOfFirun]
  refine ⟨⟨rfl, rfl, ?_⟩, ?_⟩
  · rw [lt_iff, dayIndex_firstOfFirun]
    split_ifs <;> omega
  · rintro solstice ⟨hday, hmonth, hafter⟩
    rw [eq_firstOfFirun hday hmonth, lt_iff, dayIndex_firstOfFirun] at hafter
    rw [eq_firstOfFirun hday hmonth, le_iff_dayIndex_le, dayIndex_firstOfFirun,
      dayIndex_firstOfFirun]
    split_ifs <;> omega

theorem exists_addDays_nextWinterSolstice (date : Date) :
    ∃ days : Int, 1 ≤ days ∧ days ≤ 365 ∧ date.nextWinterSolstice = date.addDays days := by
  refine ⟨date.nextWinterSolstice.dayIndex - date.dayIndex, ?_, ?_, (date.addDays_sub _).symm⟩
  · have hafter := lt_iff.mp (isLeast_nextWinterSolstice date).1.2.2
    omega
  · have hdate := date.dayIndex_eq
    obtain ⟨hpos, hlt⟩ := date.dayOfYear_bounds
    rw [nextWinterSolstice_eq, dayIndex_firstOfFirun, dayIndex_firstOfFirun]
    split_ifs <;> omega

/-- What is a solstice after a later date is one after an earlier date too. -/
theorem nextWinterSolstice_mono {a b : Date} (h : a ≤ b) :
    a.nextWinterSolstice ≤ b.nextWinterSolstice := by
  obtain ⟨hday, hmonth, hafter⟩ := (isLeast_nextWinterSolstice b).1
  have hlater : a < b.nextWinterSolstice :=
    lt_iff.mpr (Int.lt_of_le_of_lt (le_iff_dayIndex_le.mp h) (lt_iff.mp hafter))
  exact (isLeast_nextWinterSolstice a).2 ⟨hday, hmonth, hlater⟩

/-! ### From solstice to solstice -/

theorem nextWinterSolstice_firstOfFirun (year : Int) :
    (firstOfFirun year).nextWinterSolstice = firstOfFirun (year + 1) := by
  rw [nextWinterSolstice_eq]
  exact congrArg firstOfFirun (if_pos (Int.le_refl _))

theorem addDays_firstOfFirun (year n : Int) :
    (firstOfFirun year).addDays (365 * n) = firstOfFirun (year + n) := by
  apply dayIndex_injective
  rw [dayIndex_addDays, dayIndex_firstOfFirun, dayIndex_firstOfFirun]
  omega

theorem iterate_nextWinterSolstice (date : Date) (k : Nat) :
    nextWinterSolstice^[k + 1] date = date.nextWinterSolstice.addDays (365 * k) := by
  obtain ⟨year, hyear⟩ : ∃ year, date.nextWinterSolstice = firstOfFirun year :=
    ⟨_, nextWinterSolstice_eq date⟩
  rw [hyear, addDays_firstOfFirun]
  induction k with
  | zero => rw [Function.iterate_one, hyear, Int.natCast_zero, Int.add_zero]
  | succ k ih =>
    rw [Function.iterate_succ_apply', ih, nextWinterSolstice_firstOfFirun]
    congr 1
    omega

/-- The next winter solstice is the earliest one after a date, and it comes within a year. A later
date never has an earlier one. The solstice after so many others comes as many years after the first
of them. -/
theorem solstices_come_yearly (date : Date) :
    IsLeast date.laterSolstices date.nextWinterSolstice ∧
      (∃ days : Int, 1 ≤ days ∧ days ≤ 365 ∧ date.nextWinterSolstice = date.addDays days) ∧
      (∀ later, date ≤ later → date.nextWinterSolstice ≤ later.nextWinterSolstice) ∧
      ∀ k : Nat, nextWinterSolstice^[k + 1] date = date.nextWinterSolstice.addDays (365 * k) :=
  ⟨isLeast_nextWinterSolstice date, exists_addDays_nextWinterSolstice date,
    fun _ h ↦ nextWinterSolstice_mono h, iterate_nextWinterSolstice date⟩

/-- The third of the Nameless Days before the year zero, and the solstice of this year. -/
theorem solstices_come_yearly_from_before_zero :
    (⟨3, .namelessDays, -1, by decide, by decide⟩ : Date) ≤ firstOfFirun 0 ∧
      (⟨3, .namelessDays, -1, by decide, by decide⟩ : Date).nextWinterSolstice = firstOfFirun 0 ∧
      firstOfFirun 0 ≤ (firstOfFirun 0).nextWinterSolstice ∧
      nextWinterSolstice^[4] ⟨3, .namelessDays, -1, by decide, by decide⟩ = firstOfFirun 3 := by
  have hle : (⟨3, .namelessDays, -1, by decide, by decide⟩ : Date) ≤ firstOfFirun 0 := by decide
  have hnext : (⟨3, .namelessDays, -1, by decide, by decide⟩ : Date).nextWinterSolstice =
      firstOfFirun 0 := by
    decide
  obtain ⟨-, -, hmono, hiterate⟩ :=
    solstices_come_yearly ⟨3, .namelessDays, -1, by decide, by decide⟩
  have hlater := hmono _ hle
  have hfourth := hiterate 3
  rw [hnext] at hlater hfourth
  exact ⟨hle, hnext, hlater, hfourth.trans (addDays_firstOfFirun 0 3)⟩

end Aventuria.Calendar.Date
