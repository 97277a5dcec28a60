import Mathlib.Algebra.Order.Group.Int
import Mathlib.Order.Compare
import Aventuria.Calendar.Date

/-!
# Dates and day indexes

A day index is written in mixed radix: years of 365 days, months of thirty days and days of the
month, where the five Nameless Days are a thirteenth month that ends early. So every day index is
that of one date (`dayIndex_ofDayIndex`, `ofDayIndex_dayIndex`), and dates compare like their day
indexes and like year, month and day in turn (`dayIndex_orders_dates`).
-/

set_option autoImplicit false
set_option relaxedAutoImplicit false

namespace Aventuria.Calendar

namespace Date

/-! ### The place of a day in its year -/

/-- The days of the year before a date. -/
def dayOfYear (date : Date) : Int :=
  30 * date.month.index + (date.day - 1)

theorem dayIndex_eq (date : Date) : date.dayIndex = 365 * date.year + date.dayOfYear := by
  rw [dayIndex, dayOfYear, Month.offset]
  push_cast
  omega

theorem index_lt_or_eq (month : Month) :
    month.index < 12 ∧ month.length = 30 ∨ month.index = 12 ∧ month.length = 5 := by
  cases month <;> decide

theorem day_bounds (date : Date) : 1 ≤ date.day ∧ date.day ≤ 30 :=
  ⟨date.one_le_day, Nat.le_trans date.day_le date.month.length_le⟩

theorem dayOfYear_bounds (date : Date) : 0 ≤ date.dayOfYear ∧ date.dayOfYear < 365 := by
  have hfirst := date.one_le_day
  have hlast := date.day_le
  unfold dayOfYear
  rcases index_lt_or_eq date.month with ⟨hindex, hlength⟩ | ⟨hindex, hlength⟩
  · omega
  · omega

/-! ### Both ways -/

theorem dayIndex_ofDayIndex (index : Int) : (ofDayIndex index).dayIndex = index := by
  have hindex : (Month.ofIndex ((index % 365).toNat / 30)).index = (index % 365).toNat / 30 :=
    Month.index_ofIndex (by omega)
  rw [dayIndex_eq, dayOfYear]
  simp only [ofDayIndex, hindex]
  omega

theorem ofDayIndex_dayIndex (date : Date) : ofDayIndex date.dayIndex = date := by
  obtain ⟨hpos, hlt⟩ := date.dayOfYear_bounds
  obtain ⟨hfirst, hlast⟩ := date.day_bounds
  have hyear : date.dayIndex / 365 = date.year := by
    rw [dayIndex_eq]
    omega
  have hrest : date.dayIndex % 365 = date.dayOfYear := by
    rw [dayIndex_eq]
    omega
  have hmonth : date.dayOfYear.toNat / 30 = date.month.index := by
    unfold dayOfYear
    omega
  have hday : date.dayOfYear.toNat % 30 + 1 = date.day := by
    unfold dayOfYear
    omega
  obtain ⟨day, month, year, _, _⟩ := date
  simp only [ofDayIndex, hyear, hrest, hmonth, hday, Month.ofIndex_index]

theorem dayIndex_injective {a b : Date} (h : a.dayIndex = b.dayIndex) : a = b := by
  rw [← ofDayIndex_dayIndex a, h, ofDayIndex_dayIndex]

@[simp] theorem dayIndex_addDays (date : Date) (days : Int) :
    (date.addDays days).dayIndex = date.dayIndex + days :=
  dayIndex_ofDayIndex _

/-- Every date is some days away from every other one. -/
theorem addDays_sub (date other : Date) : date.addDays (other.dayIndex - date.dayIndex) = other :=
  dayIndex_injective (by rw [dayIndex_addDays]; omega)

/-- The parts of a date pass the check that dates are built with. -/
theorem build_parts (date : Date) : build date.day date.month date.year = .ok date := by
  have hfirst := date.one_le_day
  have hlast := date.day_le
  have hvalid : validDay date.day date.month = true := by
    simp only [validDay, Bool.and_eq_true, decide_eq_true_eq]
    omega
  rw [build, dif_pos hvalid]
  rfl

theorem build_eq_ok_iff {day year : Int} {month : Month} {date : Date} :
    build day month year = .ok date ↔
      (date.day : Int) = day ∧ date.month = month ∧ date.year = year := by
  constructor
  · intro h
    rw [build] at h
    split at h
    · next hvalid =>
      simp only [validDay, Bool.and_eq_true, decide_eq_true_eq] at hvalid
      cases h
      exact ⟨Int.toNat_of_nonneg (by omega), rfl, rfl⟩
    · cases h
  · rintro ⟨rfl, rfl, rfl⟩
    exact build_parts date

/-- The days and months that a day index is divided into pass the check of a date, those of the
Nameless Days included. -/
theorem buildOfDayIndex_eq (index : Int) : buildOfDayIndex index = .ok (ofDayIndex index) := by
  have hmonth : Month.ofIndex (index % 365 / 30).toNat = (ofDayIndex index).month := by
    simp only [ofDayIndex]
    congr 1
    omega
  rw [buildOfDayIndex]
  split
  · next hlast =>
    have hnameless : (ofDayIndex index).month = .namelessDays := by
      rw [← hmonth, show (index % 365 / 30).toNat = 12 by omega]
      rfl
    refine build_eq_ok_iff.mpr ⟨?_, hnameless, rfl⟩
    simp only [ofDayIndex]
    omega
  · refine build_eq_ok_iff.mpr ⟨?_, hmonth.symm, rfl⟩
    simp only [ofDayIndex]
    omega

/-! ### Order -/

theorem compare_add_left (c r r' : Int) : compare (c + r) (c + r') = compare r r' := by
  rw [← cmp_eq_compare, ← cmp_eq_compare, cmp_add_left]

theorem compare_natCast (m n : Nat) : compare (m : Int) (n : Int) = compare m n := by
  rw [← cmp_eq_compare, ← cmp_eq_compare]
  exact StrictMono.cmp_map_eq (fun _ _ h ↦ Int.ofNat_lt.mpr h) m n

/-- Numbers in mixed radix compare by their leading digits, and by the last ones where these
agree. -/
theorem compare_mixedRadix {radix q r q' r' : Int} (hr : 0 ≤ r) (hr' : 0 ≤ r') (hlt : r < radix)
    (hlt' : r' < radix) :
    compare (radix * q + r) (radix * q' + r') = (compare q q').then (compare r r') := by
  have hless {p p' s s' : Int} (hs : s < radix) (hs' : 0 ≤ s') (h : p < p') :
      radix * p + s < radix * p' + s' := by
    have hstep : radix * (p + 1) ≤ radix * p' := Int.mul_le_mul_of_nonneg_left h (by omega)
    rw [Int.mul_add, Int.mul_one] at hstep
    omega
  rcases lt_trichotomy q q' with h | rfl | h
  · rw [compare_lt_iff_lt.mpr h, compare_lt_iff_lt.mpr (hless hlt hr' h)]
    rfl
  · rw [compare_add_left, compare_eq_iff_eq.mpr (rfl : q = q)]
    rfl
  · rw [compare_gt_iff_gt.mpr h, compare_gt_iff_gt.mpr (hless hlt' hr h)]
    rfl

/-- The order of year, month number and day in turn. -/
def compareParts (a b : Date) : Ordering :=
  (compare a.year b.year).then
    ((compare a.month.number b.month.number).then (compare a.day b.day))

theorem compare_dayOfYear (a b : Date) :
    compare a.dayOfYear b.dayOfYear =
      (compare a.month.number b.month.number).then (compare a.day b.day) := by
  obtain ⟨hfirst, hlast⟩ := a.day_bounds
  obtain ⟨hfirst', hlast'⟩ := b.day_bounds
  have hday (date : Date) : (date.day : Int) - 1 = -1 + date.day := by omega
  have hnumber (date : Date) : (date.month.number : Int) = 1 + date.month.index := by
    rw [Month.number]
    omega
  rw [dayOfYear, dayOfYear, compare_mixedRadix (by omega) (by omega) (by omega) (by omega),
    ← compare_natCast a.month.number, ← compare_natCast a.day, hnumber, hnumber, hday, hday,
    compare_add_left, compare_add_left]

theorem compare_dayIndex (a b : Date) : compare a.dayIndex b.dayIndex = compareParts a b := by
  obtain ⟨hpos, hlt⟩ := a.dayOfYear_bounds
  obtain ⟨hpos', hlt'⟩ := b.dayOfYear_bounds
  rw [dayIndex_eq, dayIndex_eq, compare_mixedRadix hpos hpos' hlt hlt', compare_dayOfYear]
  rfl

end Date

/-- All comparisons of two dates are those of their day indexes, although most of them are put
together from the strict order and sameness. -/
theorem Comparison.holds_eq (comparison : Comparison) (a b : Date) :
    comparison.holds a b = comparison.accepts (compare a.dayIndex b.dayIndex) := by
  have hlt : a < b ↔ a.dayIndex < b.dayIndex := Date.lt_iff
  have heq : a = b ↔ a.dayIndex = b.dayIndex := ⟨congrArg Date.dayIndex, Date.dayIndex_injective⟩
  rcases lt_trichotomy a.dayIndex b.dayIndex with h | h | h
  · rw [compare_lt_iff_lt.mpr h]
    cases comparison <;> simp [holds, accepts, Date.le_iff_lt_or_eq, hlt, heq, h, h.ne]
  · rw [compare_eq_iff_eq.mpr h]
    cases comparison <;> simp [holds, accepts, Date.le_iff_lt_or_eq, hlt, heq, h]
  · rw [compare_gt_iff_gt.mpr h]
    cases comparison <;> simp [holds, accepts, Date.le_iff_lt_or_eq, hlt, heq, h.ne', h.le]

/-- Day indexes and dates correspond one to one: the date that is built from a day index is valid
and has that index, and every date is built from its own. All comparisons of dates agree with those
of their day indexes, and with the order of year, month number and day in turn. -/
theorem dayIndex_orders_dates :
    (∀ index : Int,
      Date.buildOfDayIndex index = .ok (Date.ofDayIndex index) ∧
        (Date.ofDayIndex index).dayIndex = index) ∧
    (∀ date : Date, Date.ofDayIndex date.dayIndex = date) ∧
    ∀ (comparison : Comparison) (a b : Date),
      comparison.holds a b = comparison.accepts (compare a.dayIndex b.dayIndex) ∧
      comparison.holds a b = comparison.accepts (Date.compareParts a b) := by
  refine ⟨fun index ↦ ⟨Date.buildOfDayIndex_eq index, Date.dayIndex_ofDayIndex index⟩,
    Date.ofDayIndex_dayIndex, fun comparison a b ↦ ⟨comparison.holds_eq a b, ?_⟩⟩
  rw [comparison.holds_eq, Date.compare_dayIndex]

end Aventuria.Calendar
