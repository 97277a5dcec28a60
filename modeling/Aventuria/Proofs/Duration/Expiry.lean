import Aventuria.Proofs.Calendar.DateText
import Aventuria.Proofs.Duration.ShelfLife

/-!
# Dates of expiry

A date that is given as a text expires as a text. It is never expired on the day on which its shelf
life begins, it reads as the day on which its shelf life ends, and it is expired on all later days
and on no others (`expiry_text`). What has no limit, and what cannot be read, never expires.
-/

set_option autoImplicit false
set_option relaxedAutoImplicit false

namespace Aventuria.Duration

open Calendar (Date DatedText Moment)
open Dice (Throw Table)

/-! ### Readable dates -/

/-- What stands for a date: a date, or a text that reads as one. -/
def Readable : Moment → Prop
  | .date _ => True
  | .text text => (DatedText.ofText? text).isSome
  | .missing => False

/-- The end of a span that begins on a date. Without a span it is the date itself. -/
def endOf (current : Moment) : Option Span → Moment
  | some (.days n) =>
    match current with
    | .date date => .date (date.addDays n)
    | .text text =>
      match DatedText.ofText? text with
      | some dated => .text (DatedText.format ⟨dated.date.addDays n, dated.era⟩)
      | none => current
    | .missing => current
  | some .unlimited => .text unlimitedDate
  | none => current

theorem expiry_of_readable {current : Moment} (h : Readable current) (duration : String) :
    expiry current duration = resolve? duration >>= fun span ↦ pure (endOf current span) := by
  cases current with
  | date date =>
    rw [expiry]
    refine bind_congr fun span ↦ ?_
    rcases span with _ | _ | _ <;> rfl
  | text current =>
    obtain ⟨dated, hread⟩ := Option.isSome_iff_exists.mp h
    simp only [expiry, hread]
    refine bind_congr fun span ↦ ?_
    rcases span with _ | _ | n
    · rfl
    · rfl
    · simp only [endOf, hread]
  | missing => exact h.elim

theorem expiry_of_not_readable {current : Moment} (h : ¬ Readable current) (duration : String) :
    expiry current duration = pure current := by
  cases current with
  | date date => exact (h trivial).elim
  | text current =>
    cases hread : DatedText.ofText? current with
    | none => simp only [expiry, hread]
    | some dated => exact (h (by rw [Readable, hread]; rfl)).elim
  | missing => rfl

/-! ### Texts -/

theorem ofText?_unlimitedDate : Date.ofText? unlimitedDate = none := by
  have hwords : Text.words unlimitedDate.toList = [unlimitedDate.toList] :=
    Text.words_of_solid (by decide) (by decide)
  rw [Date.ofText?, DatedText.ofText?, DatedText.ofChars?, hwords]
  rfl

theorem isExpired_unlimitedDate (query : String) : Date.isExpired unlimitedDate query = false := by
  rw [Date.isExpired, ofText?_unlimitedDate]

theorem isExpired_self (text : String) : Date.isExpired text text = false := by
  rw [← Bool.not_eq_true, Date.isExpired_iff]
  rintro ⟨last, now, hlast, hnow, hlt⟩
  obtain rfl := Option.some.inj (hlast.symm.trans hnow)
  exact absurd hlt (Int.lt_irrefl _)

/-- A shelf life of some days: the date of its end is read as such, and it expires afterwards. -/
theorem isExpired_addDays {current : String} {date : Date} {era : String}
    (h : DatedText.ofText? current = some ⟨date, era⟩) (n : Int) :
    DatedText.ofText? (DatedText.format ⟨date.addDays n, era⟩) = some ⟨date.addDays n, era⟩ ∧
      ∀ query, Date.isExpired (DatedText.format ⟨date.addDays n, era⟩) query = true ↔
        ∃ day, Date.ofText? query = some day ∧ date.dayIndex + n < day.dayIndex := by
  have hera : DatedText.IsEra era := DatedText.isEra_of_ofText? h
  have hread : DatedText.ofText? (DatedText.format ⟨date.addDays n, era⟩) =
      some ⟨date.addDays n, era⟩ :=
    DatedText.ofText?_format hera
  have hlast : Date.ofText? (DatedText.format ⟨date.addDays n, era⟩) = some (date.addDays n) := by
    rw [Date.ofText?, hread]
    rfl
  refine ⟨hread, fun query ↦ ?_⟩
  rw [Date.isExpired_iff, hlast]
  simp

/-- Whatever a date and a shelf life expire on, it is a text that is not expired on the date. After
some days it reads as the later date in the same era, and it is expired on all days after that one.
Without a limit it is never expired. A date that is not read stays as it is, and no die is
thrown. -/
theorem expiry_text {current duration : String} {table left : Table} {moment : Moment}
    (hrun : (expiry (.text current) duration).onTable table = (.ok moment, left)) :
    ∃ last, moment = .text last ∧ Date.isExpired last current = false ∧
      (∀ date era n after, DatedText.ofText? current = some ⟨date, era⟩ →
        (resolve? duration).onTable table = (.ok (some (.days n)), after) →
        (0 : Int) ≤ n ∧ left = after ∧
          DatedText.ofText? last = some ⟨date.addDays n, era⟩ ∧
          ∀ query, Date.isExpired last query = true ↔
            ∃ day, Date.ofText? query = some day ∧ date.dayIndex + n < day.dayIndex) ∧
      ((DatedText.ofText? current).isSome →
        ((resolve? duration).onTable table).1 = .ok (some .unlimited) →
        ∀ query, Date.isExpired last query = false) ∧
      (DatedText.ofText? current = none → last = current ∧ left = table) := by
  cases hread : DatedText.ofText? current with
  | none =>
    have hunread : ¬ Readable (.text current) := by simp [Readable, hread]
    rw [expiry_of_not_readable hunread] at hrun
    cases hrun
    refine ⟨current, rfl, isExpired_self current, ?_, nofun, fun _ ↦ ⟨rfl, rfl⟩⟩
    rintro date era n after ⟨⟩
  | some dated =>
    have hreadable : Readable (.text current) := by rw [Readable, hread]; rfl
    rw [expiry_of_readable hreadable, Throw.onTable_bind] at hrun
    rcases hresolve : (resolve? duration).onTable table with ⟨fault | _ | _ | n, after⟩
    · rw [hresolve] at hrun
      cases hrun
    · rw [hresolve] at hrun
      cases hrun
      refine ⟨current, rfl, isExpired_self current, ?_, nofun, nofun⟩
      rintro _ _ n after' - ⟨⟩
    · rw [hresolve] at hrun
      cases hrun
      refine ⟨unlimitedDate, rfl, isExpired_unlimitedDate current, ?_,
        fun _ _ ↦ isExpired_unlimitedDate, nofun⟩
      rintro _ _ n after' - ⟨⟩
    · rw [hresolve] at hrun
      simp only [endOf, hread] at hrun
      cases hrun
      obtain ⟨date, era⟩ := dated
      obtain ⟨hlast, hexpired⟩ := isExpired_addDays hread n
      refine ⟨_, rfl, ?_, ?_, nofun, nofun⟩
      · rw [← Bool.not_eq_true, hexpired]
        rintro ⟨day, hday, hlt⟩
        rw [Date.ofText?, hread] at hday
        obtain rfl : date = day := Option.some.inj hday
        omega
      · rintro _ _ _ _ ⟨⟩ ⟨⟩
        exact ⟨Int.natCast_nonneg n, rfl, hlast, hexpired⟩

/-- Four days after the third of the Nameless Days the next year has begun, one day old. -/
theorem expiry_text_turn_of_year :
    ∃ left, (expiry (.text "3 Namenlose Tage 1040 BF") "W6 Tage").onTable
        (Table.fresh (Dice.Source.replay #[4])) = (.ok (.text "2 Praios 1041 BF"), left) ∧
      Date.isExpired "2 Praios 1041 BF" "3 Namenlose Tage 1040 BF" = false ∧
      DatedText.ofText? "2 Praios 1041 BF" =
        some ⟨⟨2, .praios, 1041, by decide, by decide⟩, "BF"⟩ := by
  have hcurrent : "3 Namenlose Tage 1040 BF" =
      DatedText.format ⟨⟨3, .namelessDays, 1040, by decide, by decide⟩, "BF"⟩ := by
    decide +kernel
  have hread : DatedText.ofText? "3 Namenlose Tage 1040 BF" =
      some ⟨⟨3, .namelessDays, 1040, by decide, by decide⟩, "BF"⟩ := by
    rw [hcurrent]
    exact DatedText.ofText?_format DatedText.isEra_defaultEra
  have hplain : ShelfLife.plain "W6 Tage".toList = "w6".toList ++ ' ' :: "tage".toList := by
    decide +kernel
  have hwords : ShelfLife.HasWords "W6 Tage".toList "w6".toList "tage".toList := by
    refine ⟨by decide +kernel, ?_⟩
    rw [hplain, Text.words_word_append (by decide) (by decide) rfl,
      Text.words_of_solid (by decide) (by decide)]
    decide +kernel
  have hdice : Dice.Spec.ofChars "w6".toList =
      .ok ⟨1, 6, 0, "w6", by decide, by decide, by decide⟩ := by
    decide +kernel
  have hunit : wordDays? "tage".toList = some 1 := by decide +kernel
  have hsays := ShelfLife.Says.limited hwords (.dice hdice) hunit
  have hresolve : (resolve? "W6 Tage").onTable (Table.fresh (Dice.Source.replay #[4])) =
      (.ok (some (.days 4)), (Table.fresh (Dice.Source.replay #[4])).ask 6) := by
    rw [resolve?, ShelfLife.ofText, ShelfLife.ofChars_eq_ok_some_iff.mpr hsays]
    rfl
  have hreadable : Readable (.text "3 Namenlose Tage 1040 BF") := by rw [Readable, hread]; rfl
  have hlast : endOf (.text "3 Namenlose Tage 1040 BF") (some (.days 4)) =
      .text "2 Praios 1041 BF" := by
    simp only [endOf, hread]
    decide +kernel
  have hrun : (expiry (.text "3 Namenlose Tage 1040 BF") "W6 Tage").onTable
      (Table.fresh (Dice.Source.replay #[4])) =
        (.ok (.text "2 Praios 1041 BF"), (Table.fresh (Dice.Source.replay #[4])).ask 6) := by
    rw [expiry_of_readable hreadable, Throw.onTable_bind, hresolve, ← hlast]
    rfl
  obtain ⟨last, hmoment, hnow, hdays, -⟩ := expiry_text hrun
  cases hmoment
  obtain ⟨-, -, hend, -⟩ := hdays _ _ _ _ hread hresolve
  exact ⟨_, hrun, hnow, hend⟩

end Aventuria.Duration
