import Mathlib.Algebra.Order.Floor.Ring
import Mathlib.Data.Rat.Floor
import Mathlib.Tactic.Linarith
import Aventuria.MagicSign
import Aventuria.Proofs.Calendar.Solstice
import Aventuria.Proofs.Duration.Numbered

/-!
# Dates in either form

A date is given as such or as a text that reads as it. Shelf lives, effects and magic signs treat
both forms alike: the same dice are thrown, and where the date comes to a later one, the text comes
to that one written out in the era of the text (`ends_in_either_form`).
-/

set_option autoImplicit false
set_option relaxedAutoImplicit false

namespace Aventuria.Duration

open Calendar (Date DatedText Moment)
open Dice (Throw Table)
open Text (Solid numeral)

/-! ### What belongs together -/

/-- How a span ends for a date, and for a text that reads as this date in an era. -/
inductive Ends (text : String) (date : Date) (era : String) : Option Span → Moment → Moment → Prop
  | days (n : Nat) :
      Ends text date era (some (.days n)) (.date (date.addDays n))
        (.text (DatedText.format ⟨date.addDays n, era⟩))
  | unlimited : Ends text date era (some .unlimited) (.text unlimitedDate) (.text unlimitedDate)
  | unresolved : Ends text date era none (.date date) (.text text)

/-- How an evaluated effect ends: after its days, or not at all. -/
inductive EffectEnds (text : String) (date : Date) (era : String) :
    Option Effect → Option Moment → Option Moment → Prop
  | days {effect : Effect} {days : Nat} {byDate byText : Moment}
      (hunit : unitDays? effect.unit = some days)
      (h : Ends text date era (some (.days (effect.amount * days))) byDate byText) :
      EffectEnds text date era (some effect) (some byDate) (some byText)
  | missing : EffectEnds text date era none none none

/-- How an effect ends that begins at a moment, once it is evaluated. -/
inductive EndsAfter (current : Moment) : Option Effect → Option Moment → Prop
  | days {effect : Effect} {days : Nat} (hunit : unitDays? effect.unit = some days) :
      EndsAfter current (some effect) (some (endOf current (some (.days (effect.amount * days)))))
  | missing : EndsAfter current none none

/-- The last day of a sign that is activated on a date. -/
def SignEnds (rating : Int) (date last : Date) : MagicSign.Lasting → Prop
  | .halfRatingDays => last = date.addDays ⌈((max 0 rating : Int) : ℚ) / 2⌉
  | .oneMonth => last = date.addDays 30
  | .oneQuarter => last = date.addDays 90
  | .untilWinterSolstice => IsLeast date.laterSolstices last

section
variable {text : String} {date : Date} {era : String}

theorem ends_endOf (h : DatedText.ofText? text = some ⟨date, era⟩) (span : Option Span) :
    Ends text date era span (endOf (.date date) span) (endOf (.text text) span) := by
  rcases span with _ | _ | n
  · exact .unresolved
  · exact .unlimited
  · simp only [endOf, h]
    exact .days n

theorem readable_text (h : DatedText.ofText? text = some ⟨date, era⟩) : Readable (.text text) := by
  rw [Readable, h]
  rfl

/-! ### Shelf lives and effects -/

theorem agree_expiry (h : DatedText.ofText? text = some ⟨date, era⟩) (shelfLife : String)
    (table : Table) :
    Throw.Agree (expiry (.date date) shelfLife) (expiry (.text text) shelfLife) table
      fun byDate byText ↦ ∃ span, ((resolve? shelfLife).onTable table).1 = .ok span ∧
        Ends text date era span byDate byText := by
  have hdate : Readable (.date date) := trivial
  rw [expiry_of_readable hdate, expiry_of_readable (readable_text h)]
  refine (Throw.agree_bind_pure _ _ _ table).mono ?_
  rintro _ _ ⟨span, hspan, rfl, rfl⟩
  exact ⟨span, hspan, ends_endOf h span⟩

/-- A shelf life without dice comes to its end without any. -/
theorem expiry_of_resolved {current : Moment} (hreadable : Readable current) {shelfLife : String}
    {span : Option Span} (h : resolve? shelfLife = pure span) :
    expiry current shelfLife = pure (endOf current span) := by
  rw [expiry_of_readable hreadable, h, pure_bind]

/-- An evaluated effect ends after its days, and no further dice are thrown for it. -/
theorem onTable_effectExpiry?_of_evaluated {current : Moment} (hreadable : Readable current)
    {specification : String} {points : Int} {table left : Table} {effect : Effect} {days : Nat}
    (hrun : (Effect.evaluate? specification points).onTable table = (.ok (some effect), left))
    (hsolid : Solid effect.unit.toList) (hunit : unitDays? effect.unit = some days) :
    (effectExpiry? current specification points).onTable table =
      (.ok (some (endOf current (some (.days (effect.amount * days))))), left) := by
  rw [effectExpiry?, Throw.onTable_bind, hrun]
  simp only [expiry_of_resolved hreadable (Effect.resolve?_text hsolid hunit)]
  rfl

/-- An effect is evaluated and ends together, and the same dice are thrown for both. -/
theorem agree_evaluate?_effectExpiry? {current : Moment} (hreadable : Readable current)
    (specification : String) (points : Int) (table : Table) :
    Throw.Agree (Effect.evaluate? specification points)
      (effectExpiry? current specification points) table (EndsAfter current) := by
  rcases hrun : (Effect.evaluate? specification points).onTable table with
    ⟨fault | _ | effect, left⟩
  · exact .failed hrun (by rw [effectExpiry?, Throw.onTable_bind, hrun])
  · exact .done hrun (by rw [effectExpiry?, Throw.onTable_bind, hrun]; rfl) .missing
  · obtain ⟨hsolid, days, hunit⟩ := Effect.unit_facts hrun
    exact .done hrun (onTable_effectExpiry?_of_evaluated hreadable hrun hsolid hunit)
      (.days hunit)

theorem agree_effectExpiry? (h : DatedText.ofText? text = some ⟨date, era⟩)
    (specification : String) (points : Int) (table : Table) :
    Throw.Agree (effectExpiry? (.date date) specification points)
      (effectExpiry? (.text text) specification points) table
      fun byDate byText ↦ ∃ effect?,
        ((Effect.evaluate? specification points).onTable table).1 = .ok effect? ∧
          EffectEnds text date era effect? byDate byText := by
  have hdate : Readable (.date date) := trivial
  refine ((agree_evaluate?_effectExpiry? hdate specification points table).join
    (agree_evaluate?_effectExpiry? (readable_text h) specification points table)).mono ?_
  rintro _ _ ⟨effect?, heffect, hbyDate, hbyText⟩
  refine ⟨effect?, heffect, ?_⟩
  cases hbyDate with
  | days hunit =>
    cases hbyText with
    | days hunit' =>
      obtain rfl := Option.some.inj (hunit.symm.trans hunit')
      exact .days hunit (ends_endOf h _)
  | missing =>
    cases hbyText
    exact .missing

/-! ### Magic signs -/

theorem halfRating_eq_ceil (rating : Int) :
    MagicSign.halfRating rating = ⌈((max 0 rating : Int) : ℚ) / 2⌉ := by
  rw [MagicSign.halfRating, eq_comm, Int.ceil_eq_iff]
  generalize max 0 rating = n
  have hlow : 2 * ((n + 1) / 2) < n + 2 := by omega
  have hhigh : n ≤ 2 * ((n + 1) / 2) := by omega
  have hlow' : 2 * (((n + 1) / 2 : Int) : ℚ) < n + 2 := by exact_mod_cast hlow
  have hhigh' : (n : ℚ) ≤ 2 * (((n + 1) / 2 : Int) : ℚ) := by exact_mod_cast hhigh
  constructor
  · linarith
  · linarith

/-- So many days written with their number. -/
theorem toList_days (n : Nat) : (s!"{(n : Int)} Tage").toList = numeral n ++ ' ' :: "Tage".toList := by
  simp only [String.toList_append]
  rfl

/-- A sign that works for a number of days. -/
theorem sign_of_days {n : Nat} {shelfLife : String}
    (htext : shelfLife.toList = numeral n ++ ' ' :: "Tage".toList) {current : Moment}
    (hreadable : Readable current) :
    expiry current shelfLife = pure (endOf current (some (.days n))) := by
  have hunit : wordDays? "Tage".toList = some 1 := by decide
  rw [expiry_of_resolved hreadable (resolve?_of_numbered htext (by decide) hunit), Nat.mul_one]

/-- A sign stops working on one day, in whatever form the date is given. -/
theorem exists_signEnds (lasting : MagicSign.Lasting) (rating : Int) (date : Date) :
    ∃ last, SignEnds rating date last lasting ∧
      MagicSign.expiry lasting rating (.date date) = pure (.date last) ∧
      ∀ text era, DatedText.ofText? text = some ⟨date, era⟩ →
        MagicSign.expiry lasting rating (.text text) =
          pure (.text (DatedText.format ⟨last, era⟩)) := by
  have hdays {n : Nat} {shelfLife : String}
      (htext : shelfLife.toList = numeral n ++ ' ' :: "Tage".toList) :
      expiry (.date date) shelfLife = pure (.date (date.addDays n)) ∧
        ∀ text era, DatedText.ofText? text = some ⟨date, era⟩ →
          expiry (.text text) shelfLife =
            pure (.text (DatedText.format ⟨date.addDays n, era⟩)) := by
    refine ⟨sign_of_days htext trivial, fun text era h ↦ ?_⟩
    rw [sign_of_days htext (readable_text h)]
    simp only [endOf, h]
  cases lasting with
  | halfRatingDays =>
    obtain ⟨n, hn⟩ := Int.eq_ofNat_of_zero_le (show 0 ≤ MagicSign.halfRating rating by
      unfold MagicSign.halfRating; omega)
    refine ⟨date.addDays n, by rw [SignEnds, ← halfRating_eq_ceil, hn], ?_⟩
    simp only [MagicSign.expiry, MagicSign.Lasting.fixedTime?, if_true, hn]
    exact hdays (toList_days n)
  | oneMonth => exact ⟨_, rfl, hdays (n := 30) (by decide)⟩
  | oneQuarter => exact ⟨_, rfl, hdays (n := 90) (by decide)⟩
  | untilWinterSolstice =>
    refine ⟨_, date.isLeast_nextWinterSolstice, rfl, fun text era h ↦ ?_⟩
    simp only [MagicSign.expiry, MagicSign.Lasting.fixedTime?, MagicSign.nextSolstice, h]
    rfl

/-- A text that reads as a date is treated like this date by shelf lives, effects and magic signs:
the same dice are thrown, and the end of the text is that of the date, written out in the era of the
text. -/
theorem ends_in_either_form (h : DatedText.ofText? text = some ⟨date, era⟩) (table : Table) :
    (∀ shelfLife,
      Throw.Agree (expiry (.date date) shelfLife) (expiry (.text text) shelfLife) table
        fun byDate byText ↦ ∃ span, ((resolve? shelfLife).onTable table).1 = .ok span ∧
          Ends text date era span byDate byText) ∧
    (∀ specification points,
      Throw.Agree (effectExpiry? (.date date) specification points)
        (effectExpiry? (.text text) specification points) table
        fun byDate byText ↦ ∃ effect?,
          ((Effect.evaluate? specification points).onTable table).1 = .ok effect? ∧
            EffectEnds text date era effect? byDate byText) ∧
    ∀ lasting rating, ∃ last, SignEnds rating date last lasting ∧
      (MagicSign.expiry lasting rating (.date date)).onTable table = (.ok (.date last), table) ∧
      (MagicSign.expiry lasting rating (.text text)).onTable table =
        (.ok (.text (DatedText.format ⟨last, era⟩)), table) := by
  refine ⟨fun shelfLife ↦ agree_expiry h shelfLife table,
    fun specification points ↦ agree_effectExpiry? h specification points table,
    fun lasting rating ↦ ?_⟩
  obtain ⟨last, hlast, hdate, htext⟩ := exists_signEnds lasting rating date
  exact ⟨last, hlast, by rw [hdate]; rfl, by rw [htext text era h]; rfl⟩

end

/-- On the first of Firun the next solstice is a year away. -/
theorem ends_in_either_form_solstice :
    DatedText.ofText? "1 Firun 1040 v" = some ⟨Date.firstOfFirun 1040, "v"⟩ ∧
      (MagicSign.expiry .untilWinterSolstice 7 (.text "1 Firun 1040 v")).onTable
          (Table.fresh (Dice.Source.constant 1)) =
        (.ok (.text "1 Firun 1041 v"), Table.fresh (Dice.Source.constant 1)) := by
  have htext : "1 Firun 1040 v" = DatedText.format ⟨Date.firstOfFirun 1040, "v"⟩ := by
    decide
  have hread : DatedText.ofText? "1 Firun 1040 v" = some ⟨Date.firstOfFirun 1040, "v"⟩ := by
    rw [htext]
    exact DatedText.ofText?_format (DatedText.isEra_of_isAlpha (by decide) (by decide))
  obtain ⟨-, -, hsigns⟩ := ends_in_either_form hread (Table.fresh (Dice.Source.constant 1))
  obtain ⟨last, -, hdate, hrun⟩ := hsigns .untilWinterSolstice 7
  obtain rfl : last = Date.firstOfFirun 1041 := by
    cases hdate
    decide
  exact ⟨hread, hrun⟩

end Aventuria.Duration
