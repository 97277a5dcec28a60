import Aventuria.Proofs.Duration.Evaluation
import Aventuria.Proofs.Duration.Expiry
import Aventuria.Proofs.Duration.ShelfLife

/-!
# Faults of durations

As long as the dice do not run out, shelf lives and lengths of effects come to an answer unless some
digits in them are no number where a number is read (`answers_iff_not_misnumbered`). Such digits are
a fault although every other text that is not understood gives no duration
(`not_answers_superscript`).
-/

set_option autoImplicit false
set_option relaxedAutoImplicit false

namespace Aventuria.Duration

open Calendar (Moment)
open Dice (Throw Table)
open Text (numeral)

/-! ### Shelf lives -/

/-- The sizes of the dice of an amount. -/
def Amount.sizes : Amount → List Int
  | fixed _ => []
  | rolled spec => spec.sizes

/-- What an amount comes to when its dice show these values. -/
def Amount.value : Amount → List Int → Int
  | fixed n, _ => n
  | rolled spec, values => sum values + spec.modifier

theorem Amount.asks_resolve (amount : Amount) :
    Throw.Asks amount.resolve amount.sizes fun values n ↦ n = amount.value values := by
  cases amount with
  | fixed n => exact (Throw.asks_pure (n : Int)).mono fun _ _ h ↦ h.2
  | rolled spec =>
    refine ((spec.asks_roll "").bind_pure Dice.Roll.total).mono ?_
    rintro values n ⟨roll, rfl, rfl⟩
    rfl

namespace ShelfLife

/-- The sizes of the dice of a shelf life. -/
def sizes : ShelfLife → List Int
  | unlimited => []
  | limited amount _ => amount.sizes

theorem asks_resolve (shelfLife : ShelfLife) :
    Throw.Asks shelfLife.resolve shelfLife.sizes fun _ _ ↦ True := by
  cases shelfLife with
  | unlimited => exact (Throw.asks_pure Span.unlimited).mono fun _ _ _ ↦ trivial
  | limited amount days =>
    exact (amount.asks_resolve.bind_pure fun n ↦ Span.days (n.toNat * days)).mono
      fun _ _ _ ↦ trivial

/-- What is done with a text, by what it says. -/
inductive Judged (text : List Char) : Throw (Option Span) → Prop
  | said {shelfLife : ShelfLife} (h : Says text shelfLife)
      (hnone : ¬ ∃ digits, Misnumbered text digits) : Judged text (some <$> shelfLife.resolve)
  | misnumbered {digits : List Char} (h : Misnumbered text digits) :
      Judged text (throw (.notANumber (String.ofList digits)))
  | refused (hnot : ¬ ∃ shelfLife, Says text shelfLife)
      (hnone : ¬ ∃ digits, Misnumbered text digits) : Judged text (pure none)

theorem judged_resolve? (text : String) : Judged text.toList (resolve? text) := by
  have hnone : ∀ outcome, ofText text = .ok outcome →
      ¬ ∃ digits, Misnumbered text.toList digits := by
    rintro outcome hread ⟨digits, hmisnumbered⟩
    have hfault := ofChars_eq_error_iff.mpr ⟨digits, hmisnumbered, rfl⟩
    rw [← ofText, hread] at hfault
    cases hfault
  rw [resolve?]
  cases hread : ofText text with
  | error fault =>
    obtain ⟨digits, hmisnumbered, rfl⟩ := ofChars_eq_error_iff.mp hread
    exact .misnumbered hmisnumbered
  | ok outcome =>
    cases outcome with
    | some shelfLife => exact .said (ofChars_eq_ok_some_iff.mp hread) (hnone _ hread)
    | none =>
      refine .refused ?_ (hnone _ hread)
      rintro ⟨shelfLife, hsays⟩
      have hsome := ofChars_eq_ok_some_iff.mpr hsays
      rw [← ofText, hread] at hsome
      cases hsome

theorem answers_resolve?_iff (text : String) {table : Table} (hendless : table.source.Endless) :
    (resolve? text).Answers table ↔ ¬ ∃ digits, Misnumbered text.toList digits := by
  have hjudged := judged_resolve? text
  generalize resolve? text = procedure at hjudged ⊢
  cases hjudged with
  | @said shelfLife h hnone =>
    refine iff_of_true ?_ hnone
    rw [map_eq_pure_bind, Throw.answers_bind_pure_iff]
    obtain ⟨span, left, hrun, -⟩ := shelfLife.asks_resolve.onTable_of_endless hendless
    exact ⟨span, by rw [hrun]⟩
  | misnumbered h => exact iff_of_false nofun fun hnone ↦ hnone ⟨_, h⟩
  | refused hnot hnone => exact iff_of_true (Throw.answers_pure none table) hnone

theorem resolve?_of_refused {text : String} (hnot : ¬ ∃ shelfLife, Says text.toList shelfLife)
    (hnone : ¬ ∃ digits, Misnumbered text.toList digits) : resolve? text = pure none := by
  have hjudged := judged_resolve? text
  generalize resolve? text = procedure at hjudged ⊢
  cases hjudged with
  | said h => exact (hnot ⟨_, h⟩).elim
  | misnumbered h => exact (hnone ⟨_, h⟩).elim
  | refused => rfl

end ShelfLife

/-! ### Dates of expiry -/

theorem answers_expiry_iff (current : Moment) (text : String) {table : Table}
    (hendless : table.source.Endless) :
    (expiry current text).Answers table ↔
      ¬ (Readable current ∧ ∃ digits, ShelfLife.Misnumbered text.toList digits) := by
  by_cases hreadable : Readable current
  · rw [expiry_of_readable hreadable, Throw.answers_bind_pure_iff,
      ShelfLife.answers_resolve?_iff text hendless, and_iff_right hreadable]
  · rw [expiry_of_not_readable hreadable]
    exact iff_of_true (Throw.answers_pure current table) fun h ↦ hreadable h.1

theorem expiry_of_refused (current : Moment) {text : String}
    (h : resolve? text = pure none) : expiry current text = pure current := by
  by_cases hreadable : Readable current
  · rw [expiry_of_readable hreadable, h, pure_bind]
    rfl
  · exact expiry_of_not_readable hreadable text

/-! ### Effects -/

namespace Effect

theorem toList_text (effect : Effect) :
    effect.text.toList = numeral effect.amount ++ ' ' :: effect.unit.toList := by
  simp only [text, String.toList_append, List.append_assoc]
  rfl

/-- Trimming keeps the amount of an effect, and small letters do not change it. -/
theorem exists_plain_text (effect : Effect) :
    ∃ tail, ShelfLife.plain effect.text.toList = numeral effect.amount ++ tail ∧
      ∀ c ∈ tail.head?, Text.isBlank c = true := by
  have hsolid := Text.solid_numeral effect.amount
  have hdigits : Text.lowerAll (numeral effect.amount) = numeral effect.amount :=
    Text.lowerAll_of_isDecimal fun _ ↦ Text.isDecimal_of_mem_numeral
  refine ⟨Text.lowerAll (Text.trimRight (' ' :: effect.unit.toList)), ?_, ?_⟩
  · rw [ShelfLife.plain, toList_text, Text.trim,
      Text.trimLeft_solid_append (Text.numeral_ne_nil _) hsolid, Text.trimRight_solid_append hsolid,
      Text.lowerAll, List.map_append, ← Text.lowerAll, hdigits]
    rfl
  · intro c hc
    rw [Text.lowerAll, List.head?_map] at hc
    obtain ⟨d, hd, rfl⟩ := Option.map_eq_some_iff.mp hc
    cases Text.head?_trimRight hd
    rfl

/-- The amount of an effect is the first word of its text. -/
theorem exists_words_text (effect : Effect) :
    ∃ words, Text.words (ShelfLife.plain effect.text.toList) = numeral effect.amount :: words := by
  obtain ⟨tail, hplain, htail⟩ := exists_plain_text effect
  have hne := Text.numeral_ne_nil effect.amount
  have hsolid := Text.solid_numeral effect.amount
  rw [hplain]
  cases tail with
  | nil => exact ⟨[], by rw [List.append_nil, Text.words_of_solid hne hsolid]⟩
  | cons blank tail => exact ⟨_, Text.words_word_append hne hsolid (htail blank rfl) tail⟩

/-- An effect that is written out has a number in front. -/
theorem not_misnumbered_text (effect : Effect) :
    ¬ ∃ digits, ShelfLife.Misnumbered effect.text.toList digits := by
  rintro ⟨digits, ⟨unit, hwords, -⟩, -, hnone⟩
  obtain ⟨words, htext⟩ := exists_words_text effect
  have hexact := hwords.exactWords_eq
  have hnumeral := Dice.Spec.isNotation_of_decimal? (Text.decimal?_numeral effect.amount)
  rw [htext, ShelfLife.exactWords, Amount.approximations_contains_of_isNotation hnumeral] at hexact
  obtain ⟨rfl, -⟩ := List.cons.inj hexact
  rw [Text.decimal?_numeral] at hnone
  cases hnone

/-- The outcome for a text that has its numbers right. -/
theorem exists_onTable_evaluate? (specification : String) (points : Int) {table : Table}
    (hendless : table.source.Endless)
    (hnone : ¬ ∃ digits, Misnumbered specification.toList digits) :
    ∃ outcome left, (evaluate? specification points).onTable table = (.ok outcome, left) ∧
      left.source.Endless ∧
      ((¬ ∃ e unit, Specifies specification.toList e unit) → outcome = none) := by
  have hjudged := judged_evaluate? specification points
  generalize evaluate? specification points = procedure at hjudged ⊢
  cases hjudged with
  | @evaluated e unit h =>
    obtain ⟨outcome, left, hrun, hleft, -⟩ :=
      ((e.asks_throwValue points).bind_pure (ofAmount? · unit)).onTable_of_endless hendless
    exact ⟨outcome, left, hrun, hleft, fun hnot ↦ (hnot ⟨e, unit, h⟩).elim⟩
  | misnumbered thrown h => exact (hnone ⟨_, h⟩).elim
  | refused thrown =>
    obtain ⟨outcome, left, hrun, hleft, -, -, -, rfl⟩ :=
      ((Dice.Spec.asks_throwAll thrown).bind_pure
        fun _ ↦ (none : Option Effect)).onTable_of_endless hendless
    exact ⟨none, left, hrun, hleft, fun _ ↦ rfl⟩

theorem not_answers_evaluate? {specification : String} {digits : List Char}
    (h : Misnumbered specification.toList digits) (points : Int) {table : Table}
    (hendless : table.source.Endless) : ¬ (evaluate? specification points).Answers table := by
  have hjudged := judged_evaluate? specification points
  generalize evaluate? specification points = procedure at hjudged ⊢
  cases hjudged with
  | evaluated hspecifies => exact (hspecifies.not_misnumbered ⟨digits, h⟩).elim
  | @misnumbered digits thrown =>
    obtain ⟨_, left, hrun, -⟩ := (Dice.Spec.asks_throwAll thrown).onTable_of_endless hendless
    rw [Throw.Answers, Throw.onTable_bind, hrun]
    exact nofun
  | refused thrown hnot hnone => exact (hnone ⟨digits, h⟩).elim

end Effect

/-! ### All together -/

/-- An effect that has an amount has a date of its end. -/
theorem exists_onTable_effectExpiry? (current : Moment) (specification : String) (points : Int)
    {table : Table} (hendless : table.source.Endless)
    (hnone : ¬ ∃ digits, Effect.Misnumbered specification.toList digits) :
    ∃ outcome, ((effectExpiry? current specification points).onTable table).1 = .ok outcome ∧
      ((¬ ∃ e unit, Effect.Specifies specification.toList e unit) → outcome = none) := by
  obtain ⟨effect?, left, hrun, hleft, hrefused⟩ :=
    Effect.exists_onTable_evaluate? specification points hendless hnone
  rw [effectExpiry?, Throw.onTable_bind, hrun]
  cases effect? with
  | none => exact ⟨none, rfl, fun _ ↦ rfl⟩
  | some effect =>
    have hanswers := (answers_expiry_iff current effect.text hleft).mpr
      fun h ↦ Effect.not_misnumbered_text effect h.2
    obtain ⟨moment, hmoment⟩ := hanswers
    refine ⟨some moment, ?_, fun hnot ↦ ?_⟩
    · simp only [Throw.onTable_map, hmoment]
      rfl
    · cases hrefused hnot

/-- When the dice do not run out, only misplaced digits keep a text from an answer. A text that is
not understood otherwise gives no duration and leaves a date as it is. -/
theorem answers_iff_not_misnumbered (text : String) (points : Int) (current : Moment)
    (table : Table) (hendless : table.source.Endless) :
    ((resolve? text).Answers table ↔ ¬ ∃ digits, ShelfLife.Misnumbered text.toList digits) ∧
    ((expiry current text).Answers table ↔
      ¬ (Readable current ∧ ∃ digits, ShelfLife.Misnumbered text.toList digits)) ∧
    ((Effect.evaluate? text points).Answers table ↔
      ¬ ∃ digits, Effect.Misnumbered text.toList digits) ∧
    ((effectExpiry? current text points).Answers table ↔
      ¬ ∃ digits, Effect.Misnumbered text.toList digits) ∧
    ((¬ ∃ shelfLife, ShelfLife.Says text.toList shelfLife) →
      (¬ ∃ digits, ShelfLife.Misnumbered text.toList digits) →
      ((resolve? text).onTable table).1 = .ok none ∧
        ((expiry current text).onTable table).1 = .ok current) ∧
    ((¬ ∃ e unit, Effect.Specifies text.toList e unit) →
      (¬ ∃ digits, Effect.Misnumbered text.toList digits) →
      ((Effect.evaluate? text points).onTable table).1 = .ok none ∧
        ((effectExpiry? current text points).onTable table).1 = .ok none) := by
  refine ⟨ShelfLife.answers_resolve?_iff text hendless, answers_expiry_iff current text hendless,
    ⟨?_, ?_⟩, ⟨?_, ?_⟩, ?_, ?_⟩
  · rintro hanswers ⟨digits, h⟩
    exact Effect.not_answers_evaluate? h points hendless hanswers
  · intro hnone
    obtain ⟨outcome, left, hrun, -⟩ :=
      Effect.exists_onTable_evaluate? text points hendless hnone
    exact ⟨outcome, by rw [hrun]⟩
  · rintro hanswers ⟨digits, h⟩
    exact Effect.not_answers_evaluate? h points hendless hanswers.of_bind
  · intro hnone
    obtain ⟨outcome, hrun, -⟩ := exists_onTable_effectExpiry? current text points hendless hnone
    exact ⟨outcome, hrun⟩
  · intro hnot hnone
    have hrefused := ShelfLife.resolve?_of_refused hnot hnone
    rw [expiry_of_refused current hrefused, hrefused]
    exact ⟨rfl, rfl⟩
  · intro hnot hnone
    obtain ⟨effect?, left, hrun, -, hrefused⟩ :=
      Effect.exists_onTable_evaluate? text points hendless hnone
    obtain ⟨outcome, hend, hrefused'⟩ :=
      exists_onTable_effectExpiry? current text points hendless hnone
    exact ⟨by rw [hrun, hrefused hnot], by rw [hend, hrefused' hnot]⟩

/-- A single word that names no limit is not understood, neither as a shelf life nor as an
effect. -/
theorem answers_single_word :
    (Table.fresh Dice.Source.highest).source.Endless ∧
    ((resolve? "bald").onTable (Table.fresh Dice.Source.highest)).1 = .ok none ∧
    ((expiry (.text "15 Praios 1040 BF") "bald").onTable (Table.fresh Dice.Source.highest)).1 =
      .ok (.text "15 Praios 1040 BF") ∧
    ((Effect.evaluate? "bald" 7).onTable (Table.fresh Dice.Source.highest)).1 = .ok none ∧
    ((effectExpiry? (.text "15 Praios 1040 BF") "bald" 7).onTable
      (Table.fresh Dice.Source.highest)).1 = .ok none := by
  have hendless : (Table.fresh Dice.Source.highest).source.Endless := fun n sides ↦ ⟨sides, rfl⟩
  have hsolid : Text.Solid "bald".toList := by decide
  have hplain : ShelfLife.plain "bald".toList = "bald".toList := by decide +kernel
  have hlimited : ShelfLife.isUnlimited (ShelfLife.plain "bald".toList) = false := by
    decide +kernel
  have hwords : Text.words (ShelfLife.plain "bald".toList) = ["bald".toList] := by
    rw [hplain, Text.words_of_solid (by decide) hsolid]
  obtain ⟨-, -, -, -, hshelf, heffect⟩ :=
    answers_iff_not_misnumbered "bald" 7 (.text "15 Praios 1040 BF") _ hendless
  obtain ⟨hresolve, hexpiry⟩ := hshelf
    (by
      rintro ⟨shelfLife, hsays⟩
      cases hsays with
      | unlimited h => cases hlimited.symm.trans h
      | limited h => exact h.words_ne_singleton _ hwords)
    (by
      rintro ⟨digits, ⟨unit, h, -⟩, -⟩
      exact h.words_ne_singleton _ hwords)
  obtain ⟨hevaluate, heffectExpiry⟩ := heffect
    (by
      rintro ⟨e, unit, body, h, -⟩
      exact h.not_solid hsolid)
    (by
      rintro ⟨digits, body, unit, h, -⟩
      exact h.not_solid hsolid)
  exact ⟨hendless, hresolve, hexpiry, hevaluate, heffectExpiry⟩

/-- A superscript two passes for digits and is no number. -/
theorem not_answers_superscript :
    ¬ (resolve? "² Tage").Answers (Table.fresh Dice.Source.highest) := by
  have hplain : ShelfLife.plain "² Tage".toList = ['²'] ++ ' ' :: "tage".toList := by
    decide +kernel
  have hwords : ShelfLife.HasWords "² Tage".toList ['²'] "tage".toList := by
    refine ⟨by decide +kernel, ?_⟩
    rw [hplain, Text.words_word_append (by decide) (by decide) rfl,
      Text.words_of_solid (by decide) (by decide)]
    decide +kernel
  have hunit : (wordDays? "tage".toList).isSome = true := by decide +kernel
  rw [ShelfLife.answers_resolve?_iff "² Tage" fun n sides ↦ ⟨sides, rfl⟩, not_not]
  exact ⟨['²'], ⟨"tage".toList, hwords, hunit⟩, by decide +kernel, by decide +kernel⟩

end Aventuria.Duration
