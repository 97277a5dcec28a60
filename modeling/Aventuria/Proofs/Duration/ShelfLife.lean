import Aventuria.Duration.ShelfLife
import Aventuria.Proofs.Dice.Asking
import Aventuria.Proofs.Dice.Notation
import Aventuria.Proofs.Text.Character
import Aventuria.Proofs.Text.Trim

/-!
# What shelf lives say

A shelf life says that there is no limit, or it names an amount and a unit (`ShelfLife.Says`). The
reader finds what a text says (`ShelfLife.ofChars_eq_ok_some_iff`), and its only fault is an amount
of digits that are no number in front of a known unit (`ShelfLife.ofChars_eq_error_iff`).
-/

set_option autoImplicit false
set_option relaxedAutoImplicit false

namespace Aventuria.Duration

/-! ### Amounts -/

/-- The amounts that words stand for: idioms, numbers and dice. -/
inductive Amount.Names : List Char → Amount → Prop
  | idiom {word : List Char} {n : Nat} (h : idioms.lookup (String.ofList word) = some n) :
      Names word (.fixed n)
  | number {word : List Char} {n : Nat} (h : Text.decimal? word = some n) : Names word (.fixed n)
  | dice {word : List Char} {spec : Dice.Spec} (h : Dice.Spec.ofChars word = .ok spec) :
      Names word (.rolled spec)

namespace Amount

/-- A dice expression has a letter, so it does not consist of digits. -/
theorem allDigits_of_dice {word : List Char} {spec : Dice.Spec}
    (h : Dice.Spec.ofChars word = .ok spec) : Text.allDigits word = false := by
  rw [← Bool.not_eq_true]
  intro hdigits
  have hall := List.all_eq_true.mp (Bool.and_eq_true_iff.mp hdigits).2
  have hmark := (Dice.Spec.spells_of_ofChars h).allDigits_eq_false
  rw [Text.trim_of_solid fun c hc ↦ Text.not_isBlank_of_isDigitLike (hall c hc), hdigits] at hmark
  cases hmark

/-- An idiom is neither a number nor a dice expression. -/
theorem idiom_facts {word : List Char} {n : Nat} (h : idioms.lookup (String.ofList word) = some n) :
    Text.allDigits word = false ∧ Dice.Spec.ofChars? word = none := by
  have hword : word = "einige".toList ∨ word = "mehrere".toList := by
    obtain ⟨before, after, hidioms, -⟩ := List.lookup_eq_some_iff.mp h
    have hmem : (String.ofList word, n) ∈ idioms := by simp [hidioms]
    simp only [idioms, List.mem_cons, Prod.mk.injEq, List.not_mem_nil, or_false] at hmem
    rcases hmem with ⟨h, -⟩ | ⟨h, -⟩
    · exact .inl (by rw [← h, String.toList_ofList])
    · exact .inr (by rw [← h, String.toList_ofList])
  rcases hword with rfl | rfl
  · exact ⟨by decide +kernel, by decide +kernel⟩
  · exact ⟨by decide +kernel, by decide +kernel⟩

/-- The words that are looked up have letters of their own. -/
theorem ofList_ne_of_isNotation {word : List Char}
    (hword : ∀ c ∈ word, Dice.Spec.isNotation c = true) {name : String}
    (hname : name.toList.all Dice.Spec.isNotation = false) : String.ofList word ≠ name := by
  rintro rfl
  rw [String.toList_ofList, List.all_eq_true.mpr hword] at hname
  cases hname

theorem lookup_of_isNotation {word : List Char}
    (hword : ∀ c ∈ word, Dice.Spec.isNotation c = true) :
    idioms.lookup (String.ofList word) = none := by
  have hall : ∀ idiom ∈ idioms, idiom.1.toList.all Dice.Spec.isNotation = false := by
    decide +kernel
  exact List.lookup_eq_none_iff.mpr fun idiom hidiom ↦
    bne_iff_ne.mpr (ofList_ne_of_isNotation hword (hall idiom hidiom))

theorem approximations_contains_of_isNotation {word : List Char}
    (hword : ∀ c ∈ word, Dice.Spec.isNotation c = true) :
    approximations.contains (String.ofList word) = false := by
  have hall : ∀ name ∈ approximations, name.toList.all Dice.Spec.isNotation = false := by
    decide +kernel
  rw [← Bool.not_eq_true, List.contains_iff_mem]
  exact fun hmem ↦ ofList_ne_of_isNotation hword (hall _ hmem) rfl

theorem allDigits_of_decimal? {word : List Char} {n : Nat} (h : Text.decimal? word = some n) :
    Text.allDigits word = true := by
  obtain ⟨hne, hall⟩ := (Text.decimal?_eq_some_iff.mp h).1
  have hdigits : word.all Text.isDigitLike = true :=
    List.all_eq_true.mpr fun c hc ↦ Text.isDigitLike_of_isDecimal (hall c hc)
  rw [Text.allDigits, hdigits, List.isEmpty_eq_false_iff.mpr hne]
  rfl

/-- What is done with a word that is no idiom. -/
theorem ofWord_eq {word : List Char} (h : idioms.lookup (String.ofList word) = none) :
    ofWord word =
      if Text.allDigits word then
        match Text.decimal? word with
        | some n => .ok (some (.fixed n))
        | none => .error (.notANumber (String.ofList word))
      else .ok ((Dice.Spec.ofChars? word).map .rolled) := by
  rw [ofWord, h]
  cases hdecimal : Text.decimal? word with
  | none => simp only [numberOfDigits, hdecimal, error_bind]
  | some n => simp only [numberOfDigits, hdecimal, ok_bind]

theorem lookup_eq_none {word : List Char}
    (h : Text.allDigits word = true ∨ ∃ spec, Dice.Spec.ofChars word = .ok spec) :
    idioms.lookup (String.ofList word) = none := by
  cases hidiom : idioms.lookup (String.ofList word) with
  | none => rfl
  | some n =>
    obtain ⟨hdigits, hdice⟩ := idiom_facts hidiom
    rcases h with h | ⟨spec, h⟩
    · rw [h] at hdigits
      cases hdigits
    · rw [Dice.Spec.ofChars?, h] at hdice
      cases hdice

theorem ofWord_eq_ok_some_iff {word : List Char} {amount : Amount} :
    ofWord word = .ok (some amount) ↔ Names word amount := by
  constructor
  · intro h
    cases hidiom : idioms.lookup (String.ofList word) with
    | some n =>
      rw [ofWord, hidiom] at h
      cases h
      exact .idiom hidiom
    | none =>
      rw [ofWord_eq hidiom] at h
      split at h
      · cases hdecimal : Text.decimal? word with
        | none =>
          rw [hdecimal] at h
          cases h
        | some n =>
          rw [hdecimal] at h
          cases h
          exact .number hdecimal
      · cases hdice : Dice.Spec.ofChars word with
        | error fault =>
          rw [Dice.Spec.ofChars?, hdice] at h
          cases h
        | ok spec =>
          rw [Dice.Spec.ofChars?, hdice] at h
          cases h
          exact .dice hdice
  · intro h
    cases h with
    | idiom h => rw [ofWord, h]
    | number h =>
      have hdigits := allDigits_of_decimal? h
      rw [ofWord_eq (lookup_eq_none (.inl hdigits)), if_pos hdigits, h]
    | @dice spec h =>
      have hdigits : ¬ Text.allDigits word = true := by simp [allDigits_of_dice h]
      rw [ofWord_eq (lookup_eq_none (.inr ⟨spec, h⟩)), if_neg hdigits, Dice.Spec.ofChars?, h]
      rfl

theorem ofWord_eq_error_iff {word : List Char} {fault : Fault} :
    ofWord word = .error fault ↔
      (Text.allDigits word = true ∧ Text.decimal? word = none) ∧
        fault = .notANumber (String.ofList word) := by
  constructor
  · intro h
    cases hidiom : idioms.lookup (String.ofList word) with
    | some n =>
      rw [ofWord, hidiom] at h
      cases h
    | none =>
      rw [ofWord_eq hidiom] at h
      split at h
      · next hdigits =>
        cases hdecimal : Text.decimal? word with
        | none =>
          rw [hdecimal] at h
          cases h
          exact ⟨⟨hdigits, rfl⟩, rfl⟩
        | some n =>
          rw [hdecimal] at h
          cases h
      · cases h
  · rintro ⟨⟨hdigits, hnone⟩, rfl⟩
    rw [ofWord_eq (lookup_eq_none (.inl hdigits)), if_pos hdigits, hnone]

end Amount

namespace ShelfLife

/-- The text in small letters and trimmed. -/
def plain (text : List Char) : List Char :=
  Text.lowerAll (Text.trim text)

/-- The text is limited and consists of two words, but for an approximation in front. -/
structure HasWords (text amount unit : List Char) : Prop where
  limited : isUnlimited (plain text) = false
  exactWords_eq : exactWords (Text.words (plain text)) = [amount, unit]

/-- A single word is no amount with a unit. -/
theorem HasWords.words_ne_singleton {text amount unit : List Char} (h : HasWords text amount unit)
    (only : List Char) : Text.words (plain text) ≠ [only] := by
  intro hwords
  have hexact := h.exactWords_eq
  rw [hwords, exactWords] at hexact
  split at hexact <;> cases hexact

/-- What a text says about the shelf life of something. -/
inductive Says (text : List Char) : ShelfLife → Prop
  | unlimited (h : isUnlimited (plain text) = true) : Says text .unlimited
  | limited {word unit : List Char} {amount : Amount} {days : Nat} (h : HasWords text word unit)
      (hamount : Amount.Names word amount) (hunit : wordDays? unit = some days) :
      Says text (.limited amount days)

/-- The text has a known unit, and in front of it digits that are no number. -/
structure Misnumbered (text digits : List Char) : Prop where
  exists_unit : ∃ unit, HasWords text digits unit ∧ (wordDays? unit).isSome
  allDigits : Text.allDigits digits = true
  decimal?_eq_none : Text.decimal? digits = none

theorem ofChars_eq (text : List Char) :
    ofChars text =
      if isUnlimited (plain text) then .ok (some unlimited)
      else ofWords (exactWords (Text.words (plain text))) := rfl

/-- A text of two words whose second one is a unit is read as its first one. -/
theorem ofChars_of_hasWords {text word unit : List Char} {days : Nat} (h : HasWords text word unit)
    (hunit : wordDays? unit = some days) :
    ofChars text = (Amount.ofWord word).map fun amount? ↦ amount?.map (limited · days) := by
  rw [ofChars_eq, if_neg (by simp [h.limited]), h.exactWords_eq, ofWords, hunit]

/-- Every other text is without a limit or says nothing. -/
theorem ofChars_cases (text : List Char) :
    (isUnlimited (plain text) = true ∧ ofChars text = .ok (some unlimited)) ∨
      (∃ word unit days, HasWords text word unit ∧ wordDays? unit = some days) ∨
      ofChars text = .ok none := by
  cases hlimit : isUnlimited (plain text) with
  | true => exact .inl ⟨rfl, by rw [ofChars_eq, if_pos hlimit]⟩
  | false =>
    refine .inr ?_
    rw [ofChars_eq, if_neg (by simp [hlimit])]
    cases hwords : exactWords (Text.words (plain text)) with
    | nil => exact .inr rfl
    | cons word later =>
      cases later with
      | nil => exact .inr rfl
      | cons unit later =>
        cases later with
        | cons third later => exact .inr rfl
        | nil =>
          cases hunit : wordDays? unit with
          | some days => exact .inl ⟨word, unit, days, ⟨hlimit, hwords⟩, hunit⟩
          | none => exact .inr (by rw [ofWords, hunit])

theorem ofChars_eq_ok_some_iff {text : List Char} {shelfLife : ShelfLife} :
    ofChars text = .ok (some shelfLife) ↔ Says text shelfLife := by
  constructor
  · intro h
    rcases ofChars_cases text with ⟨hlimit, hread⟩ | ⟨word, unit, days, hwords, hunit⟩ | hread
    · rw [hread] at h
      cases h
      exact .unlimited hlimit
    · rw [ofChars_of_hasWords hwords hunit] at h
      cases hamount : Amount.ofWord word with
      | error fault =>
        rw [hamount] at h
        cases h
      | ok amount? =>
        cases amount? with
        | none =>
          rw [hamount] at h
          cases h
        | some amount =>
          rw [hamount] at h
          cases h
          exact .limited hwords (Amount.ofWord_eq_ok_some_iff.mp hamount) hunit
    · rw [hread] at h
      cases h
  · intro h
    cases h with
    | unlimited h => rw [ofChars_eq, if_pos h]
    | limited h hamount hunit =>
      rw [ofChars_of_hasWords h hunit, Amount.ofWord_eq_ok_some_iff.mpr hamount]
      rfl

theorem ofChars_eq_error_iff {text : List Char} {fault : Fault} :
    ofChars text = .error fault ↔
      ∃ digits, Misnumbered text digits ∧ fault = .notANumber (String.ofList digits) := by
  constructor
  · intro h
    rcases ofChars_cases text with ⟨-, hread⟩ | ⟨word, unit, days, hwords, hunit⟩ | hread
    · rw [hread] at h
      cases h
    · rw [ofChars_of_hasWords hwords hunit] at h
      cases hamount : Amount.ofWord word with
      | ok amount? =>
        rw [hamount] at h
        cases h
      | error fault =>
        rw [hamount] at h
        cases h
        obtain ⟨⟨hdigits, hnone⟩, rfl⟩ := Amount.ofWord_eq_error_iff.mp hamount
        exact ⟨word, ⟨⟨unit, hwords, hunit ▸ rfl⟩, hdigits, hnone⟩, rfl⟩
    · rw [hread] at h
      cases h
  · rintro ⟨digits, ⟨⟨unit, hwords, hknown⟩, hdigits, hnone⟩, rfl⟩
    obtain ⟨days, hunit⟩ := Option.isSome_iff_exists.mp hknown
    rw [ofChars_of_hasWords hwords hunit, Amount.ofWord_eq_error_iff.mpr ⟨⟨hdigits, hnone⟩, rfl⟩]
    rfl

end ShelfLife

end Aventuria.Duration
