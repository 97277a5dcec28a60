import Aventuria.Calendar.DateText
import Aventuria.Proofs.Calendar.DayIndex
import Aventuria.Proofs.Text.Numeral
import Aventuria.Proofs.Text.Words

/-!
# Dates as texts

A date that is written out with an era is read back as the same date and era (`ofText?_format`), for
every month, the Nameless Days with their two words among them, and for years of either sign. An
era is a word of letters, and every era that is read is one (`isEra_of_ofText?`). A date is expired
after its day (`isExpired_iff`).
-/

set_option autoImplicit false
set_option relaxedAutoImplicit false

namespace Aventuria.Calendar

open Text (Solid numeral)

/-! ### Numbers -/

/-- The characters in which a year is written, its sign among them. -/
abbrev yearNumeral (year : Int) : List Char := (toString year).toList

theorem yearNumeral_facts (year : Int) : yearNumeral year ≠ [] ∧ Solid (yearNumeral year) := by
  cases year with
  | ofNat n => exact ⟨Text.numeral_ne_nil n, Text.solid_numeral n⟩
  | negSucc n =>
    rw [yearNumeral, Text.toList_toString_negSucc]
    exact ⟨List.cons_ne_nil _ _, Text.solid_cons.mpr ⟨rfl, Text.solid_numeral _⟩⟩

namespace DatedText

theorem readDay?_numeral (n : Nat) : readDay? (numeral n) = some n := by
  have hend : ∀ c ∈ ([] : List Char).head?, Text.isDecimal c = false := nofun
  obtain ⟨htake, hdrop⟩ := Text.run_append (fun _ ↦ Text.isDecimal_of_mem_numeral (n := n)) hend
  rw [List.append_nil] at htake hdrop
  rw [readDay?, hdrop, htake]
  exact Text.decimal?_numeral n

theorem readYear?_yearNumeral (year : Int) : readYear? (yearNumeral year) = some year := by
  cases year with
  | ofNat n =>
    have hread : readYear? (numeral n) = (Text.decimal? (numeral n)).map Int.ofNat := by
      rw [readYear?.eq_def]
      split
      · next digits hdigits =>
        have hminus : '-' ∈ numeral n := by simp [hdigits]
        exact absurd (Text.isDigit_of_mem_numeral hminus) (by decide)
      · rfl
    exact hread.trans (by rw [Text.decimal?_numeral]; rfl)
  | negSucc n =>
    rw [yearNumeral, Text.toList_toString_negSucc, readYear?, Text.decimal?_numeral]
    rfl

/-! ### Eras -/

/-- A word of letters, as an era is. -/
structure IsEra (era : String) : Prop where
  ne_nil : era.toList ≠ []
  isLatin : ∀ c ∈ era.toList, Text.isLatin c = true

theorem isEra_of_isAlpha {era : String} (hne : era ≠ "")
    (h : era.toList.all Char.isAlpha = true) : IsEra era := by
  refine ⟨fun hnil ↦ hne (String.toList_eq_nil_iff.mp hnil), fun c hc ↦ ?_⟩
  have halpha := List.all_eq_true.mp h c hc
  exact Text.of_ascii (p := fun c ↦ c.isAlpha = true → Text.isLatin c = true) (by decide)
    (Text.toNat_lt_of_isAlpha halpha) halpha

theorem isEra_defaultEra : IsEra defaultEra :=
  isEra_of_isAlpha (by decide) (by decide)

theorem IsEra.solid {era : String} (h : IsEra era) : Solid era.toList :=
  fun c hc ↦ Text.not_isBlank_of_isLatin (h.isLatin c hc)

theorem IsEra.readEra?_eq {era : String} (h : IsEra era) : readEra? [era.toList] = some era := by
  rw [readEra?, if_pos (List.all_eq_true.mpr h.isLatin), String.ofList_toList]

theorem isEra_of_readEra? {words : List (List Char)} {era : String}
    (hwords : ∀ word ∈ words, word ≠ []) (h : readEra? words = some era) : IsEra era := by
  rw [readEra?.eq_def] at h
  split at h
  · cases h
    exact isEra_defaultEra
  · next word =>
    split at h
    · next hall =>
      cases h
      refine ⟨?_, ?_⟩
      · rw [String.toList_ofList]
        exact hwords word List.mem_cons_self
      · rw [String.toList_ofList]
        exact List.all_eq_true.mp hall
    · cases h
  · cases h

theorem readEra?_of_assemble? {day year : List Char} {month : Month} {words : List (List Char)}
    {dated : DatedText} (h : assemble? day month year words = some dated) :
    readEra? words = some dated.era := by
  simp only [assemble?, Option.bind_eq_bind, Option.bind_eq_some_iff] at h
  obtain ⟨-, -, -, -, era, hera, date, -, hdated⟩ := h
  rw [← Option.some.inj hdated]
  exact hera

/-- The era of a date that is read is a word of letters. -/
theorem isEra_of_ofText? {text : String} {dated : DatedText} (h : ofText? text = some dated) :
    IsEra dated.era := by
  rw [ofText?, ofChars?] at h
  have hwords : ∀ word ∈ Text.words text.toList, word ≠ [] :=
    fun _ hword ↦ (Text.word_facts hword).1
  generalize Text.words text.toList = words at h hwords
  rw [ofWords?.eq_def] at h
  split at h
  · next day first second rest =>
    split at h
    · exact isEra_of_readEra? (fun word hword ↦ hwords word (by simp [hword]))
        (readEra?_of_assemble? h)
    · split at h
      · exact isEra_of_readEra? (fun word hword ↦ hwords word (by simp [hword]))
          (readEra?_of_assemble? h)
      · cases h
  · cases h

/-! ### Writing and reading -/

theorem toList_format (dated : DatedText) :
    (format dated).toList =
      numeral dated.date.day ++ ' ' :: (dated.date.month.name.toList ++
        ' ' :: (yearNumeral dated.date.year ++ ' ' :: dated.era.toList)) := by
  simp only [format, String.toList_append, List.append_assoc]
  rfl

end DatedText

namespace Month

theorem ofChars?_name (month : Month) : ofChars? month.name.toList = some month := by
  cases month <;> decide

theorem words_name {month : Month} (h : month ≠ .namelessDays) :
    Text.words month.name.toList = [month.name.toList] := by
  have hfacts : month.name.toList ≠ [] ∧ Solid month.name.toList := by
    cases month <;> first | exact absurd rfl h | decide
  exact Text.words_of_solid hfacts.1 hfacts.2

theorem words_name_namelessDays :
    Text.words (name .namelessDays).toList = ["Namenlose".toList, "Tage".toList] := by
  have hsplit : (name .namelessDays).toList = "Namenlose".toList ++ ' ' :: "Tage".toList := by
    decide
  rw [hsplit, Text.words_word_append (by decide) (by decide) rfl,
    Text.words_of_solid (by decide) (by decide)]

end Month

namespace DatedText

/-- The words of the name of a month make up that month again. -/
theorem ofWords?_name (month : Month) (day year : List Char) (era : List (List Char)) :
    ofWords? (day :: (Text.words month.name.toList ++ year :: era)) =
      assemble? day month year era := by
  by_cases hmonth : month = .namelessDays
  · subst hmonth
    have hnone : Month.ofChars? "Namenlose".toList = none := by decide
    have hsome : Month.ofChars? ("Namenlose".toList ++ ' ' :: "Tage".toList) =
        some .namelessDays := by
      decide
    rw [Month.words_name_namelessDays]
    simp only [List.cons_append, List.nil_append, ofWords?, hnone]
    rw [hsome]
  · rw [Month.words_name hmonth]
    simp only [List.cons_append, List.nil_append, ofWords?, Month.ofChars?_name]

theorem words_format {dated : DatedText} (hera : IsEra dated.era) :
    Text.words (format dated).toList =
      numeral dated.date.day :: (Text.words dated.date.month.name.toList ++
        yearNumeral dated.date.year :: [dated.era.toList]) := by
  obtain ⟨hyear, hsolid⟩ := yearNumeral_facts dated.date.year
  rw [toList_format, Text.words_word_append (Text.numeral_ne_nil _) (Text.solid_numeral _) rfl,
    Text.words_append_cons rfl, Text.words_word_append hyear hsolid rfl,
    Text.words_of_solid hera.ne_nil hera.solid]

/-- A date that is written out is read back with its era. -/
theorem ofText?_format {dated : DatedText} (hera : IsEra dated.era) :
    ofText? (format dated) = some dated := by
  have hdate : Date.build? dated.date.day dated.date.month dated.date.year = some dated.date := by
    rw [Date.build?, Date.build_parts]
    rfl
  rw [ofText?, ofChars?, words_format hera, ofWords?_name, assemble?, readDay?_numeral,
    readYear?_yearNumeral, hera.readEra?_eq]
  simp only [Option.bind_eq_bind, Option.bind_some, hdate]

end DatedText

/-! ### Expiry -/

namespace Date

theorem isExpired_iff {expiry current : String} :
    isExpired expiry current = true ↔
      ∃ last now, ofText? expiry = some last ∧ ofText? current = some now ∧
        last.dayIndex < now.dayIndex := by
  rw [isExpired]
  cases ofText? expiry with
  | none => simp
  | some last =>
    cases ofText? current with
    | none => simp
    | some now =>
      have hafter : Comparison.after.holds now last = true ↔ last.dayIndex < now.dayIndex := by
        rw [Comparison.holds_eq, Comparison.accepts, Ordering.isGT_iff_eq_gt, compare_gt_iff_gt]
      simp [hafter]

end Date

end Aventuria.Calendar
