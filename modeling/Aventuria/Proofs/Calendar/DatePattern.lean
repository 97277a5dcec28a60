import Mathlib.Data.Bool.AllAny
import Mathlib.Data.List.Basic
import Aventuria.Proofs.Calendar.DateText

/-!
# The pattern of written dates

A written date has a day, a month, a year and perhaps an era, in this order, with blanks between
them and around them (`DatedText.Spells`). Its parts are read one by one (`DatedText.Parts.read`),
and none of the numbers in them can be a fault: the texts that follow the pattern are read as what
their parts are, and no other text is read (`DatedText.read_of_spells`,
`DatedText.exists_spells_of_ofChars?`). So what is written is read, what is read and written again is
read as the same, and a day and a month name are valid exactly where there is such a date
(`written_dates_are_read`).
-/

set_option autoImplicit false
set_option relaxedAutoImplicit false

namespace Aventuria.Calendar

open Text (Blanks Run Solid numeral)

/-! ### Month names -/

/-- The letters of month names: the plain ones, the umlauts and the sharp s, in either case. -/
def isMonthLetter (c : Char) : Bool :=
  Text.isLatin c || ['ä', 'ö', 'ü', 'ß'].contains (Text.patternLetter c)

theorem not_isBlank_of_isMonthLetter {c : Char} (h : isMonthLetter c = true) :
    Text.isBlank c = false := by
  rcases Bool.or_eq_true_iff.mp h with hlatin | humlaut
  · exact Text.not_isBlank_of_isLatin hlatin
  · rw [← Bool.not_eq_true]
    intro hblank
    have hall : ['ä', 'ö', 'ü', 'ß'].all (fun u ↦ !Text.isBlank u) = true := by decide
    rw [Text.patternLetter_of_isBlank hblank, List.contains_iff_mem] at humlaut
    have hc := List.all_eq_true.mp hall c humlaut
    rw [hblank] at hc
    cases hc

/-- The pattern of a month: a word of letters, or the two words of the Nameless Days. -/
inductive SpellsMonth : List Char → Prop
  | word {name : List Char} (h : Run isMonthLetter name) : SpellsMonth name
  | namelessDays {first gap second : List Char}
      (hfirst : first.map Text.patternLetter = "namenlose".toList) (hgap : Run Text.isBlank gap)
      (hsecond : second.map Text.patternLetter = "tage".toList) :
      SpellsMonth (first ++ gap ++ second)

theorem SpellsMonth.of_isLatin {name : List Char} (h : Run Text.isLatin name) : SpellsMonth name :=
  .word ⟨h.ne_nil, fun c hc ↦ by rw [isMonthLetter, h.all c hc, Bool.true_or]⟩

/-- Letters that match a plain word are a run of plain letters. -/
theorem run_isLatin_of_map {letters word : List Char} (hne : word ≠ [])
    (hplain : word.all fun w ↦ 'a' ≤ w ∧ w ≤ 'z') (h : letters.map Text.patternLetter = word) :
    Run Text.isLatin letters := by
  subst h
  refine ⟨fun hnil ↦ hne (by rw [hnil, List.map_nil]), fun c hc ↦ ?_⟩
  simpa [Text.isLatin] using List.all_eq_true.mp hplain _ (List.mem_map_of_mem hc)

theorem run_first {first : List Char}
    (h : first.map Text.patternLetter = "namenlose".toList) : Run Text.isLatin first :=
  run_isLatin_of_map (by decide) (by decide) h

theorem run_second {second : List Char} (h : second.map Text.patternLetter = "tage".toList) :
    Run Text.isLatin second :=
  run_isLatin_of_map (by decide) (by decide) h

namespace Month

/-- Small letters and spaces make up the name of a month. -/
theorem plain_of_mem_name {month : Month} {w : Char} (h : w ∈ Text.lowerAll month.name.toList) :
    w = ' ' ∨ 'a' ≤ w ∧ w ≤ 'z' := by
  have hplain : (Text.lowerAll month.name.toList).all fun w ↦ w = ' ' ∨ 'a' ≤ w ∧ w ≤ 'z' := by
    cases month <;> decide
  simpa using List.all_eq_true.mp hplain w h

theorem toNat_lt_of_mem_name {month : Month} {w : Char} (h : w ∈ Text.lowerAll month.name.toList) :
    w.toNat < 128 := by
  rcases plain_of_mem_name h with rfl | ⟨-, hz⟩
  · decide
  · have hz : w.toNat ≤ 'z'.toNat := hz
    exact Nat.lt_of_le_of_lt hz (by decide)

theorem map_patternLetter_of_ofChars? {name : List Char} {month : Month}
    (h : ofChars? name = some month) :
    name.map Text.patternLetter = Text.lowerAll month.name.toList := by
  have hsame : Text.lowerAll month.name.toList = Text.lowerAll name := by
    simpa using List.find?_some h
  have hforeign : ∀ w ∈ Text.patternOnlyLetters, ¬ w.toNat < 128 :=
    List.all_iff_forall_prop.mp (by decide)
  exact Text.map_patternLetter_of_lowerAll
    (fun w hw hpattern ↦ hforeign w hpattern (toNat_lt_of_mem_name hw)) hsame.symm

/-- A name of a month is a word of plain letters or has the two words of the Nameless Days, one
space between them. -/
theorem ofChars?_cases {name : List Char} {month : Month} (h : ofChars? name = some month) :
    Run Text.isLatin name ∨
      ∃ first second, name = first ++ ' ' :: second ∧
        first.map Text.patternLetter = "namenlose".toList ∧
        second.map Text.patternLetter = "tage".toList := by
  have hmap := map_patternLetter_of_ofChars? h
  by_cases hmonth : month = .namelessDays
  · have hsplit : Text.lowerAll (Month.name .namelessDays).toList =
        "namenlose".toList ++ ' ' :: "tage".toList := by
      decide
    rw [hmonth, hsplit] at hmap
    obtain ⟨first, rest, rfl, hfirst, hrest⟩ := List.map_eq_append_iff.mp hmap
    obtain ⟨c, second, rfl, hc, hsecond⟩ := List.map_eq_cons_iff.mp hrest
    have hlower := (Text.patternLetter_eq_iff (by decide) (by decide)).mp hc
    have hspace : c = ' ' :=
      Text.of_ascii (p := fun c ↦ c.toLower = ' ' → c = ' ') (by decide)
        (Text.toNat_lt_of_toLower (by rw [hlower]; decide)) hlower
    exact .inr ⟨first, second, by rw [hspace], hfirst, hsecond⟩
  · have hplain : Text.lowerAll month.name.toList ≠ [] ∧
        (Text.lowerAll month.name.toList).all fun w ↦ 'a' ≤ w ∧ w ≤ 'z' := by
      cases month <;> first | exact absurd rfl hmonth | decide
    exact .inl (run_isLatin_of_map hplain.1 hplain.2 hmap)

theorem ofChars?_first {first : List Char}
    (h : first.map Text.patternLetter = "namenlose".toList) : ofChars? first = none := by
  rw [Option.eq_none_iff_forall_ne_some]
  intro month hmonth
  have hmap := h.symm.trans (map_patternLetter_of_ofChars? hmonth)
  cases month <;> exact absurd hmap (by decide)

/-- There is no digit in the name of a month. -/
theorem ofChars?_of_digit {name : List Char} {c : Char} (hc : c ∈ name)
    (hdigit : Text.isDecimal c = true) : ofChars? name = none := by
  rw [Option.eq_none_iff_forall_ne_some]
  intro month hmonth
  have hmem : c ∈ Text.lowerAll month.name.toList := by
    rw [← map_patternLetter_of_ofChars? hmonth,
      ← Text.patternLetter_of_isDigitLike (Text.isDigitLike_of_isDecimal hdigit)]
    exact List.mem_map_of_mem hc
  have hplain := Text.isDigit_of_isDecimal hdigit (toNat_lt_of_mem_name hmem)
  rcases plain_of_mem_name hmem with rfl | ⟨ha, -⟩
  · exact absurd hplain (by decide)
  · simp only [Char.isDigit, Bool.and_eq_true, decide_eq_true_eq] at hplain
    exact absurd (Char.le_trans ha hplain.2) (by decide)

end Month

namespace DatedText

/-! ### The pattern -/

/-- The parts of a written date as they stand in the text. -/
structure Parts where
  day : List Char
  month : List Char
  year : List Char
  era : Option (List Char)

/-- The pattern of a year: digits, a minus sign allowed in front of them. -/
inductive SpellsYear : List Char → Prop
  | unsigned {digits : List Char} (h : Run Text.isDecimal digits) : SpellsYear digits
  | negative {digits : List Char} (h : Run Text.isDecimal digits) : SpellsYear ('-' :: digits)

/-- The pattern of what stands behind the year: nothing, or a gap and an era. -/
inductive SpellsEra : List Char → Option (List Char) → Prop
  | missing : SpellsEra [] none
  | written {gap era : List Char} (hgap : Run Text.isBlank gap) (h : Run Text.isLatin era) :
      SpellsEra (gap ++ era) (some era)

/-- The pattern of a date: day, month, year and era with gaps between them, a full stop allowed
behind the day and blanks at both ends. -/
inductive Spells : List Char → Parts → Prop
  | intro {parts : Parts} {front stop gap gap' tail back : List Char} (hfront : Blanks front)
      (hday : Run Text.isDecimal parts.day) (hstop : stop = [] ∨ stop = ['.'])
      (hgap : Run Text.isBlank gap) (hmonth : SpellsMonth parts.month)
      (hgap' : Run Text.isBlank gap') (hyear : SpellsYear parts.year)
      (htail : SpellsEra tail parts.era) (hback : Blanks back) :
      Spells (front ++ (parts.day ++ stop) ++ gap ++ parts.month ++ gap' ++ parts.year ++ tail ++
        back) parts

/-- The number that a year stands for. -/
def numberOfYear (year : List Char) : Except Fault Int :=
  match readYear? year with
  | some n => .ok n
  | none => .error (.notANumber (String.ofList year))

/-- Reads the parts of a date one by one. The month is judged before the day, and the day before the
year is looked at; the date that is built in the end is judged once more. -/
def Parts.read (parts : Parts) : Except Fault (Option DatedText) :=
  match Month.ofChars? ([' '].intercalate (Text.words parts.month)) with
  | none => .ok none
  | some month => do
    let day ← numberOfDigits parts.day
    if Date.validDay day month then do
      let year ← numberOfYear parts.year
      let date ← Date.build day month year
      .ok (some ⟨date, parts.era.elim defaultEra String.ofList⟩)
    else .ok none

/-! ### Days, years and eras -/

theorem solid_stop {day stop : List Char} (hday : Run Text.isDecimal day)
    (hstop : stop = [] ∨ stop = ['.']) : day ++ stop ≠ [] ∧ Solid (day ++ stop) := by
  refine ⟨List.append_ne_nil_of_left_ne_nil hday.ne_nil _, ?_⟩
  refine List.forall_mem_append.mpr ⟨hday.solid Text.not_isBlank_of_isDecimal, ?_⟩
  rcases hstop with rfl | rfl
  · exact nofun
  · exact Text.solid_cons.mpr ⟨by decide, nofun⟩

theorem readDay?_of_run {day stop : List Char} (hday : Run Text.isDecimal day)
    (hstop : stop = [] ∨ stop = ['.']) : readDay? (day ++ stop) = some (Text.value day) := by
  have hend : ∀ c ∈ stop.head?, Text.isDecimal c = false := by
    rcases hstop with rfl | rfl
    · exact nofun
    · rintro c ⟨⟩
      decide
  obtain ⟨htake, hdrop⟩ := Text.run_append hday.all hend
  rw [readDay?, htake, hdrop, Text.decimal?_of_run hday]
  rcases hstop with rfl | rfl <;> rfl

theorem exists_run_of_readDay? {word : List Char} {n : Nat} (h : readDay? word = some n) :
    ∃ day stop, day ++ stop = word ∧ Run Text.isDecimal day ∧ (stop = [] ∨ stop = ['.']) := by
  refine ⟨word.takeWhile Text.isDecimal, word.dropWhile Text.isDecimal,
    List.takeWhile_append_dropWhile, ?_⟩
  rw [readDay?] at h
  split at h
  · next hstop => exact ⟨Text.run_of_decimal? h, .inl hstop⟩
  · next hstop => exact ⟨Text.run_of_decimal? h, .inr hstop⟩
  · cases h

theorem SpellsYear.solid {year : List Char} (h : SpellsYear year) : year ≠ [] ∧ Solid year := by
  cases h with
  | unsigned h => exact ⟨h.ne_nil, h.solid Text.not_isBlank_of_isDecimal⟩
  | negative h =>
    exact ⟨List.cons_ne_nil _ _,
      Text.solid_cons.mpr ⟨by decide, h.solid Text.not_isBlank_of_isDecimal⟩⟩

theorem SpellsYear.exists_digit {year : List Char} (h : SpellsYear year) :
    ∃ c ∈ year, Text.isDecimal c = true := by
  cases h with
  | unsigned h =>
    obtain ⟨c, hc⟩ := List.exists_mem_of_ne_nil _ h.ne_nil
    exact ⟨c, hc, h.all c hc⟩
  | negative h =>
    obtain ⟨c, hc⟩ := List.exists_mem_of_ne_nil _ h.ne_nil
    exact ⟨c, List.mem_cons_of_mem _ hc, h.all c hc⟩

theorem SpellsYear.exists_readYear? {year : List Char} (h : SpellsYear year) :
    ∃ n, readYear? year = some n := by
  cases h with
  | negative h => exact ⟨_, by rw [readYear?, Text.decimal?_of_run h]; rfl⟩
  | unsigned h =>
    rw [readYear?.eq_def]
    split
    · next digits =>
      exact absurd (h.all '-' List.mem_cons_self) (by decide)
    · exact ⟨_, by rw [Text.decimal?_of_run h]; rfl⟩

theorem spellsYear_of_readYear? {year : List Char} {n : Int} (h : readYear? year = some n) :
    SpellsYear year := by
  rw [readYear?.eq_def] at h
  split at h
  · next digits =>
    cases hdigits : Text.decimal? digits with
    | none =>
      rw [hdigits] at h
      cases h
    | some m => exact .negative (Text.run_of_decimal? hdigits)
  · cases hdigits : Text.decimal? year with
    | none =>
      rw [hdigits] at h
      cases h
    | some m => exact .unsigned (Text.run_of_decimal? hdigits)

theorem SpellsEra.readEra?_eq {tail : List Char} {era : Option (List Char)}
    (h : SpellsEra tail era) :
    readEra? era.toList = some (era.elim defaultEra String.ofList) := by
  cases h with
  | missing => rfl
  | written hgap h => exact if_pos (List.all_eq_true.mpr h.all)

/-! ### Reading by parts -/

/-- The words of a date that follows the pattern. -/
theorem Spells.words_eq {text : List Char} {parts : Parts} (h : Spells text parts) :
    ∃ stop, (stop = [] ∨ stop = ['.']) ∧
      Text.words text =
        (parts.day ++ stop) :: (Text.words parts.month ++ parts.year :: parts.era.toList) := by
  obtain ⟨hfront, hday, hstop, hgap, -, hgap', hyear, htail, hback⟩ := h
  obtain ⟨hne, hsolid⟩ := solid_stop hday hstop
  refine ⟨_, hstop, ?_⟩
  rw [Text.words_append_blanks hback]
  generalize parts.era = era at htail ⊢
  cases htail with
  | missing =>
    rw [List.append_nil, Text.words_append_gap hgap', Text.words_append_gap hgap,
      Text.words_blanks_append hfront, Text.words_of_solid hne hsolid,
      Text.words_of_solid hyear.solid.1 hyear.solid.2]
    rfl
  | written hgap'' hera =>
    rw [← List.append_assoc, Text.words_append_gap hgap'', Text.words_append_gap hgap',
      Text.words_append_gap hgap, Text.words_blanks_append hfront, Text.words_of_solid hne hsolid,
      Text.words_of_solid hyear.solid.1 hyear.solid.2,
      Text.words_of_run hera Text.not_isBlank_of_isLatin]
    simp

/-- A month of one word or of two is looked up with one space between its words. -/
theorem ofWords?_of_spellsMonth {month year : List Char} (hmonth : SpellsMonth month)
    (hyear : SpellsYear year) (day : List Char) (era : List (List Char)) :
    ofWords? (day :: (Text.words month ++ year :: era)) =
      match Month.ofChars? ([' '].intercalate (Text.words month)) with
      | none => none
      | some month => assemble? day month year era := by
  cases hmonth with
  | word h =>
    rw [Text.words_of_run h not_isBlank_of_isMonthLetter,
      List.intercalate_singleton]
    simp only [List.cons_append, List.nil_append, ofWords?]
    cases Month.ofChars? month with
    | some _ => rfl
    | none =>
      obtain ⟨c, hc, hdigit⟩ := hyear.exists_digit
      have hnone : Month.ofChars? (month ++ ' ' :: year) = none :=
        Month.ofChars?_of_digit (List.mem_append_right _ (List.mem_cons_of_mem _ hc)) hdigit
      rw [hnone]
  | @namelessDays first gap second hfirst hgap hsecond =>
    have hwords : Text.words (first ++ gap ++ second) = [first, second] := by
      have hrun := run_first hfirst
      have hrun' := run_second hsecond
      rw [Text.words_append_gap hgap,
        Text.words_of_run hrun Text.not_isBlank_of_isLatin,
        Text.words_of_run hrun' Text.not_isBlank_of_isLatin]
      rfl
    have hjoin : [' '].intercalate [first, second] = first ++ ' ' :: second := by
      rw [List.intercalate_cons_cons, List.intercalate_singleton, List.append_assoc]
      rfl
    rw [hwords, hjoin]
    simp only [List.cons_append, List.nil_append, ofWords?, Month.ofChars?_first hfirst]
    cases Month.ofChars? (first ++ ' ' :: second) <;> rfl

/-- The parts of a date are read without a fault, and they are read as the text is. -/
theorem read_of_spells {text : List Char} {parts : Parts} (h : Spells text parts) :
    parts.read = .ok (ofChars? text) := by
  obtain ⟨stop, hstop, hwords⟩ := h.words_eq
  obtain ⟨-, hday, -, -, hmonth, -, hyear, htail, -⟩ := h
  obtain ⟨year, hread⟩ := hyear.exists_readYear?
  rw [ofChars?, hwords, ofWords?_of_spellsMonth hmonth hyear, Parts.read]
  cases Month.ofChars? ([' '].intercalate (Text.words parts.month)) with
  | none => rfl
  | some month =>
    simp only [assemble?, readDay?_of_run hday hstop, hread, htail.readEra?_eq, numberOfDigits,
      Text.decimal?_of_run hday, numberOfYear, ok_bind, Option.bind_eq_bind, Option.bind_some]
    by_cases hvalid : Date.validDay (Text.value parts.day) month = true
    · simp only [Date.build?, Date.build, dif_pos hvalid, if_pos hvalid, ok_bind]
      rfl
    · simp only [Date.build?, Date.build, dif_neg hvalid, if_neg hvalid]
      rfl

/-! ### Texts that follow the pattern -/

theorem exists_era_of_readEra? {rest : List Char} {e : String}
    (hstart : ∀ c ∈ rest.head?, Text.isBlank c = true)
    (h : readEra? (Text.words rest) = some e) :
    ∃ tail era back, tail ++ back = rest ∧ SpellsEra tail era ∧ Blanks back := by
  rw [readEra?.eq_def] at h
  split at h
  · next hwords => exact ⟨[], none, rest, rfl, .missing, Text.blanks_of_words_eq_nil hwords⟩
  · next word hwords =>
    split at h
    · next hall =>
      obtain ⟨gap, back, hgap, rfl, hback, -⟩ := Text.exists_gap_of_words_eq_cons hstart hwords
      have hne : word ≠ [] := (Text.word_facts (hwords ▸ List.mem_cons_self)).1
      exact ⟨gap ++ word, some word, back, rfl,
        .written hgap ⟨hne, List.all_eq_true.mp hall⟩, Text.blanks_of_words_eq_nil hback⟩
    · cases h
  · cases h

/-- A day and a month in front of a year that is read follow the pattern. -/
theorem exists_spells_of_assemble? {front day gap month rest year : List Char}
    {era : List (List Char)} {m : Month} {dated : DatedText} (hfront : Blanks front)
    (hgap : Run Text.isBlank gap) (hmonth : SpellsMonth month)
    (hstart : ∀ c ∈ rest.head?, Text.isBlank c = true) (hwords : Text.words rest = year :: era)
    (h : assemble? day m year era = some dated) :
    ∃ parts, Spells (front ++ day ++ (gap ++ month ++ rest)) parts := by
  simp only [assemble?, Option.bind_eq_bind, Option.bind_eq_some_iff] at h
  obtain ⟨_, hday, _, hyear, _, hera, -⟩ := h
  obtain ⟨digits, stop, rfl, hdigits, hstop⟩ := exists_run_of_readDay? hday
  obtain ⟨gap', rest', hgap', rfl, rfl, hstart'⟩ := Text.exists_gap_of_words_eq_cons hstart hwords
  obtain ⟨tail, era, back, rfl, htail, hback⟩ := exists_era_of_readEra? hstart' hera
  have hspells : Spells _ ⟨digits, month, year, era⟩ :=
    .intro hfront hdigits hstop hgap hmonth hgap' (spellsYear_of_readYear? hyear) htail hback
  exact ⟨_, by simpa only [List.append_assoc] using hspells⟩

theorem not_mem_of_solid {word : List Char} (h : Solid word) : ' ' ∉ word :=
  fun hmem ↦ absurd (h ' ' hmem) (by decide)

/-- Every text that is read as a date follows the pattern. -/
theorem exists_spells_of_ofChars? {text : List Char} {dated : DatedText}
    (h : ofChars? text = some dated) : ∃ parts, Spells text parts := by
  rw [ofChars?, ofWords?.eq_def] at h
  split at h
  · next day first second later hwords =>
    have hmem : first ∈ Text.words text := by simp [hwords]
    have hmem' : second ∈ Text.words text := by simp [hwords]
    have hsolid := (Text.word_facts hmem).2.1
    have hsolid' := (Text.word_facts hmem').2.1
    obtain ⟨front, rest, hfront, rfl, hrest, hstart⟩ := Text.exists_of_words_eq_cons hwords
    obtain ⟨gap, rest', hgap, rfl, hrest', hstart'⟩ :=
      Text.exists_gap_of_words_eq_cons hstart hrest
    split at h
    · next month hmonth =>
      rcases Month.ofChars?_cases hmonth with hrun | ⟨_, _, rfl, -⟩
      · exact exists_spells_of_assemble? hfront hgap (.of_isLatin hrun) hstart' hrest' h
      · exact absurd (by simp) (not_mem_of_solid hsolid)
    · split at h
      · next month year era hmonth =>
        rcases Month.ofChars?_cases hmonth with hrun | ⟨first', second', hsplit, hfirst, hsecond⟩
        · exact absurd (hrun.all ' ' (by simp)) (by decide)
        · obtain ⟨rfl, -, rfl⟩ :=
            (List.append_cons_inj_of_notMem (not_mem_of_solid (hsolid))
              (not_mem_of_solid hsolid')).mp hsplit
          obtain ⟨gap', rest'', hgap', rfl, hrest'', hstart''⟩ :=
            Text.exists_gap_of_words_eq_cons hstart' hrest'
          obtain ⟨parts, hspells⟩ := exists_spells_of_assemble? hfront hgap
            (.namelessDays hfirst hgap' hsecond) hstart'' hrest'' h
          exact ⟨parts, by simpa only [List.append_assoc] using hspells⟩
      · cases h
  · cases h

theorem ofChars?_of_not_spells {text : List Char} (h : ¬ ∃ parts, Spells text parts) :
    ofChars? text = none :=
  Option.eq_none_iff_forall_ne_some.mpr fun _ hread ↦ h (exists_spells_of_ofChars? hread)

/-- How a text may be read: by its parts if it follows the pattern, and not at all otherwise. -/
inductive Reads (text : List Char) : Except Fault (Option DatedText) → Prop
  | matched {parts : Parts} (h : Spells text parts) : Reads text parts.read
  | unmatched (h : ¬ ∃ parts, Spells text parts) : Reads text (.ok none)

/-- There is one way to read a text, and it is never a fault. -/
theorem reads_iff {text : List Char} {outcome : Except Fault (Option DatedText)} :
    Reads text outcome ↔ outcome = .ok (ofChars? text) := by
  constructor
  · intro h
    cases h with
    | matched h => exact read_of_spells h
    | unmatched h => rw [ofChars?_of_not_spells h]
  · rintro rfl
    by_cases h : ∃ parts, Spells text parts
    · obtain ⟨parts, hspells⟩ := h
      exact read_of_spells hspells ▸ .matched hspells
    · rw [ofChars?_of_not_spells h]
      exact .unmatched h

end DatedText

/-! ### Valid days -/

namespace Month

/-- The name of a month has the words that it is spelled with. -/
theorem spellsMonth_of_ofChars? {name : List Char} {month : Month}
    (h : ofChars? name = some month) :
    SpellsMonth name ∧ [' '].intercalate (Text.words name) = name := by
  rcases ofChars?_cases h with hrun | ⟨first, second, rfl, hfirst, hsecond⟩
  · refine ⟨.of_isLatin hrun, ?_⟩
    rw [Text.words_of_run hrun Text.not_isBlank_of_isLatin,
      List.intercalate_singleton]
  · have hspells := SpellsMonth.namelessDays hfirst Text.run_space hsecond
    rw [List.append_assoc] at hspells
    refine ⟨hspells, ?_⟩
    have hrun := run_first hfirst
    have hrun' := run_second hsecond
    rw [Text.words_word_append hrun.ne_nil (hrun.solid Text.not_isBlank_of_isLatin) (by decide),
      Text.words_of_run hrun' Text.not_isBlank_of_isLatin,
      List.intercalate_cons_cons, List.intercalate_singleton, List.append_assoc]
    rfl

end Month

/-- Parts that name the day, the month and the year of a date are read as that date. -/
theorem DatedText.Parts.read_of_date {parts : Parts} {date : Date}
    (hday : Text.decimal? parts.day = some date.day)
    (hmonth : Month.ofChars? ([' '].intercalate (Text.words parts.month)) = some date.month)
    (hyear : readYear? parts.year = some date.year) :
    parts.read = .ok (some ⟨date, parts.era.elim defaultEra String.ofList⟩) := by
  have hbuild := Date.build_parts date
  have hvalid : Date.validDay date.day date.month = true := by
    rw [Date.build] at hbuild
    split at hbuild
    · assumption
    · cases hbuild
  simp only [Parts.read, hmonth, numberOfDigits, hday, numberOfYear, hyear, ok_bind, hvalid, if_true,
    hbuild]

namespace Date

theorem isValid_iff {day : Int} {name : String} (year : Int) :
    isValid day name = true ↔
      ∃ month date, Month.ofName? name = some month ∧ build day month year = .ok date := by
  rw [isValid]
  cases Month.ofName? name with
  | none => simp
  | some month =>
    by_cases hvalid : validDay day month = true
    · simp [build, hvalid]
    · simp [build, hvalid]

/-- A date is read from its day, a name of its month and its year. -/
theorem ofText?_of_build {day year : Int} {name : String} {month : Month} {date : Date}
    (hname : Month.ofName? name = some month) (hbuild : build day month year = .ok date) :
    ofText? s!"{day} {name} {year}" = some date := by
  obtain ⟨rfl, rfl, rfl⟩ := build_eq_ok_iff.mp hbuild
  obtain ⟨hmonth, hjoin⟩ := Month.spellsMonth_of_ofChars? hname
  have hday : Run Text.isDecimal (numeral date.day) :=
    ⟨Text.numeral_ne_nil _, fun _ ↦ Text.isDecimal_of_mem_numeral⟩
  have hyear := DatedText.readYear?_yearNumeral date.year
  let parts : DatedText.Parts := ⟨numeral date.day, name.toList, yearNumeral date.year, none⟩
  have hspells : DatedText.Spells _ parts :=
    .intro Text.blanks_nil hday (.inl rfl) Text.run_space hmonth Text.run_space
      (DatedText.spellsYear_of_readYear? hyear) .missing Text.blanks_nil
  have hdate : parts.read = .ok (some ⟨date, defaultEra⟩) :=
    DatedText.Parts.read_of_date (Text.decimal?_numeral date.day) (by rw [hjoin]; exact hname) hyear
  have htext : (s!"{(date.day : Int)} {name} {date.year}").toList =
      [] ++ (numeral date.day ++ []) ++ [' '] ++ name.toList ++ [' '] ++ yearNumeral date.year ++
        [] ++ [] := by
    simp only [String.toList_append, List.append_assoc, List.append_nil, List.nil_append]
    rfl
  have hread := hdate.symm.trans (DatedText.read_of_spells hspells)
  rw [ofText?, DatedText.ofText?, htext, ← Except.ok.inj hread]
  rfl

end Date

/-- Any date is read back from the text that it is written as, whatever letters make up its era. A
text is read by its parts without ever being a fault, and what is read and written again is read as
the same. A day and the name of a month are valid just where there is a date, and this date is read
from them. -/
theorem written_dates_are_read :
    (∀ (date : Date) (era : String), era ≠ "" → era.toList.all Char.isAlpha = true →
      DatedText.ofText? (DatedText.format ⟨date, era⟩) = some ⟨date, era⟩) ∧
    (∀ text : String,
      (∀ outcome, DatedText.Reads text.toList outcome ↔ outcome = .ok (DatedText.ofText? text)) ∧
      ∀ dated, DatedText.ofText? text = some dated →
        DatedText.ofText? (DatedText.format dated) = some dated) ∧
    ∀ (day : Int) (name : String) (year : Int),
      (Date.isValid day name = true ↔
        ∃ month date, Month.ofName? name = some month ∧ Date.build day month year = .ok date) ∧
      ∀ month date, Month.ofName? name = some month → Date.build day month year = .ok date →
        Date.ofText? s!"{day} {name} {year}" = some date := by
  refine ⟨fun date era hne hletters ↦ ?_, fun text ↦ ⟨fun outcome ↦ DatedText.reads_iff, ?_⟩,
    fun day name year ↦ ⟨Date.isValid_iff year, ?_⟩⟩
  · exact DatedText.ofText?_format (DatedText.isEra_of_isAlpha hne hletters)
  · intro dated hread
    exact DatedText.ofText?_format (DatedText.isEra_of_ofText? hread)
  · intro month date hname hbuild
    exact Date.ofText?_of_build hname hbuild

/-- The third of the Nameless Days in the fifth year before zero. -/
theorem written_dates_are_read_nameless :
    ("v" ≠ "" ∧ "v".toList.all Char.isAlpha = true) ∧
    DatedText.ofText?
        (DatedText.format ⟨⟨3, .namelessDays, -5, by decide, by decide⟩, "v"⟩) =
      some ⟨⟨3, .namelessDays, -5, by decide, by decide⟩, "v"⟩ ∧
    Month.ofName? "namenLOSE Tage" = some .namelessDays ∧
    Date.build 3 .namelessDays (-5) = .ok ⟨3, .namelessDays, -5, by decide, by decide⟩ ∧
    Date.ofText? "3 namenLOSE Tage -5" = some ⟨3, .namelessDays, -5, by decide, by decide⟩ := by
  have hletters : "v" ≠ "" ∧ "v".toList.all Char.isAlpha = true :=
    ⟨by decide, by decide⟩
  have hname : Month.ofName? "namenLOSE Tage" = some .namelessDays := by decide
  have htext : toString (3 : Int) ++ " " ++ "namenLOSE Tage" ++ " " ++ toString (-5 : Int) =
      "3 namenLOSE Tage -5" := by
    decide
  obtain ⟨hwritten, -, hvalid⟩ := written_dates_are_read
  have hread := (hvalid 3 "namenLOSE Tage" (-5)).2 .namelessDays
    ⟨3, .namelessDays, -5, by decide, by decide⟩ hname rfl
  rw [← htext]
  exact ⟨hletters, hwritten _ "v" hletters.1 hletters.2, hname, rfl, hread⟩

end Aventuria.Calendar
