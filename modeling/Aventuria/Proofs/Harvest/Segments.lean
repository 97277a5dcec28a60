import Aventuria.Harvest.Segment
import Aventuria.Proofs.Text.Cut
import Aventuria.Proofs.Text.Words

/-!
# Segments

A segment is never blank (`trim_ne_nil_of_mem_segments`), and a blank description has none
(`segments_of_blanks`). The words "und" and "mit" mean something only where they are words of a text
(`words_of_afterBlankWord?`, `words_of_afterLastWith?`); a description without the first of them,
without parentheses and semicolons is one segment (`segments_of_plain`).
-/

set_option autoImplicit false
set_option relaxedAutoImplicit false

namespace Aventuria.Harvest

open Text (Blanks Run Solid words)

/-! ### Words between blanks -/

theorem afterBlanks?_eq_some_iff {text rest : List Char} :
    afterBlanks? text = some rest ↔
      ∃ gap, Run Text.isBlank gap ∧ gap ++ rest = text ∧
        ∀ c ∈ rest.head?, Text.isBlank c = false := by
  constructor
  · intro h
    cases text with
    | nil => cases h
    | cons c text =>
      rw [afterBlanks?] at h
      split at h
      · next hc =>
        obtain rfl := Option.some.inj h
        obtain ⟨blanks, hblanks, htext⟩ := Text.exists_blanks_trimLeft text
        refine ⟨c :: blanks, ⟨List.cons_ne_nil _ _, List.forall_mem_cons.mpr ⟨hc, hblanks⟩⟩, ?_,
          fun _ ↦ Text.head?_dropWhile⟩
        rw [List.cons_append, htext]
      · cases h
  · rintro ⟨gap, hgap, rfl, hrest⟩
    obtain ⟨c, blanks, rfl⟩ := List.exists_cons_of_ne_nil hgap.ne_nil
    obtain ⟨hc, hblanks⟩ := List.forall_mem_cons.mp hgap.all
    rw [List.cons_append, afterBlanks?, if_pos hc, Text.trimLeft]
    rw [(Text.run_append hblanks hrest).2]

/-- A word with blanks on both sides, and what follows it. -/
theorem exists_gaps_of_afterBlankWord? {word text rest : List Char}
    (h : afterBlankWord? word text = some rest) :
    ∃ front back, Run Text.isBlank front ∧ Run Text.isBlank back ∧
      front ++ (word ++ (back ++ rest)) = text ∧ ∀ c ∈ rest.head?, Text.isBlank c = false := by
  simp only [afterBlankWord?, Option.bind_eq_bind, Option.bind_eq_some_iff] at h
  obtain ⟨inner, hinner, h⟩ := h
  split at h
  · next hstart =>
    obtain ⟨front, hfront, rfl, -⟩ := afterBlanks?_eq_some_iff.mp hinner
    obtain ⟨back, hback, htext, hrest⟩ := afterBlanks?_eq_some_iff.mp h
    obtain ⟨later, rfl⟩ := List.isPrefixOf_iff_prefix.mp hstart
    rw [List.drop_left] at htext
    exact ⟨front, back, hfront, hback, by rw [htext], hrest⟩
  · cases h

theorem words_of_afterBlankWord? {word text rest : List Char} (hne : word ≠ []) (hword : Solid word)
    (h : afterBlankWord? word text = some rest) (before : List Char) :
    words (before ++ text) = words before ++ word :: words rest := by
  obtain ⟨front, back, hfront, hback, rfl, -⟩ := exists_gaps_of_afterBlankWord? h
  rw [← List.append_assoc, Text.words_append_gap hfront, ← List.append_assoc word,
    Text.words_append_gap hback, Text.words_of_solid hne hword]
  rfl

theorem afterBlankWord?_eq_none {word text rest : List Char} (hne : word ≠ []) (hword : Solid word)
    (h : word ∉ words text) (hrest : rest <:+ text) : afterBlankWord? word rest = none := by
  rw [Option.eq_none_iff_forall_ne_some]
  intro after hafter
  obtain ⟨before, rfl⟩ := hrest
  rw [words_of_afterBlankWord? hne hword hafter] at h
  exact h (List.mem_append_right _ List.mem_cons_self)

/-! ### The last "mit" -/

theorem exists_of_afterLastWith? {text body : List Char} (h : afterLastWith? text = some body) :
    ∃ before rest, before ++ rest = text ∧ afterBlankWord? "mit".toList rest = some body ∧
      body ≠ [] ∧ '\n' ∉ body := by
  induction text with
  | nil => cases h
  | cons c text ih =>
    rw [afterLastWith?] at h
    rcases Option.or_eq_some_iff.mp h with hlater | ⟨-, hhere⟩
    · split at hlater
      · cases hlater
      · obtain ⟨before, rest, rfl, hrest⟩ := ih hlater
        exact ⟨c :: before, rest, rfl, hrest⟩
    · obtain ⟨hbody, hkept⟩ := Option.filter_eq_some_iff.mp hhere
      refine ⟨[], c :: text, rfl, hbody, ?_⟩
      simpa using hkept

/-- The last "mit" is a word of the text, and there are words behind it. -/
theorem words_of_afterLastWith? {text body : List Char} (h : afterLastWith? text = some body) :
    ∃ before, words text = before ++ "mit".toList :: words body ∧ words body ≠ [] := by
  obtain ⟨before, rest, rfl, hword, hne, -⟩ := exists_of_afterLastWith? h
  obtain ⟨-, -, -, -, -, hstart⟩ := exists_gaps_of_afterBlankWord? hword
  refine ⟨words before, words_of_afterBlankWord? (by decide) (by decide) hword before, ?_⟩
  obtain ⟨c, body, rfl⟩ := List.exists_cons_of_ne_nil hne
  rw [Text.words_cons_of_not_blank (hstart c rfl)]
  exact List.cons_ne_nil _ _

theorem afterLastWith?_eq_none {text : List Char} (h : "mit".toList ∉ (words text).dropLast) :
    afterLastWith? text = none := by
  rw [Option.eq_none_iff_forall_ne_some]
  intro body hbody
  obtain ⟨before, hwords, hne⟩ := words_of_afterLastWith? hbody
  rw [hwords, List.dropLast_append_of_ne_nil (List.cons_ne_nil _ _),
    List.dropLast_cons_of_ne_nil hne] at h
  exact h (List.mem_append_right _ List.mem_cons_self)

theorem suffix_of_afterLastWith? {text body : List Char} (h : afterLastWith? text = some body) :
    body <:+ text := by
  obtain ⟨before, rest, rfl, hword, -, -⟩ := exists_of_afterLastWith? h
  obtain ⟨front, back, -, -, rfl, -⟩ := exists_gaps_of_afterBlankWord? hword
  exact ⟨before ++ (front ++ ("mit".toList ++ back)), by simp only [List.append_assoc]⟩

/-- The marks that take a description apart. -/
def marks : List Char := [',', ';', '(', ')', '\n']

/-- There is no narration in a text that has neither a comma nor the word "mit". -/
theorem core_of_plain {text : List Char} (hcomma : ',' ∉ text) (hmit : "mit".toList ∉ words text) :
    core text = Text.trim text := by
  rw [core, afterLastWith?_eq_none fun h ↦ hmit (List.dropLast_subset _ h), Option.getD_none,
    List.takeWhile_eq_self_iff.mpr]
  intro c hc
  simpa using ne_of_mem_of_not_mem hc hcomma

/-! ### Texts without a separator -/

/-- There is no aside where no parenthesis opens one. -/
theorem erase_aside_eq_self {text : List Char} (h : '(' ∉ text) : Text.erase aside text = text := by
  have hnone : ∀ rest, rest <:+ text → aside rest = none := by
    intro rest hrest
    refine Text.Separator.ofReader_eq_none ?_
    rw [afterAside?]
    split
    · next inner hopen =>
      have hmem : '(' ∈ Text.trimLeft rest := hopen ▸ List.mem_cons_self
      exact absurd (hrest.subset (List.dropWhile_subset _ hmem)) h
    · rfl
  rw [Text.erase, Text.cut, Text.cutFirst_eq_self hnone]
  simp

/-! ### The segments of a description -/

theorem segments_of_blanks {text : List Char} (h : Blanks text) : segments text = [] := by
  have hopen : '(' ∉ text := h.not_mem (by decide)
  rw [segments, erase_aside_eq_self hopen, Text.trim_eq_nil_iff.mpr h]
  cbv

/-- A description that nothing takes apart is one segment. -/
theorem segments_of_plain {text : List Char} (hne : Text.trim text ≠ []) (hopen : '(' ∉ text)
    (hsemicolon : ';' ∉ text) (hund : "und".toList ∉ words text) :
    segments text = [Text.trim text] := by
  have hplain : ((Text.trim text).contains ';') = false := by
    simpa using fun hc ↦ hsemicolon (Text.trim_subset text hc)
  have hnone : ∀ rest, rest <:+ Text.trim text → connective rest = none := by
    intro rest hrest
    rw [← Text.words_trim] at hund
    exact Text.Separator.ofReader_eq_none (afterBlankWord?_eq_none (by decide) (by decide) hund hrest)
  simp only [segments, erase_aside_eq_self hopen, hplain, if_neg Bool.false_ne_true, Text.cut,
    Text.cutFirst_eq_self hnone, List.map_singleton, Text.trim_trim]
  exact List.filter_eq_self.mpr (by simpa using hne)

theorem trim_ne_nil_of_mem_segments {text segment : List Char} (h : segment ∈ segments text) :
    Text.trim segment ≠ [] := by
  obtain ⟨hmem, hne⟩ := List.mem_filter.mp h
  obtain ⟨part, -, rfl⟩ := List.mem_map.mp hmem
  rw [Text.trim_trim]
  intro hnil
  rw [hnil] at hne
  cases hne

end Aventuria.Harvest
