import Aventuria.Proofs.Text.Character
import Aventuria.Proofs.Text.Trim

/-!
# Words

A blank separates the words before it from the words behind it (`words_append_cons`), blanks in
front of a text do not matter, and a text without blanks is one word (`words_of_solid`). A text that
has a blank is cut at the last one (`solid_or_exists_lastBlank`), which sets its last word apart.
-/

set_option autoImplicit false
set_option relaxedAutoImplicit false

namespace Aventuria.Text

/-! ### Runs -/

/-- A run of members with some property ends where the next one lacks it. -/
theorem run_append {α : Type} {p : α → Bool} {run rest : List α} (hrun : ∀ a ∈ run, p a = true)
    (hrest : ∀ a ∈ rest.head?, p a = false) :
    (run ++ rest).takeWhile p = run ∧ (run ++ rest).dropWhile p = rest := by
  rw [List.takeWhile_append_of_pos hrun, List.dropWhile_append_of_pos hrun]
  cases rest with
  | nil => exact ⟨List.append_nil run, rfl⟩
  | cons a rest =>
    have ha : ¬ p a = true := by simp [hrest a rfl]
    rw [List.takeWhile_cons_of_neg ha, List.dropWhile_cons_of_neg ha, List.append_nil]
    exact ⟨rfl, rfl⟩

/-- A run of other members ends at the first occurrence of one. -/
theorem run_append_stop {α : Type} [DecidableEq α] {stop : α} {run : List α} (h : stop ∉ run)
    (rest : List α) :
    (run ++ stop :: rest).takeWhile (· ≠ stop) = run ∧
      (run ++ stop :: rest).dropWhile (· ≠ stop) = stop :: rest := by
  refine run_append (fun a ha ↦ decide_eq_true (ne_of_mem_of_not_mem ha h)) ?_
  rintro a ⟨⟩
  exact decide_eq_false fun hne ↦ hne rfl

/-- What follows a run starts with a member that lacks its property. -/
theorem head?_dropWhile {α : Type} {p : α → Bool} {as : List α} {a : α}
    (h : a ∈ (as.dropWhile p).head?) : p a = false := by
  have hstop := List.head?_dropWhile_not p as
  rwa [h] at hstop

/-- A run is the same whatever follows a member behind it that ends it. -/
theorem run_append_cons {α : Type} {p : α → Bool} {stop : α} (h : p stop = false)
    (before after : List α) :
    (before ++ stop :: after).takeWhile p = before.takeWhile p ∧
      (before ++ stop :: after).dropWhile p = before.dropWhile p ++ stop :: after := by
  have hrun : ∀ a ∈ before.takeWhile p, p a = true :=
    fun _ ↦ List.mem_takeWhile_imp
  have hrest : ∀ a ∈ (before.dropWhile p ++ stop :: after).head?, p a = false := by
    intro a ha
    cases hdrop : before.dropWhile p with
    | nil =>
      rw [hdrop] at ha
      cases ha
      exact h
    | cons b rest =>
      have hb : a ∈ (before.dropWhile p).head? := by
        rw [hdrop] at ha ⊢
        exact ha
      exact head?_dropWhile hb
  have hcut := run_append hrun hrest
  rwa [← List.append_assoc, List.takeWhile_append_dropWhile] at hcut

/-- A non-empty text whose characters all belong to a class. -/
structure Run (p : Char → Bool) (text : List Char) : Prop where
  ne_nil : text ≠ []
  all : ∀ c ∈ text, p c = true

theorem Run.solid {p : Char → Bool} {text : List Char} (h : Run p text)
    (hp : ∀ {c}, p c = true → isBlank c = false) : Solid text :=
  fun c hc ↦ hp (h.all c hc)

theorem run_space : Run isBlank [' '] :=
  ⟨List.cons_ne_nil _ _, List.forall_mem_singleton.mpr (by decide)⟩

/-- A text that begins with blanks, if with anything else than the character behind them. -/
theorem isBlank_or_eq_of_head? {blanks rest : List Char} (h : Blanks blanks) {c stop : Char}
    (hc : c ∈ (blanks ++ stop :: rest).head?) : isBlank c = true ∨ c = stop := by
  cases blanks with
  | nil => exact .inr (Option.some.inj hc).symm
  | cons blank blanks => exact .inl (h c (List.mem_cons.mpr (.inl (Option.some.inj hc).symm)))

theorem decimal?_of_run {digits : List Char} (h : Run isDecimal digits) :
    decimal? digits = some (value digits) :=
  decimal?_eq_some_iff.mpr ⟨⟨h.ne_nil, h.all⟩, rfl⟩

theorem run_of_decimal? {digits : List Char} {n : Nat} (h : decimal? digits = some n) :
    Run isDecimal digits :=
  ⟨(decimal?_eq_some_iff.mp h).1.1, (decimal?_eq_some_iff.mp h).1.2⟩

/-! ### The words of a text -/

theorem words_nil : words [] = [] := by
  rw [words.eq_def]

theorem words_cons_of_blank {c : Char} (h : isBlank c = true) (text : List Char) :
    words (c :: text) = words text := by
  rw [words.eq_def]
  exact if_pos h

theorem words_cons_of_not_blank {c : Char} (h : isBlank c = false) (text : List Char) :
    words (c :: text) =
      (c :: text.takeWhile (!isBlank ·)) :: words (text.dropWhile (!isBlank ·)) := by
  rw [words.eq_def]
  exact if_neg (by simp [h])

theorem words_append_cons {blank : Char} (h : isBlank blank = true) (before after : List Char) :
    words (before ++ blank :: after) = words before ++ words after := by
  induction before using words.induct with
  | case1 => rw [List.nil_append, words_cons_of_blank h, words_nil, List.nil_append]
  | case2 c before hc ih =>
    rw [List.cons_append, words_cons_of_blank hc, words_cons_of_blank hc, ih]
  | case3 c before hc ih =>
    have hc : isBlank c = false := by simpa using hc
    have hstop : (!isBlank blank) = false := by rw [h]; rfl
    obtain ⟨hrun, hrest⟩ := run_append_cons (p := (!isBlank ·)) hstop before after
    rw [List.cons_append, words_cons_of_not_blank hc, words_cons_of_not_blank hc, hrun, hrest, ih]
    rfl

theorem words_blanks_append {blanks : List Char} (h : Blanks blanks) (text : List Char) :
    words (blanks ++ text) = words text := by
  induction blanks with
  | nil => rfl
  | cons c blanks ih =>
    rw [blanks_cons] at h
    rw [List.cons_append, words_cons_of_blank h.1, ih h.2]

theorem words_of_solid {word : List Char} (hne : word ≠ []) (h : Solid word) :
    words word = [word] := by
  cases word with
  | nil => exact absurd rfl hne
  | cons c word =>
    rw [solid_cons] at h
    have hrun : ∀ d ∈ word, (!isBlank d) = true := fun d hd ↦ by rw [h.2 d hd]; rfl
    have hend : ∀ d ∈ ([] : List Char).head?, (!isBlank d) = false := fun d hd ↦ by cases hd
    obtain ⟨htake, hdrop⟩ := run_append hrun hend
    rw [List.append_nil] at htake hdrop
    rw [words_cons_of_not_blank h.1, htake, hdrop, words_nil]

theorem words_of_run {p : Char → Bool} {word : List Char} (h : Run p word)
    (hp : ∀ {c}, p c = true → isBlank c = false) : words word = [word] :=
  words_of_solid h.ne_nil (h.solid hp)

/-- The words of a word, a blank and a further text. -/
theorem words_word_append {word : List Char} (hne : word ≠ []) (h : Solid word) {blank : Char}
    (hblank : isBlank blank = true) (text : List Char) :
    words (word ++ blank :: text) = word :: words text := by
  rw [words_append_cons hblank, words_of_solid hne h]
  rfl

theorem word_facts {word text : List Char} (h : word ∈ words text) :
    word ≠ [] ∧ Solid word ∧ word ⊆ text := by
  induction text using words.induct with
  | case1 =>
    rw [words_nil] at h
    cases h
  | case2 c text hc ih =>
    rw [words_cons_of_blank hc] at h
    obtain ⟨hne, hsolid, hsubset⟩ := ih h
    exact ⟨hne, hsolid, List.subset_cons_of_subset c hsubset⟩
  | case3 c text hc ih =>
    have hc : isBlank c = false := by simpa using hc
    rw [words_cons_of_not_blank hc] at h
    rcases List.mem_cons.mp h with rfl | h
    · refine ⟨List.cons_ne_nil _ _, solid_cons.mpr ⟨hc, fun d hd ↦ ?_⟩,
        List.cons_subset_cons c (List.takeWhile_subset _)⟩
      simpa using List.mem_takeWhile_imp hd
    · obtain ⟨hne, hsolid, hsubset⟩ := ih h
      exact ⟨hne, hsolid, List.subset_cons_of_subset c
        (List.Subset.trans hsubset (List.dropWhile_subset _))⟩

/-! ### Gaps between words -/

theorem words_append_gap {gap : List Char} (h : Run isBlank gap) (before after : List Char) :
    words (before ++ gap ++ after) = words before ++ words after := by
  obtain ⟨blank, blanks, rfl⟩ := List.exists_cons_of_ne_nil h.ne_nil
  obtain ⟨hblank, hblanks⟩ := blanks_cons.mp h.all
  rw [List.append_assoc, List.cons_append, words_append_cons hblank, words_blanks_append hblanks]

theorem words_append_blanks {blanks : List Char} (h : Blanks blanks) (text : List Char) :
    words (text ++ blanks) = words text := by
  cases blanks with
  | nil => rw [List.append_nil]
  | cons blank blanks =>
    obtain ⟨hblank, hblanks⟩ := blanks_cons.mp h
    have hnone := words_blanks_append hblanks []
    rw [List.append_nil, words_nil] at hnone
    rw [words_append_cons hblank, hnone, List.append_nil]

theorem words_append_trimRight (before text : List Char) :
    words (before ++ trimRight text) = words (before ++ text) := by
  obtain ⟨blanks, hblanks, htext⟩ := exists_blanks_trimRight text
  have hwords := words_append_blanks hblanks (before ++ trimRight text)
  rwa [List.append_assoc, htext, eq_comm] at hwords

theorem words_trim (text : List Char) : words (trim text) = words text := by
  obtain ⟨front, back, hfront, hback, htext⟩ := exists_blanks_trim text
  have hwords := words_append_blanks hback (front ++ trim text)
  rw [htext, words_blanks_append hfront] at hwords
  exact hwords.symm

theorem blanks_of_words_eq_nil {text : List Char} (h : words text = []) : Blanks text := by
  induction text with
  | nil => exact blanks_nil
  | cons c text ih =>
    cases hc : isBlank c with
    | true => exact blanks_cons.mpr ⟨hc, ih (by rwa [words_cons_of_blank hc] at h)⟩
    | false =>
      rw [words_cons_of_not_blank hc] at h
      cases h

/-- The first word of a text stands between blanks and a rest that has the other words. A blank
sets that rest apart if there is anything in it. -/
theorem exists_of_words_eq_cons {text word : List Char} {later : List (List Char)}
    (h : words text = word :: later) :
    ∃ front rest, Blanks front ∧ front ++ word ++ rest = text ∧ words rest = later ∧
      ∀ c ∈ rest.head?, isBlank c = true := by
  induction text with
  | nil => cases words_nil.symm.trans h
  | cons c text ih =>
    cases hc : isBlank c with
    | true =>
      rw [words_cons_of_blank hc] at h
      obtain ⟨front, rest, hfront, rfl, hrest, hstart⟩ := ih h
      exact ⟨c :: front, rest, blanks_cons.mpr ⟨hc, hfront⟩, rfl, hrest, hstart⟩
    | false =>
      rw [words_cons_of_not_blank hc] at h
      obtain ⟨rfl, rfl⟩ := List.cons.inj h
      refine ⟨[], text.dropWhile (!isBlank ·), blanks_nil, ?_, rfl, fun d hd ↦ ?_⟩
      · rw [List.nil_append, List.cons_append, List.takeWhile_append_dropWhile]
      · simpa using head?_dropWhile hd

/-- What follows a word has its next word behind a gap. -/
theorem exists_gap_of_words_eq_cons {text word : List Char} {later : List (List Char)}
    (hstart : ∀ c ∈ text.head?, isBlank c = true) (h : words text = word :: later) :
    ∃ gap rest, Run isBlank gap ∧ gap ++ word ++ rest = text ∧ words rest = later ∧
      ∀ c ∈ rest.head?, isBlank c = true := by
  obtain ⟨gap, rest, hgap, rfl, hrest, hrest'⟩ := exists_of_words_eq_cons h
  refine ⟨gap, rest, ⟨?_, hgap⟩, rfl, hrest, hrest'⟩
  rintro rfl
  obtain ⟨hne, hsolid, -⟩ := word_facts (h ▸ List.mem_cons_self)
  obtain ⟨c, word, rfl⟩ := List.exists_cons_of_ne_nil hne
  have hblank := hstart c rfl
  rw [hsolid c List.mem_cons_self] at hblank
  cases hblank

/-! ### Parts of a text -/

theorem subset_of_contains {part text : List Char} (h : contains part text = true) :
    part ⊆ text := by
  induction text with
  | nil =>
    rw [contains, List.isEmpty_iff] at h
    rw [h]
    exact List.Subset.refl _
  | cons c text ih =>
    rw [contains, Bool.or_eq_true] at h
    rcases h with h | h
    · exact (List.isPrefixOf_iff_prefix.mp h).subset
    · exact List.subset_cons_of_subset c (ih h)

/-! ### The last word -/

/-- A text has no blank or is cut at its last one. -/
theorem solid_or_exists_lastBlank (text : List Char) :
    Solid text ∨ ∃ before blank word, before ++ blank :: word = text ∧ isBlank blank = true ∧
      Solid word := by
  induction text with
  | nil => exact Or.inl fun c hc ↦ absurd hc List.not_mem_nil
  | cons c text ih =>
    rcases ih with hsolid | ⟨before, blank, word, rfl, hblank, hword⟩
    · cases hc : isBlank c with
      | false => exact Or.inl (solid_cons.mpr ⟨hc, hsolid⟩)
      | true => exact Or.inr ⟨[], c, text, rfl, hc, hsolid⟩
    · exact Or.inr ⟨c :: before, blank, word, rfl, hblank, hword⟩

end Aventuria.Text
