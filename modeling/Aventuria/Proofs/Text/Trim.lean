import Mathlib.Data.List.TakeWhile
import Aventuria.Text.Blank

/-!
# Trimming

A text is its trimmed part between blanks (`exists_blanks_trimLeft`, `exists_blanks_trimRight`).
Blanks are trimmed wherever they stand at the end in question, and nothing else is.
-/

set_option autoImplicit false
set_option relaxedAutoImplicit false

namespace Aventuria.Text

/-- A text of blanks only. -/
def Blanks (text : List Char) : Prop := ∀ c ∈ text, isBlank c = true

/-- A text without any blank. -/
def Solid (text : List Char) : Prop := ∀ c ∈ text, isBlank c = false

instance (text : List Char) : Decidable (Blanks text) :=
  decidable_of_iff (text.all isBlank = true) List.all_eq_true

instance (text : List Char) : Decidable (Solid text) :=
  decidable_of_iff (text.any isBlank = false) (by simp [Solid])

theorem blanks_nil : Blanks [] := fun _ h ↦ absurd h List.not_mem_nil

theorem blanks_cons {c : Char} {text : List Char} :
    Blanks (c :: text) ↔ isBlank c = true ∧ Blanks text :=
  List.forall_mem_cons

theorem blanks_append {first second : List Char} (hfirst : Blanks first)
    (hsecond : Blanks second) : Blanks (first ++ second) :=
  List.forall_mem_append.mpr ⟨hfirst, hsecond⟩

theorem Blanks.not_mem {text : List Char} (h : Blanks text) {c : Char} (hc : isBlank c = false) :
    c ∉ text := by
  intro hmem
  rw [h c hmem] at hc
  cases hc

theorem solid_cons {c : Char} {word : List Char} :
    Solid (c :: word) ↔ isBlank c = false ∧ Solid word :=
  List.forall_mem_cons

/-! ### The left end -/

theorem exists_blanks_trimLeft (text : List Char) :
    ∃ blanks, Blanks blanks ∧ blanks ++ trimLeft text = text :=
  ⟨text.takeWhile isBlank, fun _ ↦ List.mem_takeWhile_imp,
    List.takeWhile_append_dropWhile⟩

theorem trimLeft_append {blanks : List Char} (h : Blanks blanks) (text : List Char) :
    trimLeft (blanks ++ text) = trimLeft text :=
  List.dropWhile_append_of_pos h

theorem trimLeft_cons {c : Char} (h : isBlank c = false) (text : List Char) :
    trimLeft (c :: text) = c :: text := by
  rw [trimLeft, List.dropWhile_cons, h]
  rfl

theorem trimLeft_solid_append {word : List Char} (hne : word ≠ []) (h : Solid word)
    (text : List Char) : trimLeft (word ++ text) = word ++ text := by
  cases word with
  | nil => exact absurd rfl hne
  | cons c word => exact trimLeft_cons (h c List.mem_cons_self) _

theorem trimLeft_append_of_ne_nil {text : List Char} (h : trimLeft text ≠ [])
    (more : List Char) : trimLeft (text ++ more) = trimLeft text ++ more := by
  rw [trimLeft, List.dropWhile_append, if_neg (by simpa [trimLeft] using h)]
  rfl

/-! ### The right end -/

theorem trimRight_cons_of_ne_nil {text : List Char} (h : trimRight text ≠ []) (c : Char) :
    trimRight (c :: text) = c :: trimRight text := by
  rw [trimRight]
  split
  · next hnil => exact absurd hnil h
  · rfl

theorem trimRight_cons_of_not_blank {c : Char} (h : isBlank c = false) (text : List Char) :
    trimRight (c :: text) = c :: trimRight text := by
  rw [trimRight]
  split
  · next hnil => rw [h, hnil]; rfl
  · rfl

theorem trimRight_eq_nil_iff {text : List Char} : trimRight text = [] ↔ Blanks text := by
  induction text with
  | nil => exact ⟨fun _ ↦ blanks_nil, fun _ ↦ rfl⟩
  | cons c text ih =>
    rw [blanks_cons, ← ih, trimRight]
    constructor
    · intro h
      split at h
      · next hnil =>
        split at h
        · next hc => exact ⟨hc, hnil⟩
        · cases h
      · cases h
    · rintro ⟨hc, hnil⟩
      rw [hnil, hc]
      rfl

theorem exists_blanks_trimRight (text : List Char) :
    ∃ blanks, Blanks blanks ∧ trimRight text ++ blanks = text := by
  induction text with
  | nil => exact ⟨[], blanks_nil, rfl⟩
  | cons c text ih =>
    cases hc : isBlank c with
    | false =>
      obtain ⟨blanks, hblanks, htext⟩ := ih
      exact ⟨blanks, hblanks, by rw [trimRight_cons_of_not_blank hc, List.cons_append, htext]⟩
    | true =>
      by_cases hnil : trimRight text = []
      · have hblanks := blanks_cons.mpr ⟨hc, trimRight_eq_nil_iff.mp hnil⟩
        exact ⟨c :: text, hblanks, by rw [trimRight_eq_nil_iff.mpr hblanks, List.nil_append]⟩
      · obtain ⟨blanks, hblanks, htext⟩ := ih
        exact ⟨blanks, hblanks, by rw [trimRight_cons_of_ne_nil hnil, List.cons_append, htext]⟩

theorem trimRight_subset (text : List Char) : trimRight text ⊆ text := by
  obtain ⟨blanks, -, htext⟩ := exists_blanks_trimRight text
  intro c hc
  rw [← htext]
  exact List.mem_append_left _ hc

theorem head?_trimRight {text : List Char} {c : Char} (h : c ∈ (trimRight text).head?) :
    c ∈ text.head? := by
  obtain ⟨blanks, -, htext⟩ := exists_blanks_trimRight text
  obtain ⟨rest, hrest⟩ := List.head?_eq_some_iff.mp h
  rw [← htext, hrest]
  rfl

theorem trimRight_append_of_ne_nil {text : List Char} (h : trimRight text ≠ [])
    (front : List Char) : trimRight (front ++ text) = front ++ trimRight text := by
  induction front with
  | nil => rfl
  | cons c front ih =>
    rw [List.cons_append, trimRight_cons_of_ne_nil, ih, List.cons_append]
    rw [ih]
    exact List.append_ne_nil_of_right_ne_nil front h

theorem trimRight_append_cons {c : Char} (h : isBlank c = false) (before after : List Char) :
    trimRight (before ++ c :: after) = before ++ c :: trimRight after := by
  have hc := trimRight_cons_of_not_blank h after
  rw [trimRight_append_of_ne_nil (hc ▸ List.cons_ne_nil _ _), hc]

theorem trimRight_solid_append {word : List Char} (h : Solid word) (text : List Char) :
    trimRight (word ++ text) = word ++ trimRight text := by
  induction word with
  | nil => rfl
  | cons c word ih =>
    rw [solid_cons] at h
    rw [List.cons_append, trimRight_cons_of_not_blank h.1, ih h.2, List.cons_append]

theorem trimRight_of_solid {word : List Char} (h : Solid word) : trimRight word = word := by
  have htrim := trimRight_solid_append h []
  rwa [trimRight, List.append_nil] at htrim

theorem trimRight_append_blanks {blanks : List Char} (h : Blanks blanks) (text : List Char) :
    trimRight (text ++ blanks) = trimRight text := by
  induction text with
  | nil => exact trimRight_eq_nil_iff.mpr h
  | cons c text ih => rw [List.cons_append, trimRight, trimRight, ih]

theorem trimRight_trimRight (text : List Char) : trimRight (trimRight text) = trimRight text := by
  obtain ⟨blanks, hblanks, htext⟩ := exists_blanks_trimRight text
  have htrim := trimRight_append_blanks hblanks (trimRight text)
  rw [htext] at htrim
  exact htrim.symm

theorem trimRight_ne_append_blank {text before : List Char} {blank : Char}
    (h : isBlank blank = true) : trimRight text ≠ before ++ [blank] := by
  intro htrim
  have hkept : trimRight (before ++ [blank]) = before ++ [blank] := by
    rw [← htrim, trimRight_trimRight]
  rw [trimRight_append_blanks (blanks_cons.mpr ⟨h, blanks_nil⟩)] at hkept
  have hlength := length_trimRight_le before
  rw [hkept, List.length_append, List.length_singleton] at hlength
  omega

/-! ### Both ends -/

/-- A trimmed text starts with no blank. -/
theorem not_isBlank_of_trim {text rest : List Char} {c : Char} (h : trim text = c :: rest) :
    isBlank c = false := by
  obtain ⟨blanks, -, hleft⟩ := exists_blanks_trimRight (trimLeft text)
  rw [← trim, h] at hleft
  exact not_isBlank_of_trimLeft hleft.symm

/-- A trimmed text ends with no blank. -/
theorem trim_ne_append_blank {text before : List Char} {blank : Char} (h : isBlank blank = true) :
    trim text ≠ before ++ [blank] :=
  trimRight_ne_append_blank h

theorem trim_eq_nil_iff {text : List Char} : trim text = [] ↔ Blanks text := by
  rw [trim, trimRight_eq_nil_iff]
  constructor
  · intro h
    obtain ⟨blanks, hblanks, htext⟩ := exists_blanks_trimLeft text
    exact htext ▸ blanks_append hblanks h
  · intro h c hc
    exact h c (List.dropWhile_sublist isBlank |>.subset hc)

/-- What follows the leading blanks of a text is not blank, if there is anything. -/
theorem trim_trimLeft_ne_nil {text : List Char} (h : trimLeft text ≠ []) :
    trim (trimLeft text) ≠ [] := by
  intro hnil
  obtain ⟨c, rest, htext⟩ := List.exists_cons_of_ne_nil h
  have hc := trim_eq_nil_iff.mp hnil c (htext ▸ List.mem_cons_self)
  rw [not_isBlank_of_trimLeft htext] at hc
  cases hc

theorem exists_blanks_trim (text : List Char) :
    ∃ front back, Blanks front ∧ Blanks back ∧ front ++ trim text ++ back = text := by
  obtain ⟨front, hfront, hleft⟩ := exists_blanks_trimLeft text
  obtain ⟨back, hback, hright⟩ := exists_blanks_trimRight (trimLeft text)
  exact ⟨front, back, hfront, hback, by rw [trim, List.append_assoc, hright, hleft]⟩

theorem trim_subset (text : List Char) : trim text ⊆ text := by
  obtain ⟨front, back, -, -, htext⟩ := exists_blanks_trim text
  intro c hc
  rw [← htext]
  exact List.mem_append_left _ (List.mem_append_right _ hc)

theorem mem_trim_iff {c : Char} (h : isBlank c = false) {text : List Char} :
    c ∈ trim text ↔ c ∈ text := by
  obtain ⟨front, back, hfront, hback, htext⟩ := exists_blanks_trim text
  rw [← htext, List.mem_append, List.mem_append, htext]
  exact ⟨fun hc ↦ .inl (.inr hc), fun hc ↦
    (hc.resolve_right (hback.not_mem h)).resolve_left (hfront.not_mem h)⟩

theorem isInfix_trim (text : List Char) : trim text <:+: text := by
  obtain ⟨front, back, -, -, htext⟩ := exists_blanks_trim text
  exact ⟨front, back, htext⟩

/-- There is nothing to trim where a text begins and ends with a word. -/
theorem trim_of_ends {front back : List Char} (hfront : front ≠ []) (hsolid : Solid front)
    (hback : back ≠ []) (hsolid' : Solid back) (middle : List Char) :
    trim (front ++ (middle ++ back)) = front ++ (middle ++ back) := by
  have hright : trimRight back ≠ [] := by rwa [trimRight_of_solid hsolid']
  rw [trim, trimLeft_solid_append hfront hsolid, trimRight_solid_append hsolid,
    trimRight_append_of_ne_nil hright, trimRight_of_solid hsolid']

theorem trim_of_solid {word : List Char} (h : Solid word) : trim word = word := by
  cases word with
  | nil => rfl
  | cons c word => rw [trim, trimLeft_cons (h c List.mem_cons_self), trimRight_of_solid h]

/-- It does not matter which end is trimmed first. -/
theorem trimLeft_trimRight (text : List Char) : trimLeft (trimRight text) = trim text := by
  obtain ⟨blanks, hblanks, htext⟩ := exists_blanks_trimLeft text
  rw [trim]
  cases hleft : trimLeft text with
  | nil =>
    rw [hleft, List.append_nil] at htext
    rw [trimRight_eq_nil_iff.mpr (htext ▸ hblanks)]
    rfl
  | cons c rest =>
    have hc := not_isBlank_of_trimLeft hleft
    rw [← htext, hleft, trimRight_append_cons hc, trimLeft_append hblanks, trimLeft_cons hc,
      trimRight_cons_of_not_blank hc]

/-- Behind a word there is something to trim at the right end only. -/
theorem trim_solid_append_cons {word text : List Char} (hne : word ≠ []) (h : Solid word)
    (htext : trim text ≠ []) (c : Char) :
    trim (word ++ c :: text) = word ++ c :: trimRight text := by
  have hright : trimRight text ≠ [] := by
    intro hnil
    rw [← trimLeft_trimRight, hnil] at htext
    exact htext rfl
  rw [trim, trimLeft_solid_append hne h, trimRight_solid_append h, trimRight_cons_of_ne_nil hright]

theorem trim_append_blanks {blanks : List Char} (h : Blanks blanks) (text : List Char) :
    trim (text ++ blanks) = trim text := by
  rw [← trimLeft_trimRight, trimRight_append_blanks h, trimLeft_trimRight]

/-! ### Texts that end with no blank -/

/-- There is no blank at the end of a text. -/
def EndsSolid (text : List Char) : Prop := ∀ c ∈ text.getLast?, isBlank c = false

theorem EndsSolid.of_suffix {part text : List Char} (h : EndsSolid text) (hpart : part <:+ text) :
    EndsSolid part := by
  intro c hc
  obtain ⟨before, rfl⟩ := hpart
  refine h c ?_
  rw [List.getLast?_append, hc]
  rfl

theorem EndsSolid.eq_nil_of_blanks {text : List Char} (h : EndsSolid text) (hblanks : Blanks text) :
    text = [] := by
  cases hlast : text.getLast? with
  | none => exact List.getLast?_eq_none_iff.mp hlast
  | some c =>
    have hc := h c hlast
    rw [hblanks c (List.mem_of_getLast? hlast)] at hc
    cases hc

theorem EndsSolid.trimLeft_ne_nil {text : List Char} (h : EndsSolid text) (hne : text ≠ []) :
    trimLeft text ≠ [] := by
  intro hnil
  obtain ⟨blanks, hblanks, htext⟩ := exists_blanks_trimLeft text
  rw [hnil, List.append_nil] at htext
  exact hne (h.eq_nil_of_blanks (htext ▸ hblanks))

theorem EndsSolid.trimRight_eq {text : List Char} (h : EndsSolid text) : trimRight text = text := by
  obtain ⟨blanks, hblanks, htext⟩ := exists_blanks_trimRight text
  have hnil : blanks = [] := (h.of_suffix ⟨_, htext⟩).eq_nil_of_blanks hblanks
  rwa [hnil, List.append_nil] at htext

theorem EndsSolid.trim_eq {text : List Char} (h : EndsSolid text) : trim text = trimLeft text :=
  (h.of_suffix (List.dropWhile_suffix isBlank)).trimRight_eq

/-- There is nothing to trim where a text neither begins nor ends with a blank. -/
theorem EndsSolid.trim_eq_self {text : List Char} (h : EndsSolid text)
    (hstart : ∀ c ∈ text.head?, isBlank c = false) : trim text = text := by
  cases text with
  | nil => rfl
  | cons c text => rw [h.trim_eq, trimLeft_cons (hstart c rfl)]

theorem endsSolid_trimRight (text : List Char) : EndsSolid (trimRight text) := by
  intro c hc
  obtain ⟨before, hbefore⟩ := List.getLast?_eq_some_iff.mp hc
  rw [← Bool.not_eq_true]
  exact fun hblank ↦ trimRight_ne_append_blank hblank hbefore

theorem endsSolid_trim (text : List Char) : EndsSolid (trim text) :=
  endsSolid_trimRight (trimLeft text)

theorem trim_trim (text : List Char) : trim (trim text) = trim text := by
  have hleft : trimLeft (trim text) = trim text := by
    cases htrim : trim text with
    | nil => rfl
    | cons c rest => exact trimLeft_cons (not_isBlank_of_trim htrim) rest
  rw [trim, hleft, trim, trimRight_trimRight]

end Aventuria.Text
