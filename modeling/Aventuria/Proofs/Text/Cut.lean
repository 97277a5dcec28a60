import Mathlib.Data.List.Infix
import Aventuria.Text.Cut

/-!
# Parts of a cut text

A text is cut from its left end: at a separator the cut goes on behind it, at any other character
that character is kept. So a text without separators stays whole (`cutFirst_eq_self`), every part
stands somewhere in the text (`infix_of_mem_cut`), and what no separator takes away is left
(`mem_erase`).
-/

set_option autoImplicit false
set_option relaxedAutoImplicit false

namespace Aventuria.Text

theorem Separator.ofReader_eq_some_iff {read? : List Char → Option (List Char)}
    {shorter : ∀ text rest, read? text = some rest → rest.length < text.length}
    {text : List Char} {rest : Rest text} :
    Separator.ofReader read? shorter text = some rest ↔ read? text = some rest.val := by
  unfold Separator.ofReader
  split
  · next found hfound => exact Option.some_inj.trans (Subtype.ext_iff.trans (by simp [hfound]))
  · next hnone => simp [hnone]

theorem Separator.ofReader_eq_none {read? : List Char → Option (List Char)}
    {shorter : ∀ text rest, read? text = some rest → rest.length < text.length}
    {text : List Char} (h : read? text = none) : Separator.ofReader read? shorter text = none := by
  rw [Option.eq_none_iff_forall_ne_some]
  intro rest hrest
  rw [Separator.ofReader_eq_some_iff, h] at hrest
  cases hrest

section
variable {separator : Separator}

theorem cutFirst_of_some {text : List Char} {rest : Rest text} (h : separator text = some rest) :
    cutFirst separator text =
      ([], (cutFirst separator rest.val).1 :: (cutFirst separator rest.val).2) := by
  rw [cutFirst.eq_def, h]

theorem cutFirst_cons_of_none {c : Char} {text : List Char} (h : separator (c :: text) = none) :
    cutFirst separator (c :: text) =
      (c :: (cutFirst separator text).1, (cutFirst separator text).2) := by
  rw [cutFirst.eq_def, h]

/-- A text is not cut where nothing in it starts with a separator. -/
theorem cutFirst_eq_self {text : List Char} (h : ∀ rest, rest <:+ text → separator rest = none) :
    cutFirst separator text = (text, []) := by
  induction text with
  | nil => rw [cutFirst.eq_def, h [] List.suffix_rfl]
  | cons c text ih =>
    rw [cutFirst_cons_of_none (h (c :: text) List.suffix_rfl),
      ih fun rest hrest ↦ h rest (hrest.trans (List.suffix_cons c text))]

theorem erase_of_some {text : List Char} {rest : Rest text} (h : separator text = some rest) :
    erase separator text = erase separator rest.val := by
  rw [erase, cut, cutFirst_of_some h]
  rfl

theorem erase_cons_of_none {c : Char} {text : List Char} (h : separator (c :: text) = none) :
    erase separator (c :: text) = c :: erase separator text := by
  rw [erase, cut, cutFirst_cons_of_none h]
  rfl

/-- The first part stands at the left end of the text, the others somewhere in it. -/
theorem prefix_and_infix_of_cutFirst
    (hsuffix : ∀ text rest, separator text = some rest → rest.val <:+ text) (text : List Char) :
    (cutFirst separator text).1 <+: text ∧
      ∀ part ∈ (cutFirst separator text).2, part <:+: text := by
  induction text using cutFirst.induct separator with
  | case1 text rest hrest hsome part parts hcut ih =>
    rw [hcut] at ih
    rw [cutFirst_of_some hsome, hcut]
    have hinside : ∀ {part : List Char}, part <:+: rest → part <:+: text :=
      fun h ↦ h.trans (hsuffix text ⟨rest, hrest⟩ hsome).isInfix
    exact ⟨List.nil_prefix, List.forall_mem_cons.mpr
      ⟨hinside ih.1.isInfix, fun part hpart ↦ hinside (ih.2 part hpart)⟩⟩
  | case2 hnone =>
    rw [cutFirst.eq_def, hnone]
    exact ⟨List.prefix_rfl, fun _ hpart ↦ absurd hpart List.not_mem_nil⟩
  | case3 c text part parts hcut hnone ih =>
    rw [hcut] at ih
    rw [cutFirst_cons_of_none hnone, hcut]
    exact ⟨(List.prefix_cons_inj c).mpr ih.1, fun part hpart ↦ List.infix_cons (ih.2 part hpart)⟩

theorem infix_of_mem_cut
    (hsuffix : ∀ text rest, separator text = some rest → rest.val <:+ text)
    {text part : List Char} (h : part ∈ cut separator text) : part <:+: text := by
  obtain ⟨hfirst, hlater⟩ := prefix_and_infix_of_cutFirst hsuffix text
  rcases List.mem_cons.mp h with rfl | h
  · exact hfirst.isInfix
  · exact hlater part h

/-- A character that is in no separator is left. -/
theorem mem_erase {c : Char}
    (hgap : ∀ text rest, separator text = some rest → ∃ gap, gap ++ rest.val = text ∧ c ∉ gap)
    {text : List Char} (h : c ∈ text) : c ∈ erase separator text := by
  induction text using cutFirst.induct separator with
  | case1 text rest hrest hsome _ _ _ ih =>
    obtain ⟨gap, htext, hc⟩ := hgap text ⟨rest, hrest⟩ hsome
    rw [← htext] at h
    rw [erase_of_some hsome]
    exact ih ((List.mem_append.mp h).resolve_left hc)
  | case2 => cases h
  | case3 d text _ _ _ hnone ih =>
    rw [erase_cons_of_none hnone]
    rcases List.mem_cons.mp h with rfl | h
    · exact List.mem_cons_self
    · exact List.mem_cons_of_mem d (ih h)

end

end Aventuria.Text
