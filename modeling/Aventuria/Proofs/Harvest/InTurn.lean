import Aventuria.Proofs.Harvest.Reading

/-!
# Descriptions in turn

A semicolon sets the parts of a description apart wherever it stands (`parts_append`), and the blanks
around a part do not matter (`parts_trim`). The word "und" does so only where a description has no
semicolon, so what stands next to a semicolon is read as if it stood alone when it has semicolons of
its own or no such word (`segments_append`). The main result is `read_in_turn`.
-/

set_option autoImplicit false
set_option relaxedAutoImplicit false

namespace Aventuria.Harvest

open Dice (Throw)
open Text (Blanks)

/-! ### Cutting at semicolons -/

theorem semicolon_cons (text : List Char) :
    semicolon (';' :: text) = some ⟨text, Nat.lt_succ_self text.length⟩ :=
  Text.Separator.ofReader_eq_some_iff.mpr rfl

theorem semicolon_eq_none {c : Char} (h : c ≠ ';') (text : List Char) :
    semicolon (c :: text) = none := by
  refine Text.Separator.ofReader_eq_none ?_
  unfold afterSemicolon?
  split
  · next heq => exact absurd (List.cons.inj heq).1 h
  · rfl

/-- The text is cut at every semicolon and nowhere else. -/
theorem cut_semicolon (text : List Char) : Text.cut semicolon text = text.splitOn ';' := by
  rw [List.splitOn_eq_splitOnP]
  induction text with
  | nil =>
    have hnone : ∀ rest, rest <:+ [] → semicolon rest = none := by
      intro rest hrest
      rw [List.suffix_nil.mp hrest]
      rfl
    rw [Text.cut, Text.cutFirst_eq_self hnone]
    rfl
  | cons c text ih =>
    rw [List.splitOnP_cons_eq_if_modifyHead, ← ih]
    by_cases hc : c = ';'
    · subst hc
      rw [Text.cut, Text.cutFirst_of_some (semicolon_cons text)]
      rfl
    · rw [Text.cut, Text.cutFirst_cons_of_none (semicolon_eq_none hc text), if_neg (by simpa using hc)]
      rfl

/-- The parts between the semicolons of a text, without the blanks around them. Blank parts are left
out. -/
def parts (text : List Char) : List (List Char) :=
  ((text.splitOn ';').map Text.trim).filter (!·.isEmpty)

theorem parts_append (first second : List Char) :
    parts (first ++ ';' :: second) = parts first ++ parts second := by
  have hsplit : (first ++ ';' :: second).splitOn ';' =
      first.splitOn ';' ++ second.splitOn ';' := by
    simp only [List.splitOn_eq_splitOnP]
    exact List.splitOnP_append_cons first second rfl
  rw [parts, hsplit, List.map_append, List.filter_append]
  rfl

theorem parts_of_not_mem {text : List Char} (h : ';' ∉ text) :
    parts text = [Text.trim text].filter (!·.isEmpty) := by
  have hsplit : text.splitOn ';' = [text] := by
    rw [List.splitOn_eq_splitOnP]
    exact List.splitOnP_eq_singleton fun c hc ↦ beq_false_of_ne (ne_of_mem_of_not_mem hc h)
  rw [parts, hsplit, List.map_singleton]

theorem parts_blanks_append {blanks : List Char} (h : Blanks blanks) (text : List Char) :
    parts (blanks ++ text) = parts text := by
  have hplain : ∀ {text : List Char}, ';' ∉ text → parts (blanks ++ text) = parts text := by
    intro text htext
    have happend : ';' ∉ blanks ++ text :=
      fun hc ↦ (List.mem_append.mp hc).elim (h.not_mem (by decide)) htext
    rw [parts_of_not_mem happend, parts_of_not_mem htext, Text.trim, Text.trimLeft_append h,
      ← Text.trim]
  by_cases hmem : ';' ∈ text
  · obtain ⟨first, second, rfl, hfirst⟩ := List.eq_append_cons_of_mem hmem
    rw [← List.append_assoc, parts_append, hplain hfirst, parts_append]
  · exact hplain hmem

theorem parts_append_blanks {blanks : List Char} (h : Blanks blanks) (text : List Char) :
    parts (text ++ blanks) = parts text := by
  by_cases hmem : ';' ∈ text
  · obtain ⟨first, second, rfl, -⟩ := List.eq_append_cons_of_mem hmem
    have : second.length < (first ++ ';' :: second).length := by
      rw [List.length_append, List.length_cons]
      omega
    rw [List.append_assoc, List.cons_append, parts_append, parts_append,
      parts_append_blanks h second]
  · have happend : ';' ∉ text ++ blanks :=
      fun hc ↦ (List.mem_append.mp hc).elim hmem (h.not_mem (by decide))
    rw [parts_of_not_mem happend, parts_of_not_mem hmem, Text.trim_append_blanks h]
termination_by text.length

theorem parts_trim (text : List Char) : parts (Text.trim text) = parts text := by
  obtain ⟨front, back, hfront, hback, htext⟩ := Text.exists_blanks_trim text
  conv_rhs => rw [← htext, parts_append_blanks hback, parts_blanks_append hfront]

/-! ### Descriptions with a semicolon, or without a connective -/

/-- The word "und" stands between two products: it has blanks on both sides. -/
def Connects (text : List Char) : Prop :=
  ∃ before after, Text.isBlank before = true ∧ Text.isBlank after = true ∧
    before :: ("und".toList ++ [after]) <:+: text

theorem connective_eq_none {text rest : List Char} (h : ¬ Connects text) (hrest : rest <:+ text) :
    connective rest = none := by
  refine Text.Separator.ofReader_eq_none (Option.eq_none_iff_forall_ne_some.mpr ?_)
  intro later hlater
  obtain ⟨front, back, hfront, hback, rfl, -⟩ := exists_gaps_of_afterBlankWord? hlater
  obtain ⟨start, before, rfl⟩ := (List.eq_nil_or_concat front).resolve_left hfront.ne_nil
  obtain ⟨after, more, rfl⟩ := List.exists_cons_of_ne_nil hback.ne_nil
  refine h ⟨before, after, hfront.all before (by simp), hback.all after (by simp), ?_⟩
  refine List.IsInfix.trans ⟨start, more ++ later, ?_⟩ hrest.isInfix
  simp

/-- A description whose parts are set apart by semicolons, if it has more than one. It has no
asides. -/
structure Separate (text : List Char) : Prop where
  opening : '(' ∉ text
  semicolon : ';' ∈ text ∨ ¬ Connects text

theorem Separate.segments_eq {text : List Char} (h : Separate text) : segments text = parts text := by
  unfold segments
  rw [erase_aside_eq_self h.opening]
  by_cases hmem : ';' ∈ text
  · have hcontains : (Text.trim text).contains ';' = true :=
      List.contains_iff_mem.mpr ((Text.mem_trim_iff (by decide)).mpr hmem)
    simp only [hcontains, if_true, cut_semicolon]
    exact parts_trim text
  · have hcontains : (Text.trim text).contains ';' = false := by
      simpa using fun hc ↦ hmem (Text.trim_subset text hc)
    have hnone : ∀ rest, rest <:+ Text.trim text → connective rest = none := by
      refine fun rest ↦ connective_eq_none fun hconnects ↦ ?_
      obtain ⟨before, after, hbefore, hafter, hinfix⟩ := hconnects
      exact h.semicolon.resolve_left hmem
        ⟨before, after, hbefore, hafter, hinfix.trans (Text.isInfix_trim text)⟩
    simp only [hcontains, if_neg Bool.false_ne_true, Text.cut, Text.cutFirst_eq_self hnone,
      List.map_singleton, Text.trim_trim]
    exact (parts_of_not_mem hmem).symm

theorem Separate.append {first second : List Char} (hfirst : Separate first)
    (hsecond : Separate second) : Separate (first ++ ';' :: second) where
  opening := by
    simp only [List.mem_append, List.mem_cons, not_or]
    exact ⟨hfirst.opening, by decide, hsecond.opening⟩
  semicolon := .inl (List.mem_append_right _ List.mem_cons_self)

theorem segments_append {first second : List Char} (hfirst : Separate first)
    (hsecond : Separate second) :
    segments (first ++ ';' :: second) = segments first ++ segments second := by
  rw [(hfirst.append hsecond).segments_eq, hfirst.segments_eq, hsecond.segments_eq, parts_append]

/-! ### Reading in turn -/

section
variable (rolling : Bool) (points : Option Int)

theorem readSegments_append (first second : List (List Char)) :
    readSegments rolling points (first ++ second) = (do
      let items ← readSegments rolling points first
      let others ← readSegments rolling points second
      pure (items ++ others)) := by
  induction first with
  | nil => simp [readSegments]
  | cons segment first ih =>
    simp only [List.cons_append, readSegments, ih, bind_assoc, pure_bind, List.append_assoc]

/-- A semicolon sets two descriptions apart: the second one is read behind the first, with the dice
that the first has left. -/
theorem read_in_turn {first second : String} (hfirst : Separate first.toList)
    (hsecond : Separate second.toList) :
    read rolling points (first ++ ";" ++ second) = (do
      let items ← read rolling points first
      let others ← read rolling points second
      pure (items ++ others)) := by
  have htext : (first ++ ";" ++ second).toList = first.toList ++ ';' :: second.toList := by
    rw [String.toList_append, String.toList_append, List.append_assoc]
    rfl
  rw [read_eq_readSegments, read_eq_readSegments, read_eq_readSegments, htext,
    segments_append hfirst hsecond, readSegments_append]

end

/-- The word "und" does not set products apart next to a semicolon of its own description. -/
theorem read_in_turn_past_connective :
    Separate "2 Blätter und Blüten; W6 Kolben".toList ∧ Separate "eine Samenkapsel".toList ∧
      ∀ rolling points,
        read rolling points "2 Blätter und Blüten; W6 Kolben;eine Samenkapsel" = (do
          let items ← read rolling points "2 Blätter und Blüten; W6 Kolben"
          let others ← read rolling points "eine Samenkapsel"
          pure (items ++ others)) := by
  have hfirst : Separate "2 Blätter und Blüten; W6 Kolben".toList := ⟨by decide, .inl (by decide)⟩
  have hsecond : Separate "eine Samenkapsel".toList := by
    refine ⟨by decide, .inr ?_⟩
    rintro ⟨before, after, -, -, hinfix⟩
    have hund : "und".toList <:+: "eine Samenkapsel".toList :=
      List.IsInfix.trans ⟨[before], [after], rfl⟩ hinfix
    exact absurd hund (by decide)
  have htext : "2 Blätter und Blüten; W6 Kolben;eine Samenkapsel" =
      "2 Blätter und Blüten; W6 Kolben" ++ ";" ++ "eine Samenkapsel" := by decide
  refine ⟨hfirst, hsecond, fun rolling points ↦ ?_⟩
  rw [htext]
  exact read_in_turn rolling points hfirst hsecond

end Aventuria.Harvest
