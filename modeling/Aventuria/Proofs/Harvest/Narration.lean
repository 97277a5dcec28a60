import Aventuria.Proofs.Harvest.Reading
import Aventuria.Proofs.Harvest.Spelling

/-!
# Narration

Behind a comma a segment may go on with narration, which is not meant to say anything about the
harvest. Conditions and the word "mit" are read before the narration is left out, so it may say
something all the same. It does not where the segment is complete without it and the narration has
no "mit" of its own (`narration_is_ignored`); without any of these assumptions it may
(`narration_is_read`).
-/

set_option autoImplicit false
set_option relaxedAutoImplicit false

namespace Aventuria.Harvest

open Dice (Throw)
open Text (Blanks EndsSolid Run words)

/-- A segment means the same with some narration behind it. -/
def IgnoresNarration (segment narration : List Char) : Prop :=
  ∀ rolling points, readSegment rolling points (segment ++ (", ".toList ++ narration)) =
    readSegment rolling points segment

/-- A segment that ends in a condition with nothing behind it. -/
inductive Unfinished : List Char → Prop
  | bare {segment : List Char} {condition : Condition}
      (h : condition.Spells (Text.trim segment)) : Unfinished segment
  | behind {segment body : List Char} {condition : Condition}
      (hread : Condition.read? (Text.trim segment) = some (condition, body))
      (hbody : Unfinished body) : Unfinished segment

/-- A text that ends in the word "mit" behind a blank. -/
def EndsInWith (text : List Char) : Prop :=
  ∃ before gap, Run Text.isBlank gap ∧ before ++ (gap ++ "mit".toList) = text

theorem EndsInWith.of_suffix {part text : List Char} (h : EndsInWith part) (hpart : part <:+ text) :
    EndsInWith text := by
  obtain ⟨before, gap, hgap, rfl⟩ := h
  obtain ⟨start, rfl⟩ := hpart
  exact ⟨start ++ before, gap, hgap, List.append_assoc _ _ _⟩

/-- A segment with something behind its conditions and behind the word "mit", and with no line break
behind that. -/
structure Complete (segment : List Char) : Prop where
  finished : ¬ Unfinished segment
  word : ∀ text back, Run Text.isBlank back → text ++ back = segment → ¬ EndsInWith text
  line : ∀ text back, Blanks back → text ++ back = segment → '\n' ∉ back

theorem Unfinished.getLast?_eq {segment : List Char} (h : Unfinished segment) :
    (Text.trim segment).getLast? = some ':' := by
  induction h with
  | bare h => exact h.getLast?_eq
  | @behind segment body condition hread _ ih =>
    have hbody := Condition.suffix_of_read? hread
    have hsuffix : Text.trim body <:+ body :=
      ((Text.endsSolid_trim segment).of_suffix hbody).trim_eq ▸ List.dropWhile_suffix Text.isBlank
    obtain ⟨before, hbefore⟩ := hsuffix.trans hbody
    rw [← hbefore, List.getLast?_append, ih]
    rfl

/-- A segment whose last character is neither a blank nor a colon is complete. -/
theorem complete_of_getLast? {segment : List Char} {c : Char} (h : segment.getLast? = some c)
    (hsolid : Text.isBlank c = false) (hcolon : c ≠ ':') : Complete segment := by
  have hend : EndsSolid segment := by
    intro d hd
    rwa [← Option.some.inj (h.symm.trans hd)]
  have hnil : ∀ text back, Blanks back → text ++ back = segment → back = [] :=
    fun text back hback htext ↦ (hend.of_suffix ⟨text, htext⟩).eq_nil_of_blanks hback
  refine ⟨fun hunfinished ↦ ?_, fun text back hback htext ↦ ?_, fun text back hback htext ↦ ?_⟩
  · have hlast := hunfinished.getLast?_eq
    have hne : segment ≠ [] := by
      rintro rfl
      cases h
    obtain ⟨before, hbefore⟩ : Text.trimLeft segment <:+ segment :=
      List.dropWhile_suffix Text.isBlank
    rw [hend.trim_eq] at hlast
    rw [← hbefore, List.getLast?_append, hlast] at h
    exact hcolon (Option.some.inj h).symm
  · exact absurd (hnil text back hback.all htext) hback.ne_nil
  · rw [hnil text back hback htext]
    exact List.not_mem_nil

/-! ### Texts with more behind them -/

theorem afterBlanks?_append {text : List Char} (hne : text ≠ []) (hend : EndsSolid text)
    (more : List Char) : afterBlanks? (text ++ more) = (afterBlanks? text).map (· ++ more) := by
  cases text with
  | nil => exact absurd rfl hne
  | cons c text =>
    rw [List.cons_append, afterBlanks?, afterBlanks?]
    cases hc : Text.isBlank c with
    | false => rfl
    | true =>
      have hrest : text ≠ [] := by
        rintro rfl
        have hsolid := hend c rfl
        rw [hc] at hsolid
        cases hsolid
      have hleft := (hend.of_suffix (List.suffix_cons c text)).trimLeft_ne_nil hrest
      rw [if_pos rfl, if_pos rfl, Text.trimLeft_append_of_ne_nil hleft]
      rfl

theorem startsWith_append {word text more : List Char} (h : ∀ c ∈ more.head?, c ∉ word) :
    Text.startsWith word (text ++ more) = Text.startsWith word text := by
  induction word generalizing text with
  | nil => rfl
  | cons w word ih =>
    cases text with
    | nil =>
      cases more with
      | nil => rfl
      | cons c more =>
        have hc : w ≠ c := fun hw ↦ h c rfl (hw ▸ List.mem_cons_self)
        simp [Text.startsWith, List.isPrefixOf, hc]
    | cons c text =>
      have hrest := @ih text fun c hc hmem ↦ h c hc (List.mem_cons_of_mem _ hmem)
      simp only [Text.startsWith] at hrest
      simp only [Text.startsWith, List.cons_append, List.isPrefixOf, hrest]

/-- A word between blanks is found in a text as before unless the text ends in it. -/
theorem afterBlankWord?_append {word text more : List Char} (hend : EndsSolid text)
    (hmore : ∀ c ∈ more.head?, c ∉ word)
    (hlast : ∀ gap, Run Text.isBlank gap → gap ++ word = text → afterBlanks? more = none)
    (hne : text ≠ []) :
    afterBlankWord? word (text ++ more) = (afterBlankWord? word text).map (· ++ more) := by
  simp only [afterBlankWord?, Option.bind_eq_bind]
  rw [afterBlanks?_append hne hend]
  cases hafter : afterBlanks? text with
  | none => rfl
  | some rest =>
    obtain ⟨gap, hgap, rfl, -⟩ := afterBlanks?_eq_some_iff.mp hafter
    simp only [Option.map_some, Option.bind_some, startsWith_append hmore]
    split
    · next hstart =>
      obtain ⟨later, rfl⟩ := List.isPrefixOf_iff_prefix.mp hstart
      rw [List.append_assoc, List.drop_left, List.drop_left]
      by_cases hlater : later = []
      · subst hlater
        rw [List.append_nil] at hlast
        rw [List.nil_append, hlast gap hgap rfl]
        rfl
      · refine afterBlanks?_append hlater (hend.of_suffix ?_) more
        exact (List.suffix_append _ _).trans (List.suffix_append _ _)
    · rfl

/-! ### The appendix of a segment -/

/-- What stands behind a segment in front of and including its narration: blanks, the comma, and a
text without blanks at its end. All of it is on one line, and no "mit" in it has something behind
it. -/
structure Appendix (back tail : List Char) : Prop where
  blanks : Blanks back
  line : '\n' ∉ back ++ ',' :: tail
  trimmed : Text.trimRight tail = tail
  word : "mit".toList ∉ (words (',' :: tail)).dropLast

section
variable {back tail text : List Char} (happendix : Appendix back tail)
include happendix

theorem Appendix.head?_not_mem_mit : ∀ c ∈ (back ++ ',' :: tail).head?, c ∉ "mit".toList := by
  intro c hc hmem
  rcases Text.isBlank_or_eq_of_head? happendix.blanks hc with hblank | rfl
  · have hsolid : Text.Solid "mit".toList := by decide
    rw [hsolid c hmem] at hblank
    cases hblank
  · exact absurd hmem (by decide)

theorem Appendix.afterLastWith?_eq_none : afterLastWith? (back ++ ',' :: tail) = none := by
  have hwords := happendix.word
  rw [← Text.words_blanks_append happendix.blanks] at hwords
  exact Harvest.afterLastWith?_eq_none hwords

/-- A "mit" at the head of a text, with the appendix behind what follows it. -/
theorem Appendix.keeps_body {word : List Char} (hend : EndsSolid text) :
    ((afterBlankWord? word text).map (· ++ (back ++ ',' :: tail))).filter
        (fun body ↦ !body.isEmpty && !body.contains '\n') =
      ((afterBlankWord? word text).filter fun body ↦ !body.isEmpty && !body.contains '\n').map
        (· ++ (back ++ ',' :: tail)) := by
  cases hbody : afterBlankWord? word text with
  | none => rfl
  | some body =>
    obtain ⟨front, gap, -, hgap, rfl, -⟩ := exists_gaps_of_afterBlankWord? hbody
    have hne : body ≠ [] := by
      rintro rfl
      have hsuffix : gap <:+ front ++ (word ++ (gap ++ [])) := by
        rw [List.append_nil]
        exact (List.suffix_append _ _).trans (List.suffix_append _ _)
      exact hgap.ne_nil ((hend.of_suffix hsuffix).eq_nil_of_blanks hgap.all)
    have hline : (body ++ (back ++ ',' :: tail)).contains '\n' = body.contains '\n' := by
      rw [Bool.eq_iff_iff, List.contains_iff_mem, List.contains_iff_mem, List.mem_append]
      exact or_iff_left happendix.line
    have hempty : (body ++ (back ++ ',' :: tail)).isEmpty = body.isEmpty := by
      rw [List.isEmpty_eq_false_iff.mpr hne, List.isEmpty_eq_false_iff]
      exact List.append_ne_nil_of_left_ne_nil hne _
    rw [Option.map_some, Option.filter_some, Option.filter_some, hempty, hline]
    split <;> rfl

/-- The last "mit" of a segment stays the last one. -/
theorem Appendix.afterLastWith?_append (hend : EndsSolid text)
    (hwith : back ≠ [] → ¬ EndsInWith text) :
    afterLastWith? (text ++ (back ++ ',' :: tail)) =
      (afterLastWith? text).map (· ++ (back ++ ',' :: tail)) := by
  induction text with
  | nil => exact happendix.afterLastWith?_eq_none
  | cons c text ih =>
    have hrest := ih (hend.of_suffix (List.suffix_cons c text)) fun hback hmit ↦
      hwith hback (hmit.of_suffix (List.suffix_cons c text))
    have hhere := afterBlankWord?_append hend happendix.head?_not_mem_mit
      (fun gap hgap htext ↦ ?_) (List.cons_ne_nil c text)
    · rw [List.cons_append] at hhere
      rw [List.cons_append, afterLastWith?, afterLastWith?, hrest, hhere, happendix.keeps_body hend,
        Option.map_or]
      split <;> rfl
    · have hback : back = [] := by
        by_contra hback
        exact hwith hback ⟨[], gap, hgap, htext⟩
      rw [hback]
      rfl

/-- The comma cuts off just the appendix. -/
theorem Appendix.core_append (hend : EndsSolid text) (hwith : back ≠ [] → ¬ EndsInWith text)
    (hcomma : ',' ∉ text) : core (text ++ (back ++ ',' :: tail)) = core text := by
  have hsplit : (afterLastWith? (text ++ (back ++ ',' :: tail))).getD
      (text ++ (back ++ ',' :: tail)) =
        (afterLastWith? text).getD text ++ (back ++ ',' :: tail) := by
    rw [happendix.afterLastWith?_append hend hwith]
    exact Option.getD_map (· ++ (back ++ ',' :: tail)) text (afterLastWith? text)
  have hbody : ',' ∉ (afterLastWith? text).getD text := by
    cases hlast : afterLastWith? text with
    | none => exact hcomma
    | some body => exact fun hc ↦ hcomma ((suffix_of_afterLastWith? hlast).subset hc)
  rw [core, core, hsplit]
  generalize (afterLastWith? text).getD text = body at hbody
  have hback : ',' ∉ back := happendix.blanks.not_mem (by decide)
  have hfront : ',' ∉ body ++ back := fun hc ↦ (List.mem_append.mp hc).elim hbody hback
  have hplain : ∀ c ∈ body, decide (c ≠ ',') = true :=
    fun c hc ↦ decide_eq_true (ne_of_mem_of_not_mem hc hbody)
  rw [← List.append_assoc, (Text.run_append_stop hfront tail).1,
    List.takeWhile_eq_self_iff.mpr hplain, Text.trim_append_blanks happendix.blanks]

/-- A condition does not reach into the appendix. -/
theorem Appendix.exists_eq_header_append {header rest : List Char} {condition : Condition}
    (hspells : condition.Spells header) (h : header ++ rest = text ++ (back ++ ',' :: tail)) :
    ∃ later, header ++ later = text ∧ rest = later ++ (back ++ ',' :: tail) := by
  rcases List.append_eq_append_iff.mp h with ⟨later, rfl, hrest⟩ | ⟨part, rfl, hpart⟩
  · exact ⟨later, rfl, hrest⟩
  · have hblanks : Blanks part := by
      rcases List.append_eq_append_iff.mp hpart with ⟨between, rfl, hbetween⟩ | ⟨later, hback, -⟩
      · cases between with
        | nil =>
          rw [List.append_nil]
          exact happendix.blanks
        | cons c between =>
          obtain ⟨rfl, -⟩ := List.cons.inj hbetween
          exact absurd (by simp) hspells.comma_not_mem
      · exact fun c hc ↦ happendix.blanks c (hback ▸ List.mem_append_left _ hc)
    have hnil : part = [] := by
      cases hlast : part.getLast? with
      | none => exact List.getLast?_eq_none_iff.mp hlast
      | some c =>
        have hcolon := hspells.getLast?_eq
        rw [List.getLast?_append, hlast] at hcolon
        have hc := hblanks c (List.mem_of_getLast? hlast)
        rw [Option.some.inj hcolon] at hc
        exact absurd hc (by decide)
    subst hnil
    exact ⟨[], by rw [List.append_nil, List.append_nil], hpart.symm⟩

/-- The appendix makes no condition of what was none, unless there was just nothing behind it. -/
theorem Appendix.read?_append_eq_none (hend : EndsSolid text)
    (hbare : ∀ condition : Condition, ¬ condition.Spells text)
    (hread : Condition.read? text = none) :
    Condition.read? (text ++ (back ++ ',' :: tail)) = none := by
  rw [Option.eq_none_iff_forall_ne_some]
  rintro ⟨condition, body⟩ hbody
  obtain ⟨header, gap, happend, hspells, hgap, hne, hstart, hline⟩ :=
    Condition.read?_eq_some_iff.mp hbody
  obtain ⟨later, rfl, hlater⟩ := happendix.exists_eq_header_append hspells happend
  have hlater' : later ≠ [] := by
    rintro rfl
    rw [List.append_nil] at hbare
    exact hbare condition hspells
  have hleft := (hend.of_suffix (List.suffix_append header later)).trimLeft_ne_nil hlater'
  have hbody' : body = Text.trimLeft later ++ (back ++ ',' :: tail) := by
    rw [← Text.trimLeft_append_of_ne_nil hleft, ← hlater]
    exact (Text.run_append hgap hstart).2.symm
  obtain ⟨gap', hgap', hgap''⟩ := Text.exists_blanks_trimLeft later
  have hsome := Condition.read?_eq_some_iff.mpr ⟨header, gap', by rw [hgap''], hspells, hgap',
    hleft, fun _ ↦ Text.head?_dropWhile, fun hc ↦ hline (hbody' ▸ List.mem_append_left _ hc)⟩
  rw [hread] at hsome
  cases hsome

theorem Appendix.trim_append (hend : EndsSolid text) (hne : text ≠ []) :
    Text.trim (text ++ (back ++ ',' :: tail)) = Text.trim text ++ (back ++ ',' :: tail) := by
  have hleft := hend.trimLeft_ne_nil hne
  rw [hend.trim_eq, Text.trim, Text.trimLeft_append_of_ne_nil hleft, ← List.append_assoc,
    Text.trimRight_append_cons (by decide), happendix.trimmed, List.append_assoc]

end

/-! ### What a segment describes with its appendix -/

/-- Blanks around a segment mean nothing. -/
theorem Describes.of_trim_eq {segment other : List Char} {conditions : List Threshold} {item : Item}
    (h : Describes segment conditions item) (htrim : Text.trim segment = Text.trim other) :
    Describes other conditions item := by
  cases h with
  | plain hne hread hitem =>
    rw [htrim] at hne hread hitem
    exact .plain hne hread hitem
  | behind hread hthreshold hbody =>
    rw [htrim] at hread
    exact .behind hread hthreshold hbody

/-- Each of the conditions is read as before, and so is the item behind the last of them. -/
theorem Describes.append {segment : List Char} {conditions : List Threshold} {item : Item}
    (h : Describes segment conditions item) {back tail : List Char} (happendix : Appendix back tail)
    (hend : EndsSolid segment) (hcomma : ',' ∉ segment) (hfinished : ¬ Unfinished segment)
    (hwith : back ≠ [] → ¬ EndsInWith segment) :
    Describes (segment ++ (back ++ ',' :: tail)) conditions item := by
  induction h with
  | @plain segment item hne hread hitem =>
    have hne' : segment ≠ [] := by
      rintro rfl
      exact hne rfl
    have hsuffix : Text.trim segment <:+ segment :=
      hend.trim_eq ▸ List.dropWhile_suffix Text.isBlank
    have htrimmed := Text.endsSolid_trim segment
    have hread' := happendix.read?_append_eq_none htrimmed
      (fun condition hbare ↦ hfinished (.bare hbare)) hread
    have hcore := happendix.core_append htrimmed
      (fun hback hmit ↦ hwith hback (hmit.of_suffix hsuffix)) fun hc ↦ hcomma (hsuffix.subset hc)
    rw [← happendix.trim_append hend hne'] at hread' hcore
    refine .plain ?_ hread' (hcore.symm ▸ hitem)
    rw [happendix.trim_append hend hne']
    exact List.append_ne_nil_of_left_ne_nil hne _
  | @behind segment body condition threshold conditions item hread hthreshold hbody ih =>
    have hne : segment ≠ [] := by
      rintro rfl
      cases hread
    have hsuffix : body <:+ segment :=
      (Condition.suffix_of_read? hread).trans (hend.trim_eq ▸ List.dropWhile_suffix Text.isBlank)
    have hread' := Condition.read?_append hread happendix.line
    rw [← happendix.trim_append hend hne] at hread'
    exact .behind hread' hthreshold <| ih (hend.of_suffix hsuffix)
      (fun hc ↦ hcomma (hsuffix.subset hc))
      (fun hunfinished ↦ hfinished (.behind hread hunfinished))
      fun hback hmit ↦ hwith hback (hmit.of_suffix hsuffix)

/-! ### Narration behind a comma -/

theorem not_mem_dropLast_of_narration {narration : List Char}
    (hmit : "mit".toList ∉ (words narration).dropLast) :
    "mit".toList ∉ (words (',' :: Text.trimRight (' ' :: narration))).dropLast := by
  have hwords : words (',' :: Text.trimRight (' ' :: narration)) = [','] :: words narration :=
    (Text.words_append_trimRight [','] (' ' :: narration)).trans
      (Text.words_word_append (List.cons_ne_nil _ _) (by decide) (by decide) narration)
  rw [hwords]
  cases hlater : words narration with
  | nil => exact List.not_mem_nil
  | cons word later =>
    rw [hlater] at hmit
    rw [List.dropLast_cons_of_ne_nil (List.cons_ne_nil _ _), List.mem_cons, not_or]
    exact ⟨by decide, hmit⟩

/-- Without the blanks around it, a complete segment with narration is the segment and an
appendix. -/
theorem Complete.exists_appendix {segment narration : List Char} (h : Complete segment)
    (hne : Text.trim segment ≠ []) (hline : '\n' ∉ narration)
    (hmit : "mit".toList ∉ (words narration).dropLast) :
    ∃ back tail, Appendix back tail ∧ (back ≠ [] → ¬ EndsInWith (Text.trim segment)) ∧
      Text.trim (segment ++ (", ".toList ++ narration)) =
        Text.trim segment ++ (back ++ ',' :: tail) := by
  obtain ⟨front, back, hfront, hback, htext⟩ := Text.exists_blanks_trim segment
  refine ⟨back, Text.trimRight (' ' :: narration), ⟨hback, ?_, Text.trimRight_trimRight _,
    not_mem_dropLast_of_narration hmit⟩, ?_, ?_⟩
  · have hback' := h.line _ back hback htext
    have hnarration : '\n' ∉ Text.trimRight (' ' :: narration) := by
      intro hc
      rcases List.mem_cons.mp (Text.trimRight_subset _ hc) with hspace | hc
      · exact absurd hspace (by decide)
      · exact hline hc
    simp only [List.mem_append, List.mem_cons, not_or]
    exact ⟨hback', by decide, hnarration⟩
  · intro hback' hwith
    exact h.word _ back ⟨hback', hback⟩ htext (hwith.of_suffix (List.suffix_append _ _))
  · obtain ⟨c, rest, hcons⟩ := List.exists_cons_of_ne_nil hne
    have hleft : ∀ more, Text.trimLeft (Text.trim segment ++ more) = Text.trim segment ++ more := by
      rw [hcons]
      exact fun more ↦ Text.trimLeft_cons (Text.not_isBlank_of_trim hcons) (rest ++ more)
    have hlong : segment ++ (", ".toList ++ narration) =
        front ++ (Text.trim segment ++ (back ++ ',' :: (' ' :: narration))) := by
      conv_lhs => rw [← htext]
      simp only [List.append_assoc]
      rfl
    rw [hlong, Text.trim, Text.trimLeft_append hfront, hleft, ← List.append_assoc,
      Text.trimRight_append_cons (by decide), List.append_assoc]

/-- A complete segment means the same with narration behind a comma, as long as that stays on one
line and has no "mit" with something behind it. -/
theorem narration_is_ignored {segment narration : List Char} (hne : Text.trim segment ≠ [])
    (hcomma : ',' ∉ segment) (hcomplete : Complete segment) (hline : '\n' ∉ narration)
    (hmit : "mit".toList ∉ (words narration).dropLast) : IgnoresNarration segment narration := by
  obtain ⟨back, tail, happendix, hwith, htrim⟩ := hcomplete.exists_appendix hne hline hmit
  obtain ⟨conditions, item, hdescribes⟩ := exists_describes segment hne
  have hfinished : ¬ Unfinished (Text.trim segment) := by
    intro hunfinished
    refine hcomplete.finished ?_
    cases hunfinished with
    | bare h =>
      rw [Text.trim_trim] at h
      exact .bare h
    | behind hread hbody =>
      rw [Text.trim_trim] at hread
      exact .behind hread hbody
  have hlong : Describes (segment ++ (", ".toList ++ narration)) conditions item := by
    have hshort := hdescribes.of_trim_eq (Text.trim_trim segment).symm
    have happended := hshort.append happendix (Text.endsSolid_trim segment)
      (fun hc ↦ hcomma (Text.trim_subset _ hc)) hfinished hwith
    rw [← htrim] at happended
    exact happended.of_trim_eq (Text.trim_trim _)
  intro rolling points
  rw [hlong.readSegment_eq, hdescribes.readSegment_eq]

/-- The words of the narration are no part of what is gathered. -/
theorem narration_is_ignored_behind_condition :
    IgnoresNarration "IF TaP*>=7: Strauch mit W6 Blüten".toList "verblüht".toList := by
  have hcomplete : Complete "IF TaP*>=7: Strauch mit W6 Blüten".toList :=
    complete_of_getLast? (c := 'n') (by decide) (by decide) (by decide)
  have hwords : words "verblüht".toList = ["verblüht".toList] :=
    Text.words_of_solid (by decide) (by decide)
  exact narration_is_ignored (by decide) (by decide) hcomplete (by decide) (by rw [hwords]; decide)

theorem not_ignoresNarration {segment narration : List Char} {conditions others : List Threshold}
    {item other : Item} (h : Describes segment conditions item)
    (hother : Describes (segment ++ (", ".toList ++ narration)) others other) (hne : item ≠ other) :
    ¬ IgnoresNarration segment narration := by
  intro hignores
  have hread := hignores false none
  rw [h.readSegment_eq, hother.readSegment_eq] at hread
  have hopen : ∀ thresholds : List Threshold, thresholds.all (·.isOpen none) = true :=
    fun thresholds ↦ List.all_eq_true.mpr fun _ _ ↦ rfl
  rw [hopen, hopen, if_pos rfl, if_pos rfl] at hread
  exact hne (Option.some.inj (Throw.pure_inj hread)).symm

/-- Narration with a "mit" of its own is taken for the product. So is any narration behind a
condition with nothing else behind it, and behind a "mit" and a blank; and a line break between the
segment and its comma makes an earlier "mit" invisible. -/
theorem narration_is_read :
    ¬ IgnoresNarration "5 Blüten".toList "die mit Tau benetzt sind".toList ∧
    ¬ IgnoresNarration "IF TaP*>=7:".toList "reif".toList ∧
    ¬ IgnoresNarration "Strauch mit ".toList "reif".toList ∧
    ¬ IgnoresNarration "Strauch mit W6 Blüten\n".toList "reif".toList := by
  refine ⟨?_, ?_, ?_, ?_⟩
  · have hblossoms : Describes "5 Blüten".toList [] (Item.plain "Blüten" (.fixed 5)) :=
      .plain (by decide) (by decide) rfl
    have hdew : Describes
        ("5 Blüten".toList ++ (", ".toList ++ "die mit Tau benetzt sind".toList)) []
        (Item.plain "Tau benetzt sind" (.fixed 1)) :=
      .plain (by decide) (by decide) rfl
    exact not_ignoresNarration hblossoms hdew (by decide)
  · have hbare : Describes "IF TaP*>=7:".toList [] (Item.plain "IF TaP*>=7:" (.fixed 1)) :=
      .plain (by decide) (by decide) rfl
    have hread : Condition.read?
        (Text.trim ("IF TaP*>=7:".toList ++ (", ".toList ++ "reif".toList))) =
          some (⟨">=", ['7']⟩, ", reif".toList) := by decide
    have hempty : Describes ", reif".toList [] (Item.plain "" (.fixed 1)) :=
      .plain (by decide) (by decide) rfl
    exact not_ignoresNarration hbare (.behind hread rfl hempty) (by decide)
  · have hbush : Describes "Strauch mit ".toList [] (Item.plain "Strauch mit" (.fixed 1)) :=
      .plain (by decide) (by decide) rfl
    have hempty : Describes ("Strauch mit ".toList ++ (", ".toList ++ "reif".toList)) []
        (Item.plain "" (.fixed 1)) :=
      .plain (by decide) (by decide) rfl
    exact not_ignoresNarration hbush hempty (by decide)
  · have hblossoms : Describes "Strauch mit W6 Blüten\n".toList []
        (Item.plain "Blüten" (.dice ⟨1, 6, 0, "W6", by decide, by decide, by decide⟩)) :=
      .plain (by decide) (by decide) rfl
    have hbush : Describes ("Strauch mit W6 Blüten\n".toList ++ (", ".toList ++ "reif".toList)) []
        (Item.plain "Strauch mit W6 Blüten" (.fixed 1)) :=
      .plain (by decide) (by decide) rfl
    exact not_ignoresNarration hblossoms hbush (by decide)

end Aventuria.Harvest
