import Aventuria.Duration.Effect
import Aventuria.Proofs.Duration.Reading

/-!
# Specifications of effects

A specification is an expression, blanks and a last word that names a unit (`Effect.HasUnit`). What
is done with a text depends on no more than that: a text that specifies an expression has it
evaluated, one with digits that are no number where the grammar awaits a number is refused with
that fault, and every other text comes to nothing, but for the dice in front of its flaw
(`Effect.judged_evaluate?`).
-/

set_option autoImplicit false
set_option relaxedAutoImplicit false

namespace Aventuria.Duration.Effect

open Text (Blanks Solid)
open Dice (Throw)

/-- Trimmed, the text is a body, blanks and a last word that names a unit. -/
structure HasUnit (text body unit : List Char) : Prop where
  exists_blanks : ∃ blanks, blanks ≠ [] ∧ Blanks blanks ∧ body ++ blanks ++ unit = Text.trim text
  ne_nil : unit ≠ []
  solid : Solid unit
  known : (wordDays? unit).isSome

/-- The text is an expression of the grammar and a unit. -/
def Specifies (text : List Char) (expression : Expression) (unit : List Char) : Prop :=
  ∃ body, HasUnit text body unit ∧ Expression.Derives .sum body expression

/-- The text has a unit, and in front of it digits that are no number where one is awaited. -/
def Misnumbered (text digits : List Char) : Prop :=
  ∃ body unit, HasUnit text body unit ∧ Expression.Stumbles .sum body digits

/-! ### The last word -/

theorem cutUnit?_eq_some_iff {text expression unit : List Char} :
    cutUnit? text = some (expression, unit) ↔
      ∃ word words, Text.words (Text.trim text) = word :: (words ++ [unit]) ∧
        Text.trim ((Text.trim text).take ((Text.trim text).length - unit.length)) = expression := by
  unfold cutUnit?
  dsimp only
  constructor
  · intro h
    split at h
    · cases h
    · cases h
    · next first second later hwords =>
      have hlast := List.dropLast_concat_getLast (List.cons_ne_nil second later)
      cases h
      exact ⟨first, _, by rw [hwords, hlast], rfl⟩
  · rintro ⟨word, words, hwords, rfl⟩
    rw [hwords]
    cases words with
    | nil => rfl
    | cons second later =>
      have hlast : (second :: (later ++ [unit])).getLast (List.cons_ne_nil _ _) = unit :=
        @List.getLast_concat _ unit (second :: later)
      simp only [List.cons_append, hlast]

/-- What stands in front of the last blanks of a trimmed text. -/
theorem front_facts {text body blanks unit : List Char} (hne : blanks ≠ [])
    (hblanks : Blanks blanks) (htext : body ++ blanks ++ unit = Text.trim text) :
    (∃ c rest, body = c :: rest ∧ Text.isBlank c = false) ∧
      Text.trim ((Text.trim text).take ((Text.trim text).length - unit.length)) =
        Text.trimRight body := by
  have htake : (Text.trim text).take ((Text.trim text).length - unit.length) = body ++ blanks := by
    rw [← htext, List.length_append, Nat.add_sub_cancel, List.take_left]
  cases body with
  | nil =>
    obtain ⟨blank, blanks, rfl⟩ := List.exists_cons_of_ne_nil hne
    rw [List.nil_append, List.cons_append] at htext
    have hblank := (Text.blanks_cons.mp hblanks).1
    rw [Text.not_isBlank_of_trim htext.symm] at hblank
    cases hblank
  | cons c body =>
    have hc := Text.not_isBlank_of_trim htext.symm
    refine ⟨⟨c, body, rfl, hc⟩, ?_⟩
    rw [htake, Text.trim, List.cons_append, Text.trimLeft_cons hc, ← List.cons_append,
      Text.trimRight_append_blanks hblanks]

/-- The unit is the last word, and what stands in front of it is trimmed. -/
theorem HasUnit.cutUnit?_eq {text body unit : List Char} (h : HasUnit text body unit) :
    cutUnit? text = some (Text.trimRight body, unit) := by
  obtain ⟨blanks, hne, hblanks, htext⟩ := h.exists_blanks
  obtain ⟨⟨c, rest, rfl, hc⟩, htrim⟩ := front_facts hne hblanks htext
  obtain ⟨blank, blanks, rfl⟩ := List.exists_cons_of_ne_nil hne
  obtain ⟨hblank, hrest⟩ := Text.blanks_cons.mp hblanks
  have hsplit : c :: rest ++ blank :: (blanks ++ unit) = Text.trim text := by
    rw [← htext, List.append_assoc]
    rfl
  have hwords : Text.words (Text.trim text) = Text.words (c :: rest) ++ [unit] := by
    rw [← hsplit, Text.words_append_cons hblank, Text.words_blanks_append hrest,
      Text.words_of_solid h.ne_nil h.solid]
  rw [Text.words_cons_of_not_blank hc, List.cons_append] at hwords
  exact cutUnit?_eq_some_iff.mpr ⟨_, _, hwords, htrim⟩

/-- Blanks at the end of a body count to those in front of the unit. -/
theorem HasUnit.trimRight {text body unit : List Char} (h : HasUnit text body unit) :
    HasUnit text (Text.trimRight body) unit := by
  obtain ⟨blanks, hne, hblanks, htext⟩ := h.exists_blanks
  obtain ⟨more, hmore, hbody⟩ := Text.exists_blanks_trimRight body
  refine ⟨⟨more ++ blanks, List.append_ne_nil_of_right_ne_nil _ hne,
    Text.blanks_append hmore hblanks, ?_⟩, h.ne_nil, h.solid, h.known⟩
  rw [← List.append_assoc, hbody, htext]

theorem hasUnit_of_cutUnit? {text expression unit : List Char}
    (h : cutUnit? text = some (expression, unit)) (hknown : (wordDays? unit).isSome) :
    HasUnit text expression unit := by
  obtain ⟨first, later, hwords, rfl⟩ := cutUnit?_eq_some_iff.mp h
  have hmem : unit ∈ Text.words (Text.trim text) := by
    rw [hwords]
    exact List.mem_cons_of_mem _ (List.mem_append_right _ List.mem_cons_self)
  obtain ⟨hne, hsolid, -⟩ := Text.word_facts hmem
  rcases Text.solid_or_exists_lastBlank (Text.trim text) with
    hall | ⟨before, blank, word, htext, hblank, hword⟩
  · have hone : Text.words (Text.trim text) = [Text.trim text] := by
      refine Text.words_of_solid ?_ hall
      intro hnil
      rw [hnil, Text.words_nil] at hwords
      cases hwords
    have hlength := congrArg List.length (hone.symm.trans hwords)
    simp at hlength
  · have hword_ne : word ≠ [] := by
      rintro rfl
      exact Text.trim_ne_append_blank hblank htext.symm
    have hcut : first :: later ++ [unit] = Text.words before ++ [word] := by
      rw [List.cons_append, ← hwords, ← htext, Text.words_append_cons hblank,
        Text.words_of_solid hword_ne hword]
    obtain ⟨-, hunit⟩ := List.append_inj' hcut rfl
    obtain rfl := List.singleton_inj.mp hunit
    have hspace := Text.blanks_cons.mpr ⟨hblank, Text.blanks_nil⟩
    rw [List.append_cons] at htext
    have hbefore : HasUnit text before unit :=
      ⟨⟨[blank], List.cons_ne_nil _ _, hspace, htext⟩, hne, hsolid, hknown⟩
    obtain ⟨-, htrim⟩ := front_facts (List.cons_ne_nil _ _) hspace htext
    rw [htrim]
    exact hbefore.trimRight

/-- A single word has no unit. -/
theorem HasUnit.not_solid {text body unit : List Char} (h : HasUnit text body unit) :
    ¬ Solid text := by
  obtain ⟨blanks, hne, hblanks, htext⟩ := h.exists_blanks
  obtain ⟨blank, blanks, rfl⟩ := List.exists_cons_of_ne_nil hne
  intro hsolid
  have hmem : blank ∈ text := Text.trim_subset text (htext ▸ by simp)
  have hblank := (Text.blanks_cons.mp hblanks).1
  rw [hsolid blank hmem] at hblank
  cases hblank

/-! ### What is done with a text -/

theorem HasUnit.unique {text body body' unit unit' : List Char} (h : HasUnit text body unit)
    (h' : HasUnit text body' unit') :
    Text.trimRight body = Text.trimRight body' ∧ unit = unit' := by
  have hsame := h.cutUnit?_eq.symm.trans h'.cutUnit?_eq
  rwa [Option.some.injEq, Prod.mk.injEq] at hsame

/-- A text specifies what is read in front of its unit. -/
theorem HasUnit.specifies_iff {text body unit unit' : List Char} {e : Expression}
    (h : HasUnit text body unit) :
    Specifies text e unit' ↔
      Expression.ofChars (Text.trimRight body) = .ok e ∧ unit = unit' := by
  constructor
  · rintro ⟨body', hunit', he⟩
    obtain ⟨hbody, hsame⟩ := h.unique hunit'
    rw [hbody]
    exact ⟨Expression.ofChars_eq_ok_iff.mpr he.trimRight, hsame⟩
  · rintro ⟨hread, rfl⟩
    exact ⟨Text.trimRight body, h.trimRight, Expression.ofChars_eq_ok_iff.mp hread⟩

/-- Misplaced digits are the fault of what is read in front of the unit. -/
theorem HasUnit.exists_fault_of_misnumbered {text body unit digits : List Char}
    (h : HasUnit text body unit) (hmisnumbered : Misnumbered text digits) :
    ∃ thrown, Expression.ofChars (Text.trimRight body) =
      .error ⟨thrown, some (.notANumber (String.ofList digits))⟩ := by
  obtain ⟨body', unit', hunit', hstumbles⟩ := hmisnumbered
  rw [(h.unique hunit').1]
  exact Expression.exists_fault_iff.mpr ⟨digits, hstumbles.trimRight, rfl⟩

theorem Specifies.unique {text unit unit' : List Char} {e e' : Expression}
    (h : Specifies text e unit) (h' : Specifies text e' unit') : e = e' ∧ unit = unit' := by
  obtain ⟨body, hunit, he⟩ := h
  obtain ⟨hread', hsame⟩ := hunit.specifies_iff.mp h'
  have hread := Expression.ofChars_eq_ok_iff.mpr he.trimRight
  exact ⟨Except.ok.inj (hread.symm.trans hread'), hsame⟩

theorem Specifies.not_misnumbered {text unit : List Char} {e : Expression}
    (h : Specifies text e unit) : ¬ ∃ digits, Misnumbered text digits := by
  rintro ⟨digits, hmisnumbered⟩
  obtain ⟨body, hunit, he⟩ := h
  obtain ⟨thrown, hfault⟩ := hunit.exists_fault_of_misnumbered hmisnumbered
  have hread := Expression.ofChars_eq_ok_iff.mpr he.trimRight
  cases hread.symm.trans hfault

/-- What is done with a text, by what is written in it. The dice in front of a flaw are thrown,
whatever the flaw is. -/
inductive Judged (text : List Char) (points : Int) : Throw (Option Effect) → Prop
  | evaluated {e : Expression} {unit : List Char} (h : Specifies text e unit) :
      Judged text points (e.throwValue points >>= fun amount ↦ pure (ofAmount? amount unit))
  | misnumbered {digits : List Char} (thrown : List Dice.Spec) (h : Misnumbered text digits) :
      Judged text points
        (Dice.Spec.throwAll thrown >>= fun _ ↦ throw (.notANumber (String.ofList digits)))
  | refused (thrown : List Dice.Spec) (hnot : ¬ ∃ e unit, Specifies text e unit)
      (hnone : ¬ ∃ digits, Misnumbered text digits) :
      Judged text points (Dice.Spec.throwAll thrown >>= fun _ ↦ pure none)

/-- A text without a known unit is refused. -/
theorem judged_of_unitless {text : List Char} (points : Int)
    (h : ¬ ∃ body unit, HasUnit text body unit) : Judged text points (pure none) := by
  refine .refused [] ?_ ?_
  · rintro ⟨e, unit, body, hunit, -⟩
    exact h ⟨body, unit, hunit⟩
  · rintro ⟨digits, body, unit, hunit, -⟩
    exact h ⟨body, unit, hunit⟩

theorem raise_none (thrown : List Dice.Spec) :
    (Expression.Flaw.raise ⟨thrown, none⟩ >>= fun _ ↦ pure none) =
      Dice.Spec.throwAll thrown >>= fun _ ↦ (pure none : Throw (Option Effect)) := by
  simp only [Expression.Flaw.raise, bind_assoc, pure_bind]

theorem raise_some (thrown : List Dice.Spec) (fault : Fault) :
    (Expression.Flaw.raise ⟨thrown, some fault⟩ >>= fun _ ↦ pure none) =
      Dice.Spec.throwAll thrown >>= fun _ ↦ (throw fault : Throw (Option Effect)) := by
  simp only [Expression.Flaw.raise, bind_assoc]
  rfl

/-- A flaw in front of a unit refuses the text, with its fault if it has one. -/
theorem HasUnit.judged_of_flaw {text body unit : List Char} {flaw : Expression.Flaw}
    (h : HasUnit text body unit) (hflaw : Expression.ofChars (Text.trimRight body) = .error flaw)
    (points : Int) : Judged text points (flaw.raise >>= fun _ ↦ pure none) := by
  have hnot : ¬ ∃ e unit, Specifies text e unit := by
    rintro ⟨e, unit', hspecifies⟩
    cases hflaw.symm.trans (h.specifies_iff.mp hspecifies).1
  obtain ⟨thrown, _ | fault⟩ := flaw
  · have hnone : ¬ ∃ digits, Misnumbered text digits := by
      rintro ⟨digits, hmisnumbered⟩
      obtain ⟨thrown', hfault⟩ := h.exists_fault_of_misnumbered hmisnumbered
      cases hflaw.symm.trans hfault
    rw [raise_none]
    exact .refused thrown hnot hnone
  · obtain ⟨digits, hstumbles, rfl⟩ := Expression.exists_fault_iff.mp ⟨thrown, hflaw⟩
    rw [raise_some]
    exact .misnumbered thrown ⟨Text.trimRight body, unit, h.trimRight, hstumbles⟩

theorem judged_evaluate? (specification : String) (points : Int) :
    Judged specification.toList points (evaluate? specification points) := by
  rw [evaluate?]
  cases hcut : cutUnit? specification.toList with
  | none =>
    refine judged_of_unitless points ?_
    rintro ⟨body, unit, hunit⟩
    cases hcut.symm.trans hunit.cutUnit?_eq
  | some split =>
    obtain ⟨expression, unit⟩ := split
    simp only
    cases hknown : wordDays? unit with
    | none =>
      refine judged_of_unitless points ?_
      rintro ⟨body, unit', hunit⟩
      cases hcut.symm.trans hunit.cutUnit?_eq
      have hsome := hunit.known
      rw [hknown] at hsome
      cases hsome
    | some days =>
      have hunit := hasUnit_of_cutUnit? hcut (hknown ▸ rfl)
      have htrim : Text.trimRight expression = expression :=
        (Prod.mk.inj (Option.some.inj (hunit.cutUnit?_eq.symm.trans hcut))).1
      simp only
      cases hread : Expression.ofChars expression with
      | ok e => exact .evaluated ⟨expression, hunit, Expression.ofChars_eq_ok_iff.mp hread⟩
      | error flaw => exact hunit.judged_of_flaw (htrim.symm ▸ hread) points

/-- A text that specifies an expression has it evaluated. -/
theorem evaluate?_of_specifies {specification : String} {e : Expression} {unit : List Char}
    (h : Specifies specification.toList e unit) (points : Int) :
    evaluate? specification points =
      e.throwValue points >>= fun amount ↦ pure (ofAmount? amount unit) := by
  have hjudged := judged_evaluate? specification points
  generalize evaluate? specification points = procedure at hjudged ⊢
  cases hjudged with
  | evaluated h' =>
    obtain ⟨rfl, rfl⟩ := h.unique h'
    rfl
  | misnumbered thrown hmisnumbered => exact (h.not_misnumbered ⟨_, hmisnumbered⟩).elim
  | refused thrown hnot => exact (hnot ⟨e, unit, h⟩).elim

end Aventuria.Duration.Effect
