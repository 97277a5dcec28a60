import Aventuria.Proofs.Formula.Grammar
import Aventuria.Proofs.Formula.Spelling

/-!
# From texts to trees

A text denotes the trees that the tokens it spells derive. Reading a formula finds that tree and
never fails: every fault on the way is the fault of a text that is no formula, since the scanner
lets none but decimal digits through (`not_misnumbered`), and such a text is none
(`compile_some`). The main result is `compile_eq_ok_some_iff_denotes`.
-/

set_option autoImplicit false
set_option relaxedAutoImplicit false

namespace Aventuria.Formula

/-- The tokens that a text spells derive a tree. -/
def Denotes (text : String) (tree : Formula) : Prop :=
  ∃ tokens, Spells text.toList tokens ∧ Derives .sum tokens tree

theorem not_misnumbered {text : List Char} {tokens : List Token} (h : Spells text tokens) :
    ¬ Misnumbered tokens := by
  rintro ⟨digits, hmem, hnone⟩
  induction h with
  | blank _ => cases hmem
  | token _ hwritten _ _ ih =>
    rcases List.mem_cons.mp hmem with rfl | hmem
    · cases hwritten with
      | number hne hdigits =>
        have hdecimal := Text.decimal?_eq_some_iff.mpr ⟨⟨hne, hdigits⟩, rfl⟩
        rw [hnone] at hdecimal
        cases hdecimal
    · exact ih hmem

theorem ofText_eq_ok_iff {text : String} {tree : Formula} :
    ofChars text.toList = .ok tree ↔ Denotes text tree := by
  rw [ofChars, bind_eq_ok_iff]
  constructor
  · rintro ⟨tokens, hscan, hread⟩
    exact ⟨tokens, ofChars_eq_ok_iff.mp hscan, ofTokens_eq_ok_iff.mp hread⟩
  · rintro ⟨tokens, hspells, hderives⟩
    exact ⟨tokens, ofChars_eq_ok_iff.mpr hspells, ofTokens_eq_ok_iff.mpr hderives⟩

theorem isIllFormed_of_ofChars {text : List Char} {fault : Fault}
    (h : ofChars text = .error fault) : isIllFormed fault = true := by
  rw [ofChars] at h
  cases hscan : Token.ofChars text with
  | error other =>
    rw [hscan] at h
    cases h
    obtain ⟨position, rest, rfl⟩ := ofChars_eq_error hscan
    rfl
  | ok tokens =>
    rw [hscan, ok_bind] at h
    exact isIllFormed_of_ofTokens (not_misnumbered (ofChars_eq_ok_iff.mp hscan)) h

/-- No formula is blank. -/
theorem not_isEmpty_trim {text : List Char} {tree : Formula} (h : ofChars text = .ok tree) :
    (Text.trim text).isEmpty = false := by
  rw [← Bool.not_eq_true]
  intro hempty
  have hblanks := Text.trim_eq_nil_iff.mp (List.isEmpty_iff.mp hempty)
  rw [ofChars, ofChars_eq_ok_iff.mpr (.blank hblanks), ok_bind, ofTokens_eq, sumOf_eq,
    productOf_eq, factorOf_nil] at h
  cases h

theorem compile_some (text : String) :
    compile (some text) = .ok (ofChars text.toList).toOption := by
  rw [compile]
  cases hread : ofChars text.toList with
  | ok tree => rw [not_isEmpty_trim hread]; rfl
  | error fault =>
    simp only [isIllFormed_of_ofChars hread, if_true]
    split <;> rfl

/-- Reading finds exactly the trees that a text denotes, there is none exactly when the text denotes
no tree, and reading always comes to an answer. -/
theorem compile_eq_ok_some_iff_denotes (text : String) :
    (∀ tree, compile (some text) = .ok (some tree) ↔ Denotes text tree) ∧
    (compile (some text) = .ok none ↔ ∀ tree, ¬ Denotes text tree) ∧
    ∃ outcome, compile (some text) = .ok outcome := by
  rw [compile_some]
  simp only [← ofText_eq_ok_iff]
  cases ofChars text.toList with
  | error fault => simp [Except.toOption]
  | ok tree => simp [Except.toOption]

end Aventuria.Formula
