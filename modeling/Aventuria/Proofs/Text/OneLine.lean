import Aventuria.Proofs.Text.Numeral
import Aventuria.Text.Quoted

/-!
# Texts on one line

A quoted text stands on one line whatever was quoted (`oneLine_quoted`), and so does a number. A
message that is put together from such texts is a single line.
-/

set_option autoImplicit false
set_option relaxedAutoImplicit false

namespace Aventuria.Text

/-- A text without a line break. -/
def OneLine (text : String) : Prop := '\n' ∉ text.toList

/-- A literal is given by its characters. -/
theorem oneLine_ofList {text : List Char} (h : '\n' ∉ text) : OneLine (String.ofList text) := by
  rwa [OneLine, String.toList_ofList]

theorem oneLine_append {first second : String} (hfirst : OneLine first)
    (hsecond : OneLine second) : OneLine (first ++ second) := by
  rw [OneLine, String.toList_append, List.mem_append, not_or]
  exact ⟨hfirst, hsecond⟩

/-! ### Numbers -/

theorem oneLine_toString_nat (n : Nat) : OneLine (toString n) := by
  intro hline
  exact absurd (isDigit_of_mem_numeral hline) (by decide)

theorem oneLine_toString_int (n : Int) : OneLine (toString n) := by
  cases n with
  | ofNat n => exact oneLine_toString_nat n
  | negSucc n =>
    rw [OneLine, toList_toString_negSucc, List.mem_cons, not_or]
    exact ⟨by decide, oneLine_toString_nat (n + 1)⟩

/-! ### Quoted texts -/

theorem not_mem_hexDigits (count n : Nat) : '\n' ∉ hexDigits count n := by
  have hdigit : ∀ d < 16, '\n' ≠ Nat.digitChar d := by decide
  induction count generalizing n with
  | zero => exact List.not_mem_nil
  | succ count ih =>
    rw [hexDigits, List.mem_append, not_or, List.mem_singleton]
    exact ⟨ih (n / 16), hdigit (n % 16) (Nat.mod_lt n (by decide))⟩

/-- A line break is escaped, and no escape contains one. -/
theorem not_mem_escapedChar {mark : Char} (hmark : mark ≠ '\n') (c : Char) :
    '\n' ∉ escapedChar mark c := by
  unfold escapedChar
  split
  · next hc =>
    have hline : c ≠ '\n' := by
      rcases hc with rfl | rfl
      · decide
      · exact hmark
    simpa using hline.symm
  · split
    · decide
    · next hline =>
      have hhex := not_mem_hexDigits
      split_ifs <;> simp [hhex, Ne.symm hline]

theorem not_mem_quotedChars (text : List Char) : '\n' ∉ quotedChars text := by
  have hmark : quoteMark text ≠ '\n' := by
    unfold quoteMark
    split <;> decide
  simp only [quotedChars, List.mem_cons, List.mem_append, List.mem_flatMap, List.not_mem_nil,
    or_false, not_or, not_exists, not_and]
  exact ⟨⟨hmark.symm, fun c _ ↦ not_mem_escapedChar hmark c⟩, hmark.symm⟩

theorem oneLine_quoted (text : String) : OneLine (quoted text) := by
  rw [OneLine, quoted, String.toList_ofList]
  exact not_mem_quotedChars text.toList

theorem oneLine_quotedWithin (size : Nat) (text : String) : OneLine (quotedWithin size text) := by
  rw [OneLine, quotedWithin, String.toList_ofList]
  exact fun hline ↦ not_mem_quotedChars text.toList (List.mem_of_mem_take hline)

end Aventuria.Text
