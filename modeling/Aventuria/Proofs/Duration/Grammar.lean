import Aventuria.Duration.Expression
import Aventuria.Proofs.Text.Character
import Aventuria.Proofs.Text.Words

/-!
# The grammar of effect lengths

`Derives` is the grammar on texts: sums of products, products of factors, both leaning to the left,
and factors with their signs. Blanks may stand around every sign, number, dice term and mention of
the points, and nowhere inside of one.
-/

set_option autoImplicit false
set_option relaxedAutoImplicit false

namespace Aventuria.Duration.Expression

open Text (Blanks Solid isDigitLike)

/-! ### The grammar -/

inductive Level where
  | sum | product | factor
  deriving DecidableEq

/-- The number of dice that digits in front of the mark stand for; one die where there are none. -/
def Counts (digits : List Char) (n : Nat) : Prop :=
  digits = [] ∧ n = 1 ∨ Text.decimal? digits = some n

/-- How numbers, points and dice are written. -/
inductive Written : List Char → Expression → Prop
  | number {digits : List Char} {n : Nat} (h : Text.decimal? digits = some n) :
      Written digits (.number n)
  | points {letters : List Char} (h : letters.map Char.toLower = ['z', 'f', 'p', '*']) :
      Written letters .points
  | dice {count digits : List Char} {mark : Char} {n sides : Nat} (hcount : Counts count n)
      (hmark : mark = 'W' ∨ mark = 'w') (hsides : Text.decimal? digits = some sides)
      (hpos : 0 < n) (hmost : n ≤ 100) (hsize : 2 ≤ sides) :
      Written (count ++ mark :: digits) (.dice ⟨n, sides, 0, "", hpos, hmost, hsize⟩)

/-- The expressions that texts derive on each level. A sum goes on with a product and a product with
a factor, so both associate to the left. A plus sign in front of a factor leaves no node. -/
inductive Derives : Level → List Char → Expression → Prop
  | product {text : List Char} {e : Expression} (h : Derives .product text e) : Derives .sum text e
  | add {before after : List Char} {left right : Expression} (hleft : Derives .sum before left)
      (hright : Derives .product after right) :
      Derives .sum (before ++ '+' :: after) (.binary .add left right)
  | subtract {before after : List Char} {left right : Expression} (hleft : Derives .sum before left)
      (hright : Derives .product after right) :
      Derives .sum (before ++ '-' :: after) (.binary .subtract left right)
  | factor {text : List Char} {e : Expression} (h : Derives .factor text e) :
      Derives .product text e
  | multiply {before after : List Char} {left right : Expression}
      (hleft : Derives .product before left) (hright : Derives .factor after right) :
      Derives .product (before ++ '*' :: after) (.binary .multiply left right)
  | unsigned {blanks text : List Char} {operand : Expression} (hblanks : Blanks blanks)
      (h : Derives .factor text operand) : Derives .factor (blanks ++ '+' :: text) operand
  | negated {blanks text : List Char} {operand : Expression} (hblanks : Blanks blanks)
      (h : Derives .factor text operand) : Derives .factor (blanks ++ '-' :: text) (.negate operand)
  | single {front lexeme back : List Char} {e : Expression} (hfront : Blanks front)
      (hwritten : Written lexeme e) (hback : Blanks back) :
      Derives .factor (front ++ lexeme ++ back) e

/-- Where the reader of a level goes on to read digits. -/
inductive Awaits : Level → List Char → Prop
  | number {blanks : List Char} (h : Blanks blanks) : Awaits .factor blanks
  | sides {blanks count : List Char} {mark : Char} {n : Nat} (hblanks : Blanks blanks)
      (hcount : Counts count n) (hmark : mark = 'W' ∨ mark = 'w') (hpos : 0 < n) :
      Awaits .factor (blanks ++ count ++ [mark])
  | signed {blanks before : List Char} {sign : Char} (hblanks : Blanks blanks)
      (hsign : sign = '+' ∨ sign = '-') (h : Awaits .factor before) :
      Awaits .factor (blanks ++ sign :: before)
  | factor {before : List Char} (h : Awaits .factor before) : Awaits .product before
  | multiplied {before after : List Char} {left : Expression} (hleft : Derives .product before left)
      (h : Awaits .factor after) : Awaits .product (before ++ '*' :: after)
  | product {before : List Char} (h : Awaits .product before) : Awaits .sum before
  | added {before after : List Char} {sign : Char} {left : Expression}
      (hleft : Derives .sum before left) (hsign : sign = '+' ∨ sign = '-')
      (h : Awaits .product after) : Awaits .sum (before ++ sign :: after)

/-- A run of digits that stands for no number, up to where it ends. -/
structure BadRun (digits after : List Char) : Prop where
  ne_nil : digits ≠ []
  isDigitLike : ∀ c ∈ digits, Text.isDigitLike c = true
  decimal?_eq_none : Text.decimal? digits = none
  ends : ∀ c ∈ after.head?, Text.isDigitLike c = false

/-! ### Lexemes -/

theorem Counts.isDecimal {digits : List Char} {n : Nat} (h : Counts digits n) :
    ∀ c ∈ digits, Text.isDecimal c = true := by
  rcases h with ⟨rfl, -⟩ | h
  · exact fun c hc ↦ absurd hc List.not_mem_nil
  · exact (Text.decimal?_eq_some_iff.mp h).1.2

theorem isDigitLike_of_decimal? {digits : List Char} {n : Nat} (h : Text.decimal? digits = some n) :
    digits ≠ [] ∧ ∀ c ∈ digits, isDigitLike c = true := by
  obtain ⟨hne, hall⟩ := (Text.decimal?_eq_some_iff.mp h).1
  exact ⟨hne, fun c hc ↦ Text.isDigitLike_of_isDecimal (hall c hc)⟩

/-- The letters of the points are neither blanks nor signs of a factor. -/
theorem letter_facts {c : Char} (h : c.toLower ∈ ['z', 'f', 'p', '*']) :
    Text.isBlank c = false ∧ c ≠ '+' ∧ c ≠ '-' := by
  have hletters : ∀ d ∈ ['z', 'f', 'p', '*'], d.toNat < 128 := by simp
  exact Text.of_ascii
    (p := fun c ↦ c.toLower ∈ ['z', 'f', 'p', '*'] →
      Text.isBlank c = false ∧ c ≠ '+' ∧ c ≠ '-')
    (by decide) (Text.toNat_lt_of_toLower (hletters _ h)) h

theorem Written.ne_nil {lexeme : List Char} {e : Expression} (h : Written lexeme e) :
    lexeme ≠ [] := by
  cases h with
  | number h => exact (isDigitLike_of_decimal? h).1
  | points h =>
    rintro rfl
    cases h
  | dice => exact List.append_ne_nil_of_right_ne_nil _ (List.cons_ne_nil _ _)

theorem Written.solid {lexeme : List Char} {e : Expression} (h : Written lexeme e) :
    Solid lexeme := by
  intro c hc
  cases h with
  | number h => exact Text.not_isBlank_of_isDigitLike ((isDigitLike_of_decimal? h).2 c hc)
  | points h => exact (letter_facts (h ▸ List.mem_map_of_mem hc)).1
  | dice hcount hmark hsides =>
    rcases List.mem_append.mp hc with hc | hc
    · exact Text.not_isBlank_of_isDecimal (hcount.isDecimal c hc)
    · rcases List.mem_cons.mp hc with rfl | hc
      · rcases hmark with rfl | rfl <;> rfl
      · exact Text.not_isBlank_of_isDigitLike ((isDigitLike_of_decimal? hsides).2 c hc)

theorem Written.derives {lexeme : List Char} {e : Expression} (h : Written lexeme e) :
    Derives .factor lexeme e := by
  have hsingle := Derives.single Text.blanks_nil h Text.blanks_nil
  rwa [List.nil_append, List.append_nil] at hsingle

/-! ### Blanks at the ends -/

theorem Derives.append_blanks {level : Level} {text blanks : List Char} {e : Expression}
    (h : Derives level text e) (hblanks : Blanks blanks) : Derives level (text ++ blanks) e := by
  induction h with
  | product _ ih => exact .product ih
  | add hleft _ _ ih =>
    rw [List.append_assoc, List.cons_append]
    exact .add hleft ih
  | subtract hleft _ _ ih =>
    rw [List.append_assoc, List.cons_append]
    exact .subtract hleft ih
  | factor _ ih => exact .factor ih
  | multiply hleft _ _ ih =>
    rw [List.append_assoc, List.cons_append]
    exact .multiply hleft ih
  | unsigned hfront _ ih =>
    rw [List.append_assoc, List.cons_append]
    exact .unsigned hfront ih
  | negated hfront _ ih =>
    rw [List.append_assoc, List.cons_append]
    exact .negated hfront ih
  | single hfront hwritten hback =>
    rw [List.append_assoc]
    exact .single hfront hwritten (Text.blanks_append hback hblanks)

theorem Derives.blanks_append {level : Level} {blanks text : List Char} {e : Expression}
    (hblanks : Blanks blanks) (h : Derives level text e) : Derives level (blanks ++ text) e := by
  induction h with
  | product _ ih => exact .product ih
  | add _ hright ih _ =>
    rw [← List.append_assoc]
    exact .add ih hright
  | subtract _ hright ih _ =>
    rw [← List.append_assoc]
    exact .subtract ih hright
  | factor _ ih => exact .factor ih
  | multiply _ hright ih _ =>
    rw [← List.append_assoc]
    exact .multiply ih hright
  | unsigned hfront h _ =>
    rw [← List.append_assoc]
    exact .unsigned (Text.blanks_append hblanks hfront) h
  | negated hfront h _ =>
    rw [← List.append_assoc]
    exact .negated (Text.blanks_append hblanks hfront) h
  | single hfront hwritten hback =>
    rw [← List.append_assoc, ← List.append_assoc]
    exact .single (Text.blanks_append hblanks hfront) hwritten hback

theorem Awaits.blanks_append {level : Level} {blanks before : List Char} (hblanks : Blanks blanks)
    (h : Awaits level before) : Awaits level (blanks ++ before) := by
  induction h with
  | number hfront => exact .number (Text.blanks_append hblanks hfront)
  | sides hfront hcount hmark hpos =>
    rw [← List.append_assoc, ← List.append_assoc]
    exact .sides (Text.blanks_append hblanks hfront) hcount hmark hpos
  | signed hfront hsign h _ =>
    rw [← List.append_assoc]
    exact .signed (Text.blanks_append hblanks hfront) hsign h
  | factor _ ih => exact .factor ih
  | multiplied hleft h _ =>
    rw [← List.append_assoc]
    exact .multiplied (hleft.blanks_append hblanks) h
  | product _ ih => exact .product ih
  | added hleft hsign h _ =>
    rw [← List.append_assoc]
    exact .added (hleft.blanks_append hblanks) hsign h

/-- What is derived is so without the blanks behind it. -/
theorem Derives.trimRight {level : Level} {text : List Char} {e : Expression}
    (h : Derives level text e) : Derives level (Text.trimRight text) e := by
  induction h with
  | product _ ih => exact .product ih
  | add hleft _ _ ih =>
    rw [Text.trimRight_append_cons rfl]
    exact .add hleft ih
  | subtract hleft _ _ ih =>
    rw [Text.trimRight_append_cons rfl]
    exact .subtract hleft ih
  | factor _ ih => exact .factor ih
  | multiply hleft _ _ ih =>
    rw [Text.trimRight_append_cons rfl]
    exact .multiply hleft ih
  | unsigned hfront _ ih =>
    rw [Text.trimRight_append_cons rfl]
    exact .unsigned hfront ih
  | negated hfront _ ih =>
    rw [Text.trimRight_append_cons rfl]
    exact .negated hfront ih
  | @single front lexeme back _ hfront hwritten hback =>
    have hlexeme : Text.trimRight (lexeme ++ back) = lexeme := by
      rw [Text.trimRight_solid_append hwritten.solid, Text.trimRight_eq_nil_iff.mpr hback,
        List.append_nil]
    have hne : Text.trimRight (lexeme ++ back) ≠ [] := by
      rw [hlexeme]
      exact hwritten.ne_nil
    rw [List.append_assoc, Text.trimRight_append_of_ne_nil hne, hlexeme]
    exact .blanks_append hfront hwritten.derives

end Aventuria.Duration.Expression
