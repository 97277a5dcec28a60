import Aventuria.Harvest.Threshold
import Aventuria.Proofs.Harvest.Segments
import Aventuria.Proofs.Text.Character

/-!
# How a condition is spelled

A condition is written as "IF", a gap, "TaP*", a comparison symbol, digits and a colon
(`Condition.Spells`). A text is read as a condition and what is behind it exactly when it consists
of a condition that is spelled so, blanks and a text on one line (`Condition.read?_eq_some_iff`).
-/

set_option autoImplicit false
set_option relaxedAutoImplicit false

namespace Aventuria.Harvest

open Text (Blanks Run)

/-! ### Comparison symbols -/

/-- The comparison symbols as they may be written. -/
def symbols : List String := [">=", "<=", "==", "=", ">", "<"]

theorem symbol?_eq_some {text rest : List Char} {symbol : String}
    (h : symbol? text = some (symbol, rest)) : symbol ∈ symbols ∧ symbol.toList ++ rest = text := by
  rw [symbol?.eq_def] at h
  split at h <;> simp only [Option.some.injEq, Prod.mk.injEq, reduceCtorEq] at h <;>
    obtain ⟨rfl, rfl⟩ := h <;> exact ⟨by decide, rfl⟩

/-- A symbol is read in full where no further sign of equality follows it. -/
theorem symbol?_append {symbol : String} (h : symbol ∈ symbols) {rest : List Char}
    (hrest : rest.head? ≠ some '=') : symbol? (symbol.toList ++ rest) = some (symbol, rest) := by
  simp only [symbols, List.mem_cons, List.not_mem_nil, or_false] at h
  rcases h with rfl | rfl | rfl | rfl | rfl | rfl
  · rfl
  · rfl
  · rfl
  all_goals
    cases rest with
    | nil => rfl
    | cons c rest =>
      have hc : c ≠ '=' := fun hc ↦ hrest (congrArg some hc)
      simp [symbol?, hc]

namespace Condition

/-! ### The spelling -/

/-- The texts that spell a condition, its colon included. -/
inductive Spells : List Char → Condition → Prop
  | intro {keyword gap name digits front middle back : List Char} {symbol : String}
      (hkeyword : keyword.map Text.patternLetter = ['i', 'f']) (hgap : Run Text.isBlank gap)
      (hname : name.map Text.patternLetter = ['t', 'a', 'p', '*']) (hfront : Blanks front)
      (hsymbol : symbol ∈ symbols) (hmiddle : Blanks middle) (hdigits : Run Text.isDecimal digits)
      (hback : Blanks back) :
      Spells (keyword ++ (gap ++ (name ++ (front ++ (symbol.toList ++ (middle ++ (digits ++
        (back ++ [':']))))))))
        ⟨symbol, digits⟩

/-- A text that is read as a condition consists of the spelled condition and what is behind it. -/
theorem exists_header_of_read? {text body : List Char} {condition : Condition}
    (h : read? text = some (condition, body)) :
    ∃ header gap, header ++ (gap ++ body) = text ∧ Spells header condition ∧ Blanks gap ∧
      body ≠ [] ∧ (∀ c ∈ body.head?, Text.isBlank c = false) ∧ '\n' ∉ body := by
  simp only [read?, Option.bind_eq_bind, Option.bind_eq_some_iff] at h
  obtain ⟨_, h₁, _, h₂, rest, h₃, ⟨symbol, behind⟩, h₄, h⟩ := h
  obtain ⟨keyword, rfl, hkeyword⟩ := Text.afterWord?_eq_some_iff.mp h₁
  obtain ⟨gap, hgap, rfl, -⟩ := afterBlanks?_eq_some_iff.mp h₂
  obtain ⟨name, rfl, hname⟩ := Text.afterWord?_eq_some_iff.mp h₃
  obtain ⟨front, hfront, hrest⟩ := Text.exists_blanks_trimLeft rest
  obtain ⟨hsymbol, hsymbol'⟩ := symbol?_eq_some h₄
  obtain ⟨middle, hmiddle, hbehind⟩ := Text.exists_blanks_trimLeft behind
  generalize Text.trimLeft behind = number at h hbehind
  have hnumber := List.takeWhile_append_dropWhile (p := Text.isDecimal) (l := number)
  split at h
  · cases h
  · next hdigits =>
    obtain ⟨back, hback, hcolon⟩ :=
      Text.exists_blanks_trimLeft (number.dropWhile Text.isDecimal)
    split at h
    · next tail htail =>
      obtain ⟨gap', hgap', hbody⟩ := Text.exists_blanks_trimLeft tail
      split at h
      · cases h
      · next hkept =>
        obtain ⟨rfl, rfl⟩ := Prod.mk.inj (Option.some.inj h)
        simp only [Bool.or_eq_true, List.isEmpty_iff, List.contains_iff_mem, not_or] at hkept
        refine ⟨_, gap', ?_, .intro hkeyword hgap hname hfront hsymbol hmiddle
          ⟨by simpa using hdigits, fun _ ↦ List.mem_takeWhile_imp⟩ hback, hgap', hkept.1,
          fun _ ↦ Text.head?_dropWhile, hkept.2⟩
        rw [htail] at hcolon
        rw [hbody, ← hrest, ← hsymbol', ← hbehind]
        simp only [List.append_assoc, List.cons_append, List.nil_append]
        rw [hcolon, hnumber]
    · cases h

/-- The characters of a condition are blanks, digits, the letters of its two words and its marks. -/
theorem Spells.not_mem {header : List Char} {condition : Condition} (h : Spells header condition)
    {c : Char} (hblank : Text.isBlank c = false) (hdecimal : Text.isDecimal c = false)
    (hletter : Text.patternLetter c ∉ "iftap*".toList) (hmark : c ∉ "<>=:".toList) :
    c ∉ header := by
  obtain ⟨hkeyword, hgap, hname, hfront, hsymbol, hmiddle, hdigits, hback⟩ := h
  have hletters : ∀ {text letters : List Char}, text.map Text.patternLetter = letters →
      letters ⊆ "iftap*".toList → c ∉ text := by
    rintro text _ rfl hletters hc
    exact hletter (hletters (List.mem_map_of_mem hc))
  have hclass : ∀ {p : Char → Bool} {text : List Char}, (∀ c ∈ text, p c = true) →
      p c = false → c ∉ text := by
    intro p text hall hother hc
    rw [hall c hc] at hother
    cases hother
  have hsymbols : ∀ symbol ∈ symbols, symbol.toList ⊆ "<>=:".toList := by decide
  have hcolon : c ≠ ':' := by
    rintro rfl
    exact hmark (by decide)
  simp only [List.mem_append, not_or, List.mem_singleton]
  exact ⟨hletters hkeyword (by decide), hclass hgap.all hblank, hletters hname (by decide),
    hclass hfront hblank, fun hc ↦ hmark (hsymbols _ hsymbol hc), hclass hmiddle hblank,
    hclass hdigits.all hdecimal, hclass hback hblank, hcolon⟩

theorem Spells.comma_not_mem {header : List Char} {condition : Condition}
    (h : Spells header condition) : ',' ∉ header :=
  h.not_mem (by decide) (by decide) (by decide) (by decide)

theorem Spells.getLast?_eq {header : List Char} {condition : Condition}
    (h : Spells header condition) : header.getLast? = some ':' := by
  obtain ⟨-, -, -, -, -, -, -, -⟩ := h
  simp

section
variable {keyword gap name front middle digits back rest : List Char} {symbol : String}

theorem afterBlanks?_name (hgap : Run Text.isBlank gap)
    (hname : name.map Text.patternLetter = ['t', 'a', 'p', '*']) :
    afterBlanks? (gap ++ (name ++ rest)) = some (name ++ rest) := by
  obtain ⟨t, name, rfl, ht, -⟩ := List.map_eq_cons_iff.mp hname
  refine afterBlanks?_eq_some_iff.mpr ⟨gap, hgap, rfl, ?_⟩
  rintro c ⟨⟩
  rw [← Bool.not_eq_true]
  intro hblank
  rw [Text.patternLetter_of_isBlank hblank] at ht
  rw [ht] at hblank
  exact absurd hblank (by decide)

theorem symbol?_comparison (hfront : Blanks front) (hsymbol : symbol ∈ symbols)
    (hmiddle : Blanks middle) (hdigits : Run Text.isDecimal digits) :
    symbol? (Text.trimLeft (front ++ (symbol.toList ++ (middle ++ (digits ++ rest))))) =
      some (symbol, middle ++ (digits ++ rest)) := by
  have hsolid : ∀ symbol ∈ symbols, symbol.toList ≠ [] ∧ Text.Solid symbol.toList := by decide
  obtain ⟨hne, hsolid⟩ := hsolid symbol hsymbol
  rw [Text.trimLeft_append hfront, Text.trimLeft_solid_append hne hsolid, symbol?_append hsymbol]
  obtain ⟨d, digits, rfl⟩ := List.exists_cons_of_ne_nil hdigits.ne_nil
  intro hequal
  rcases Text.isBlank_or_eq_of_head? hmiddle hequal with hblank | rfl
  · exact absurd hblank (by decide)
  · exact absurd (hdigits.all '=' List.mem_cons_self) (by decide)

theorem trimLeft_number (hmiddle : Blanks middle) (hdigits : Run Text.isDecimal digits) :
    Text.trimLeft (middle ++ (digits ++ rest)) = digits ++ rest := by
  rw [Text.trimLeft_append hmiddle, Text.trimLeft_solid_append hdigits.ne_nil]
  exact hdigits.solid Text.not_isBlank_of_isDecimal

/-- The digits of a condition end at its colon. -/
theorem digits_number (rest : List Char) (hdigits : Run Text.isDecimal digits)
    (hback : Blanks back) :
    (digits ++ (back ++ ':' :: rest)).takeWhile Text.isDecimal = digits ∧
      Text.trimLeft ((digits ++ (back ++ ':' :: rest)).dropWhile Text.isDecimal) = ':' :: rest := by
  have hstop : ∀ c ∈ (back ++ ':' :: rest).head?, Text.isDecimal c = false := by
    intro c hc
    rcases Text.isBlank_or_eq_of_head? hback hc with hblank | rfl
    · exact Text.not_isDecimal_of_isBlank hblank
    · decide
  obtain ⟨htake, hdrop⟩ := Text.run_append hdigits.all hstop
  rw [htake, hdrop, Text.trimLeft_append hback, Text.trimLeft_cons (by decide)]
  exact ⟨rfl, rfl⟩

end

theorem read?_of_spells {header gap body : List Char} {condition : Condition}
    (h : Spells header condition) (hgap : Blanks gap) (hne : body ≠ [])
    (hstart : ∀ c ∈ body.head?, Text.isBlank c = false) (hline : '\n' ∉ body) :
    read? (header ++ (gap ++ body)) = some (condition, body) := by
  obtain ⟨hkeyword, hgap₁, hname, hfront, hsymbol, hmiddle, hdigits, hback⟩ := h
  next keyword gap₁ name digits front middle back symbol =>
  have hbody : Text.trimLeft (gap ++ body) = body := (Text.run_append hgap hstart).2
  have hempty : (body.isEmpty || body.contains '\n') = false := by simp [hne, hline]
  obtain ⟨htake, hdrop⟩ := digits_number (gap ++ body) hdigits hback
  simp only [List.append_assoc, List.cons_append, List.nil_append, read?, Option.bind_eq_bind,
    Text.afterWord?_eq_some_iff.mpr ⟨keyword, rfl, hkeyword⟩, afterBlanks?_name hgap₁ hname,
    Text.afterWord?_eq_some_iff.mpr ⟨name, rfl, hname⟩,
    symbol?_comparison hfront hsymbol hmiddle hdigits, trimLeft_number hmiddle hdigits, htake,
    hdrop, hbody, hempty, Option.bind_some, List.isEmpty_eq_false_iff.mpr hdigits.ne_nil]
  rfl

/-- A text is read as a condition where it is a spelled condition, blanks and something on one
line. -/
theorem read?_eq_some_iff {text body : List Char} {condition : Condition} :
    read? text = some (condition, body) ↔
      ∃ header gap, header ++ (gap ++ body) = text ∧ Spells header condition ∧ Blanks gap ∧
        body ≠ [] ∧ (∀ c ∈ body.head?, Text.isBlank c = false) ∧ '\n' ∉ body := by
  constructor
  · exact exists_header_of_read?
  · rintro ⟨header, gap, rfl, hspells, hgap, hne, hstart, hline⟩
    exact read?_of_spells hspells hgap hne hstart hline

theorem suffix_of_read? {text body : List Char} {condition : Condition}
    (h : read? text = some (condition, body)) : body <:+ text := by
  obtain ⟨header, gap, rfl, -⟩ := read?_eq_some_iff.mp h
  exact (List.suffix_append _ _).trans (List.suffix_append _ _)

/-- What is behind a condition may go on as long as it stays on its line. -/
theorem read?_append {text body more : List Char} {condition : Condition}
    (h : read? text = some (condition, body)) (hline : '\n' ∉ more) :
    read? (text ++ more) = some (condition, body ++ more) := by
  obtain ⟨header, gap, rfl, hspells, hgap, hne, hstart, hline'⟩ := read?_eq_some_iff.mp h
  obtain ⟨c, body, rfl⟩ := List.exists_cons_of_ne_nil hne
  exact read?_eq_some_iff.mpr ⟨header, gap, by simp only [List.append_assoc], hspells, hgap,
    List.cons_ne_nil _ _, hstart, by simpa only [List.mem_append, not_or] using ⟨hline', hline⟩⟩

end Condition

end Aventuria.Harvest
