import Aventuria.Formula.Token
import Aventuria.Proofs.Text.Character
import Aventuria.Proofs.Text.Trim

/-!
# The spelling of tokens

`Spells` says which texts spell which tokens: each token is written in its own characters, blanks
may stand before it and at the end, and a number takes all digits that follow one another. A text
spells at most one list of tokens, the one that the scanner finds (`ofChars_eq_ok_iff`); where it
spells none, the scanner points out a part that is unreadable (`ofChars_eq_error`).
-/

set_option autoImplicit false
set_option relaxedAutoImplicit false

namespace Aventuria.Formula

open Text (isBlank isDecimal Blanks Solid)

/-- How a token is written: decimal digits, ZfP in any case, or a sign. -/
inductive Written : List Char → Token → Prop
  | number {digits : List Char} (hne : digits ≠ []) (h : ∀ c ∈ digits, isDecimal c = true) :
      Written digits (.number digits)
  | points {letters : List Char} (h : letters.map Char.toLower = ['z', 'f', 'p']) :
      Written letters .points
  | sign (s : Sign) : Written [s.char] (.sign s)

/-- What may follow a token at once: anything but a further digit of a number. -/
def MayFollow (rest : List Char) : Token → Prop
  | .number _ => ∀ c ∈ rest.head?, isDecimal c = false
  | .points | .sign _ => True

/-- The tokens that a text spells one after the other. -/
inductive Spells : List Char → List Token → Prop
  | blank {blanks : List Char} (h : Blanks blanks) : Spells blanks []
  | token {blanks lexeme rest : List Char} {token : Token} {tokens : List Token}
      (hblanks : Blanks blanks) (hwritten : Written lexeme token) (hfollow : MayFollow rest token)
      (hrest : Spells rest tokens) : Spells (blanks ++ lexeme ++ rest) (token :: tokens)

/-! ### Single tokens -/

theorem eq_char_of_ofChar? {c : Char} {s : Sign} (h : Sign.ofChar? c = some s) : s.char = c := by
  unfold Sign.ofChar? at h
  split at h <;> cases h <;> rfl

theorem ofChar?_of_isDecimal {c : Char} (h : isDecimal c = true) : Sign.ofChar? c = none := by
  cases hsign : Sign.ofChar? c with
  | none => rfl
  | some s =>
    have hchar : isDecimal s.char = false := by cases s <;> decide
    rw [eq_char_of_ofChar? hsign, h] at hchar
    cases hchar

/-- The letters of the points start no other token. -/
theorem letter_facts {c : Char} (h : c.toLower ∈ ['z', 'f', 'p']) :
    isBlank c = false ∧ isDecimal c = false ∧ Sign.ofChar? c = none := by
  have hletters : ∀ d ∈ ['z', 'f', 'p'], d.toNat < 128 := by simp
  exact Text.of_ascii
    (p := fun c ↦ c.toLower ∈ ['z', 'f', 'p'] →
      isBlank c = false ∧ isDecimal c = false ∧ Sign.ofChar? c = none)
    (by decide) (Text.toNat_lt_of_toLower (hletters _ h)) h

/-- Inside a pattern the points are written with plain letters only. -/
theorem map_patternLetter_points {letters : List Char} :
    letters.map Text.patternLetter = ['z', 'f', 'p'] ↔
      letters.map Char.toLower = ['z', 'f', 'p'] :=
  Text.map_patternLetter_eq_iff (by decide)

theorem Written.ne_nil {lexeme : List Char} {token : Token} (h : Written lexeme token) :
    lexeme ≠ [] := by
  cases h with
  | number hne _ => exact hne
  | points hletters =>
    rintro rfl
    cases hletters
  | sign s => exact List.cons_ne_nil _ _

theorem Written.solid {lexeme : List Char} {token : Token} (h : Written lexeme token) :
    Solid lexeme := by
  cases h with
  | number _ hdigits => exact fun c hc ↦ Text.not_isBlank_of_isDecimal (hdigits c hc)
  | points hletters =>
    intro c hc
    exact (letter_facts (hletters ▸ List.mem_map_of_mem hc)).1
  | sign s =>
    intro c hc
    rw [List.mem_singleton.mp hc]
    cases s <;> decide

/-- The scanner finds the token that a text starts with. -/
theorem first?_append {lexeme rest : List Char} {token : Token} (h : Written lexeme token)
    (hfollow : MayFollow rest token) : Token.first? (lexeme ++ rest) = some (token, rest) := by
  cases h with
  | number hne hdigits =>
    obtain ⟨c, digits, rfl⟩ := List.exists_cons_of_ne_nil hne
    rw [List.forall_mem_cons] at hdigits
    have hstop : rest.takeWhile isDecimal = [] ∧ rest.dropWhile isDecimal = rest := by
      cases rest with
      | nil => exact ⟨rfl, rfl⟩
      | cons d rest => simp [hfollow d rfl]
    rw [List.cons_append, Token.first?, ofChar?_of_isDecimal hdigits.1]
    simp only [hdigits.1, if_true, List.takeWhile_append_of_pos hdigits.2,
      List.dropWhile_append_of_pos hdigits.2, hstop, List.append_nil]
  | points hletters =>
    cases lexeme with
    | nil => cases hletters
    | cons c letters =>
      have hmem : c.toLower ∈ ['z', 'f', 'p'] := hletters ▸ List.mem_cons_self
      obtain ⟨-, hdecimal, hsign⟩ := letter_facts hmem
      have hword : Text.afterWord? ['z', 'f', 'p'] (c :: letters ++ rest) = some rest :=
        Text.afterWord?_eq_some_iff.mpr
          ⟨c :: letters, rfl, map_patternLetter_points.mpr hletters⟩
      rw [List.cons_append] at hword ⊢
      rw [Token.first?, hsign]
      simp only [hdecimal, Bool.false_eq_true, if_false, hword, Option.map_some]
  | sign s =>
    rw [List.singleton_append, Token.first?, Sign.ofChar?_char]

theorem written_of_first? {text rest : List Char} {token : Token}
    (h : Token.first? text = some (token, rest)) :
    ∃ lexeme, lexeme ++ rest = text ∧ Written lexeme token ∧ MayFollow rest token := by
  cases text with
  | nil => cases h
  | cons c tail =>
    rw [Token.first?] at h
    split at h
    · next s hsign =>
      cases h
      exact ⟨[c], rfl, eq_char_of_ofChar? hsign ▸ .sign s, trivial⟩
    · split at h
      · next hc =>
        cases h
        refine ⟨c :: tail.takeWhile isDecimal, ?_, .number (List.cons_ne_nil _ _) ?_, ?_⟩
        · rw [List.cons_append, List.takeWhile_append_dropWhile]
        · rw [List.forall_mem_cons]
          exact ⟨hc, List.all_eq_true.mp List.all_takeWhile⟩
        · intro d hd
          have hstop := List.head?_dropWhile_not isDecimal tail
          rwa [hd] at hstop
      · rw [Option.map_eq_some_iff] at h
        obtain ⟨after, hword, h⟩ := h
        cases h
        obtain ⟨letters, hletters, hmap⟩ := Text.afterWord?_eq_some_iff.mp hword
        exact ⟨letters, hletters, .points (map_patternLetter_points.mp hmap), trivial⟩

/-! ### Whole texts -/

theorem Spells.append_blanks {text : List Char} {tokens : List Token} (h : Spells text tokens)
    {blanks : List Char} (hblanks : Blanks blanks) : Spells (text ++ blanks) tokens := by
  induction h with
  | blank h => exact .blank (Text.blanks_append h hblanks)
  | @token before lexeme rest token tokens hbefore hwritten hfollow _ ih =>
    rw [List.append_assoc]
    refine .token hbefore hwritten ?_ ih
    cases token with
    | number digits =>
      intro c hc
      cases rest with
      | nil => exact Text.not_isDecimal_of_isBlank (hblanks c (List.mem_of_mem_head? hc))
      | cons d rest => exact hfollow c hc
    | points => trivial
    | sign s => trivial

theorem MayFollow.trimRight {rest : List Char} {token : Token} (h : MayFollow rest token) :
    MayFollow (Text.trimRight rest) token := by
  cases token with
  | number digits => exact fun c hc ↦ h c (Text.head?_trimRight hc)
  | points => trivial
  | sign s => trivial

theorem scan_nil : Token.scan [] = .ok [] := by
  rw [Token.scan]
  rfl

theorem scan_eq_of_first? {text rest : List Char} {token : Token}
    (h : Token.first? (Text.trimLeft text) = some (token, rest)) :
    Token.scan text = (Token.scan rest).map (token :: ·) := by
  cases text with
  | nil => cases h
  | cons c text =>
    rw [Token.scan]
    simp only [List.isEmpty_cons, Bool.false_eq_true, if_false]
    split
    · next hnone => rw [h] at hnone; cases hnone
    · next hsome => rw [h] at hsome; cases hsome; rfl

theorem scan_eq_of_first?_eq_none {text : List Char} (hne : text ≠ [])
    (h : Token.first? (Text.trimLeft text) = none) : Token.scan text = .error text := by
  rw [Token.scan, if_neg (List.isEmpty_iff.not.mpr hne)]
  split
  · rfl
  · next hsome => rw [h] at hsome; cases hsome

theorem spells_of_scan {text : List Char} {tokens : List Token}
    (h : Token.scan text = .ok tokens) : Spells text tokens := by
  induction text using Token.scan.induct generalizing tokens with
  | case1 text hempty =>
    obtain rfl := List.isEmpty_iff.mp hempty
    rw [scan_nil] at h
    cases h
    exact .blank Text.blanks_nil
  | case2 text hne hnone =>
    rw [Token.scan, if_neg hne] at h
    split at h
    · cases h
    · next hsome =>
      rw [hnone] at hsome
      cases hsome
  | case3 text _ token rest hfirst _ ih =>
    rw [scan_eq_of_first? hfirst] at h
    cases hscan : Token.scan rest with
    | error unread =>
      rw [hscan] at h
      cases h
    | ok others =>
      rw [hscan] at h
      cases h
      obtain ⟨blanks, hblanks, htext⟩ := Text.exists_blanks_trimLeft text
      obtain ⟨lexeme, hlexeme, hwritten, hfollow⟩ := written_of_first? hfirst
      rw [← htext, ← hlexeme, ← List.append_assoc]
      exact .token hblanks hwritten hfollow (ih hscan)

/-- What the scanner reads of a text without blanks at its end is what that text spells. -/
theorem scan_of_spells {text : List Char} {tokens : List Token} (h : Spells text tokens) :
    Token.scan (Text.trimRight text) = .ok tokens := by
  induction h with
  | blank h => rw [Text.trimRight_eq_nil_iff.mpr h, scan_nil]
  | @token before lexeme rest token tokens hbefore hwritten hfollow _ ih =>
    have htrim : Text.trimRight (before ++ lexeme ++ rest) =
        before ++ (lexeme ++ Text.trimRight rest) := by
      have hlexeme := Text.trimRight_solid_append hwritten.solid rest
      rw [List.append_assoc, Text.trimRight_append_of_ne_nil, hlexeme]
      rw [hlexeme]
      exact List.append_ne_nil_of_left_ne_nil hwritten.ne_nil _
    have hfirst : Token.first? (Text.trimLeft (before ++ (lexeme ++ Text.trimRight rest))) =
        some (token, Text.trimRight rest) := by
      rw [Text.trimLeft_append hbefore,
        Text.trimLeft_solid_append hwritten.ne_nil hwritten.solid]
      exact first?_append hwritten hfollow.trimRight
    rw [htrim, scan_eq_of_first? hfirst, ih]
    rfl

theorem ofChars_eq_ok_iff {text : List Char} {tokens : List Token} :
    Token.ofChars text = .ok tokens ↔ Spells text tokens := by
  unfold Token.ofChars
  constructor
  · intro h
    cases hscan : Token.scan (Text.trimRight text) with
    | error unread => simp [hscan] at h
    | ok found =>
      simp only [hscan, Except.ok.injEq] at h
      obtain ⟨blanks, hblanks, htext⟩ := Text.exists_blanks_trimRight text
      have hspells := (spells_of_scan hscan).append_blanks hblanks
      rwa [htext, h] at hspells
  · intro h
    simp only [scan_of_spells h]

/-- The one fault of the scanner is an unreadable part. -/
theorem ofChars_eq_error {text : List Char} {fault : Fault}
    (h : Token.ofChars text = .error fault) :
    ∃ position rest, fault = .unreadable position rest := by
  unfold Token.ofChars at h
  cases hscan : Token.scan (Text.trimRight text) with
  | error unread =>
    simp only [hscan, Except.error.injEq] at h
    exact ⟨_, _, h.symm⟩
  | ok found => simp [hscan] at h

end Aventuria.Formula
