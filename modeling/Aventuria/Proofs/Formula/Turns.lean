import Mathlib.Data.List.Basic
import Aventuria.Proofs.Formula.Compilation

/-!
# Tokens in turn

The scanner works in turns. In each it takes the blanks at the start of what is left of a text and
the token behind them, so it comes to an end (`Turns.length_le`) and never stands between two digits
(`Turns.exists_front`). What it has taken decides nothing about what is left: a text that is cut
between two tokens spells the tokens of its parts (`spells_append_iff`), with any blanks between
them (`spells_insert_iff`). The scanner ends where nothing is left, or no token is found in what is
left (`exists_turns_of_scan`).
-/

set_option autoImplicit false
set_option relaxedAutoImplicit false

namespace Aventuria.Formula

open Text (isBlank isDecimal Blanks EndsSolid)

/-! ### Turns -/

/-- One turn: what is left of a text when the blanks at its start and the token behind them have
been taken. -/
def Turn (text : List Char) (token : Token) (rest : List Char) : Prop :=
  Token.first? (Text.trimLeft text) = some (token, rest)

/-- The tokens taken in some turns, and what is left after these. -/
inductive Turns : List Char → List Token → List Char → Prop
  | none (text : List Char) : Turns text [] text
  | next {text rest left : List Char} {token : Token} {tokens : List Token}
      (hturn : Turn text token rest) (hrest : Turns rest tokens left) :
      Turns text (token :: tokens) left

/-- No run of digits goes on from one text to the next. -/
def Apart (front back : List Char) : Prop :=
  ∀ c ∈ front.getLast?, isDecimal c = true → ∀ d ∈ back.head?, isDecimal d = false

section
variable {text rest left : List Char} {token : Token} {tokens : List Token}

theorem turn_iff :
    Turn text token rest ↔ ∃ blanks lexeme, blanks ++ (lexeme ++ rest) = text ∧ Blanks blanks ∧
      Written lexeme token ∧ MayFollow rest token := by
  constructor
  · intro h
    obtain ⟨blanks, hblanks, htext⟩ := Text.exists_blanks_trimLeft text
    obtain ⟨lexeme, hlexeme, hwritten, hfollow⟩ := written_of_first? h
    exact ⟨blanks, lexeme, by rw [hlexeme, htext], hblanks, hwritten, hfollow⟩
  · rintro ⟨blanks, lexeme, rfl, hblanks, hwritten, hfollow⟩
    rw [Turn, Text.trimLeft_append hblanks,
      Text.trimLeft_solid_append hwritten.ne_nil hwritten.solid]
    exact first?_append hwritten hfollow

theorem Turn.unique {token' : Token} {rest' : List Char} (h : Turn text token rest)
    (h' : Turn text token' rest') : token = token' ∧ rest = rest' :=
  Prod.mk.inj (Option.some.inj (h.symm.trans h'))

theorem Turn.length_lt (h : Turn text token rest) : rest.length < text.length :=
  Nat.lt_of_lt_of_le (Token.length_of_first? h) (Text.length_trimLeft_le text)

theorem Turns.length_le (h : Turns text tokens left) :
    tokens.length + left.length ≤ text.length := by
  induction h with
  | none text => exact Nat.le_of_eq (Nat.zero_add _)
  | next hturn _ ih =>
    have hlt := hturn.length_lt
    rw [List.length_cons]
    omega

/-! ### Where tokens end -/

theorem apart_nil (back : List Char) : Apart [] back := nofun

theorem apart_append_of_ne_nil {second : List Char} (h : second ≠ []) (first back : List Char) :
    Apart (first ++ second) back ↔ Apart second back := by
  rw [Apart, List.getLast?_append_of_ne_nil first h, ← Apart]

/-- Blanks end every run of digits. -/
theorem apart_append_blanks {front blanks back : List Char} (hblanks : Blanks blanks)
    (h : blanks = [] → Apart front back) : Apart (front ++ blanks) back := by
  by_cases hnil : blanks = []
  · rw [hnil, List.append_nil]
    exact h hnil
  · rw [apart_append_of_ne_nil hnil]
    intro c hc hdecimal
    rw [Text.not_isDecimal_of_isBlank (hblanks c (List.mem_of_getLast? hc))] at hdecimal
    cases hdecimal

/-- A token ends where another one may follow it. -/
theorem Written.apart_iff {lexeme : List Char} (h : Written lexeme token) :
    Apart lexeme rest ↔ MayFollow rest token := by
  cases h with
  | number hne hdigits =>
    constructor
    · intro hapart
      have hlast := List.getLast?_eq_some_getLast hne
      exact hapart _ hlast (hdigits _ (List.getLast_mem hne))
    · exact fun hfollow _ _ _ ↦ hfollow
  | points hletters =>
    refine iff_of_true (fun c hc hdecimal ↦ ?_) trivial
    have hmem : c.toLower ∈ ['z', 'f', 'p'] :=
      hletters ▸ List.mem_map_of_mem (List.mem_of_getLast? hc)
    rw [(letter_facts hmem).2.1] at hdecimal
    cases hdecimal
  | sign s =>
    refine iff_of_true (fun c hc hdecimal ↦ ?_) trivial
    rw [Option.some.inj (Option.mem_def.mp hc).symm] at hdecimal
    cases s <;> cases hdecimal

theorem MayFollow.of_append {front : List Char} (h : MayFollow (front ++ rest) token) :
    MayFollow front token := by
  cases token with
  | number digits =>
    intro c hc
    exact h c (List.mem_head?_append_of_mem_head? hc)
  | points | sign => trivial

/-- A token with a further text behind it. -/
theorem Written.mayFollow_append {lexeme front back : List Char} (h : Written lexeme token)
    (hfollow : MayFollow front token) (hapart : Apart (lexeme ++ front) back) :
    MayFollow (front ++ back) token := by
  cases front with
  | nil =>
    rw [List.append_nil] at hapart
    exact h.apart_iff.mp hapart
  | cons c front =>
    cases token with
    | number digits => exact hfollow
    | points | sign => trivial

/-- What has been taken spells the tokens, and between it and what is left no number is cut. -/
theorem Turns.exists_front (h : Turns text tokens left) :
    ∃ front, front ++ left = text ∧ Spells front tokens ∧ Apart front left := by
  induction h with
  | none text => exact ⟨[], rfl, .blank Text.blanks_nil, apart_nil text⟩
  | next hturn _ ih =>
    obtain ⟨front, rfl, hspells, hapart⟩ := ih
    obtain ⟨blanks, lexeme, rfl, hblanks, hwritten, hfollow⟩ := turn_iff.mp hturn
    refine ⟨blanks ++ lexeme ++ front, by simp only [List.append_assoc],
      .token hblanks hwritten hfollow.of_append hspells, ?_⟩
    by_cases hnil : front = []
    · subst hnil
      rw [List.append_nil, apart_append_of_ne_nil hwritten.ne_nil]
      exact hwritten.apart_iff.mpr hfollow
    · rwa [apart_append_of_ne_nil hnil]

/-! ### Runs of turns -/

theorem spells_nil_iff : Spells text [] ↔ Blanks text := by
  constructor
  · rintro ⟨h⟩
    exact h
  · exact .blank

theorem spells_cons_iff :
    Spells text (token :: tokens) ↔ ∃ rest, Turn text token rest ∧ Spells rest tokens := by
  constructor
  · intro h
    cases h with
    | token hblanks hwritten hfollow hrest =>
      exact ⟨_, turn_iff.mpr ⟨_, _, (List.append_assoc ..).symm, hblanks, hwritten, hfollow⟩, hrest⟩
  · rintro ⟨rest, hturn, hrest⟩
    obtain ⟨blanks, lexeme, rfl, hblanks, hwritten, hfollow⟩ := turn_iff.mp hturn
    rw [← List.append_assoc]
    exact .token hblanks hwritten hfollow hrest

/-- A text with a token at its start is not blank. -/
theorem Turn.not_blanks (h : Turn text token rest) : ¬ Blanks text := by
  intro hblanks
  obtain ⟨blanks, lexeme, rfl, -, hwritten, -⟩ := turn_iff.mp h
  obtain ⟨c, lexeme, rfl⟩ := List.exists_cons_of_ne_nil hwritten.ne_nil
  have hc := hblanks c (by simp)
  rw [hwritten.solid c List.mem_cons_self] at hc
  cases hc

/-- After some turns, what is left spells the tokens that are not taken yet. -/
theorem Turns.spells_iff {all : List Token} (h : Turns text tokens left) :
    Spells text all ↔ ∃ later, tokens ++ later = all ∧ Spells left later := by
  induction h generalizing all with
  | none text => exact ⟨fun h ↦ ⟨all, rfl, h⟩, fun ⟨_, heq, h⟩ ↦ heq ▸ h⟩
  | @next text rest left token tokens hturn _ ih =>
    cases all with
    | nil =>
      rw [spells_nil_iff]
      exact iff_of_false hturn.not_blanks fun ⟨_, heq, _⟩ ↦ List.cons_ne_nil _ _ heq
    | cons first all =>
      rw [spells_cons_iff]
      constructor
      · rintro ⟨rest', hturn', hrest⟩
        obtain ⟨rfl, rfl⟩ := hturn'.unique hturn
        obtain ⟨later, rfl, hlater⟩ := ih.mp hrest
        exact ⟨later, rfl, hlater⟩
      · rintro ⟨later, heq, hlater⟩
        obtain ⟨rfl, rfl⟩ := List.cons.inj heq
        exact ⟨rest, hturn, ih.mpr ⟨later, rfl, hlater⟩⟩

/-- The tokens of a text are taken from it as well when another text follows. -/
theorem Spells.exists_turns {front back : List Char} (h : Spells front tokens)
    (hapart : Apart front back) :
    ∃ blanks, Blanks blanks ∧ Turns (front ++ back) tokens (blanks ++ back) := by
  induction h with
  | @blank blanks h => exact ⟨blanks, h, .none _⟩
  | @token before lexeme rest token tokens hbefore hwritten hfollow _ ih =>
    rw [List.append_assoc, apart_append_of_ne_nil
      (List.append_ne_nil_of_left_ne_nil hwritten.ne_nil rest)] at hapart
    have hrest : Apart rest back := by
      by_cases hnil : rest = []
      · exact hnil ▸ apart_nil back
      · rwa [apart_append_of_ne_nil hnil] at hapart
    obtain ⟨blanks, hblanks, hturns⟩ := ih hrest
    refine ⟨blanks, hblanks,
      .next (turn_iff.mpr ⟨before, lexeme, ?_, hbefore, hwritten, ?_⟩) hturns⟩
    · simp only [List.append_assoc]
    · exact hwritten.mayFollow_append hfollow hapart

theorem spells_blanks_append_iff {blanks : List Char} (h : Blanks blanks) :
    Spells (blanks ++ text) tokens ↔ Spells text tokens := by
  cases tokens with
  | nil =>
    rw [spells_nil_iff, spells_nil_iff]
    exact List.forall_mem_append.trans (and_iff_right h)
  | cons token tokens => simp only [spells_cons_iff, Turn, Text.trimLeft_append h]

/-- Cut between two tokens, a text spells what its parts do. -/
theorem spells_append_iff {front back : List Char} {all : List Token} (h : Spells front tokens)
    (hapart : Apart front back) :
    Spells (front ++ back) all ↔ ∃ later, tokens ++ later = all ∧ Spells back later := by
  obtain ⟨blanks, hblanks, hturns⟩ := h.exists_turns hapart
  rw [hturns.spells_iff]
  simp only [spells_blanks_append_iff hblanks]

theorem spells_insert_iff {front blanks back : List Char} {all : List Token}
    (h : Spells front tokens) (hapart : Apart front back) (hblanks : Blanks blanks) :
    Spells (front ++ blanks ++ back) all ↔ Spells (front ++ back) all := by
  have hinserted : Apart (front ++ blanks) back := apart_append_blanks hblanks fun _ ↦ hapart
  rw [spells_append_iff (h.append_blanks hblanks) hinserted, spells_append_iff h hapart]

theorem Spells.exists_turns_of_append {first later : List Token}
    (h : Spells text (first ++ later)) : ∃ left, Turns text first left ∧ Spells left later := by
  induction first generalizing text with
  | nil => exact ⟨text, .none text, h⟩
  | cons token first ih =>
    obtain ⟨rest, hturn, hrest⟩ := spells_cons_iff.mp h
    obtain ⟨left, hturns, hleft⟩ := ih hrest
    exact ⟨left, .next hturn hturns, hleft⟩

/-- The place in a text right before one of its tokens. -/
theorem Spells.exists_place {first later : List Token}
    (h : Spells text (first ++ token :: later)) :
    ∃ front lexeme back, front ++ (lexeme ++ back) = text ∧ Written lexeme token ∧
      Spells front first ∧ Apart front (lexeme ++ back) := by
  obtain ⟨left, hturns, hleft⟩ := h.exists_turns_of_append
  obtain ⟨front, rfl, hfront, hapart⟩ := hturns.exists_front
  obtain ⟨rest, hturn, -⟩ := spells_cons_iff.mp hleft
  obtain ⟨blanks, lexeme, rfl, hblanks, hwritten, -⟩ := turn_iff.mp hturn
  refine ⟨front ++ blanks, lexeme, rest, List.append_assoc .., hwritten,
    hfront.append_blanks hblanks, apart_append_blanks hblanks ?_⟩
  rintro rfl
  exact hapart

/-! ### The end of the run -/

/-- The turns that the scanner makes. It goes on as long as something is left that starts with a
token. -/
theorem exists_turns_of_scan (text : List Char) : ∃ tokens left, Turns text tokens left ∧
    ((left = [] ∧ Token.scan text = .ok tokens) ∨
      (left ≠ [] ∧ Token.first? (Text.trimLeft left) = none ∧ Token.scan text = .error left)) := by
  induction text using Token.scan.induct with
  | case1 text hempty =>
    obtain rfl := List.isEmpty_iff.mp hempty
    exact ⟨[], [], .none [], .inl ⟨rfl, scan_nil⟩⟩
  | case2 text hne hnone =>
    have hleft := List.isEmpty_iff.not.mp hne
    exact ⟨[], text, .none text, .inr ⟨hleft, hnone, scan_eq_of_first?_eq_none hleft hnone⟩⟩
  | case3 text _ token rest hfirst _ ih =>
    obtain ⟨tokens, left, hturns, hend⟩ := ih
    refine ⟨token :: tokens, left, .next hfirst hturns, ?_⟩
    rw [scan_eq_of_first? hfirst]
    rcases hend with ⟨hnil, hscan⟩ | ⟨hne, hnone, hscan⟩
    · exact .inl ⟨hnil, by rw [hscan]; rfl⟩
    · exact .inr ⟨hne, hnone, by rw [hscan]; rfl⟩

end

end Aventuria.Formula
