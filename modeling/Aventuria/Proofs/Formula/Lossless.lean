import Aventuria.Proofs.Formula.Turns

/-!
# What tokens keep of a text

The tokens of a text, put together again, are the text without its blanks and with the points in
their usual spelling (`Spells.flatMap_chars`). A text is refused just where, blanks and tokens taken
from its start, something is left that starts no token (`exists_error_iff_stuck`). Blanks between
two tokens or at the end make no difference to the tokens, so they make none to the formula and its
value either (`alike_of_spells_iff`). The main result is `tokens_are_taken_in_turn`.
-/

set_option autoImplicit false
set_option relaxedAutoImplicit false

namespace Aventuria.Formula

open Text (isBlank isDecimal Blanks EndsSolid Solid)

/-! ### The text of the tokens -/

/-- The text with the points, in whichever case they are written, in their usual spelling. -/
def respell : List Char → List Char
  | a :: b :: c :: rest =>
    if [a, b, c].map Char.toLower = ['z', 'f', 'p'] then Token.points.chars ++ respell rest
    else a :: respell (b :: c :: rest)
  | text => text

theorem respell_cons {c : Char} (h : c.toLower ≠ 'z') (text : List Char) :
    respell (c :: text) = c :: respell text := by
  match text with
  | [] | [_] => rfl
  | b :: d :: rest =>
    rw [respell, if_neg]
    exact fun heq ↦ h (List.cons.inj heq).1

theorem respell_digits {digits : List Char} (h : ∀ c ∈ digits, isDecimal c = true)
    (text : List Char) : respell (digits ++ text) = digits ++ respell text := by
  induction digits with
  | nil => rfl
  | cons c digits ih =>
    rw [List.forall_mem_cons] at h
    have hc : c.toLower ≠ 'z' := by
      intro hz
      have hletter := letter_facts (hz ▸ List.mem_cons_self : c.toLower ∈ ['z', 'f', 'p'])
      exact nomatch h.1.symm.trans hletter.2.1
    rw [List.cons_append, respell_cons hc, ih h.2, List.cons_append]

theorem respell_points {letters : List Char} (h : letters.map Char.toLower = ['z', 'f', 'p'])
    (text : List Char) : respell (letters ++ text) = Token.points.chars ++ respell text := by
  have hletters := h
  obtain ⟨a, _, rfl, -, h⟩ := List.map_eq_cons_iff.mp h
  obtain ⟨b, _, rfl, -, h⟩ := List.map_eq_cons_iff.mp h
  obtain ⟨c, _, rfl, -, h⟩ := List.map_eq_cons_iff.mp h
  obtain rfl := List.map_eq_nil_iff.mp h
  exact if_pos hletters

theorem respell_append {lexeme : List Char} {token : Token} (h : Written lexeme token)
    (text : List Char) : respell (lexeme ++ text) = token.chars ++ respell text := by
  cases h with
  | number _ hdigits => exact respell_digits hdigits text
  | points hletters => exact respell_points hletters text
  | sign s => exact respell_cons (by cases s <;> decide) text

/-- Nothing but blanks and the case of letters is lost. -/
theorem Spells.flatMap_chars {text : List Char} {tokens : List Token} (h : Spells text tokens) :
    tokens.flatMap Token.chars = respell (text.filter fun c ↦ !isBlank c) := by
  have hnone : ∀ {blanks : List Char}, Blanks blanks → blanks.filter (fun c ↦ !isBlank c) = [] :=
    fun hblanks ↦ List.filter_eq_nil_iff.mpr fun c hc ↦ by simp [hblanks c hc]
  induction h with
  | blank h =>
    rw [hnone h]
    rfl
  | @token blanks lexeme rest token tokens hblanks hwritten _ _ ih =>
    have hall : lexeme.filter (fun c ↦ !isBlank c) = lexeme :=
      List.filter_eq_self.mpr fun c hc ↦ by simp [hwritten.solid c hc]
    rw [List.filter_append, List.filter_append, hnone hblanks, hall, List.nil_append,
      respell_append hwritten, List.flatMap_cons, ih]

/-! ### Unreadable texts -/

/-- A text that starts neither with a blank nor with a token. -/
structure StartsNothing (rest : List Char) : Prop where
  ne_nil : rest ≠ []
  not_blank : ∀ c ∈ rest.head?, isBlank c = false
  not_written : ∀ lexeme token, Written lexeme token → ¬ lexeme <+: rest

/-- When tokens and blanks have been taken from the start of a text, something is left that starts
nothing. -/
def Stuck (text : List Char) : Prop :=
  ∃ front rest tokens, front ++ rest = text ∧ Spells front tokens ∧ StartsNothing rest

/-- How the scanner ends with what it has not taken from a text. -/
inductive Ends (text : List Char) (tokens : List Token) : List Char → Prop
  | read (h : Token.ofChars text = .ok tokens) : Ends text tokens []
  | refused {front left : List Char} (htext : front ++ left = Text.trimRight text)
      (hne : left ≠ []) (hnone : ∀ token rest, ¬ Turn left token rest)
      (h : Token.ofChars text = .error (.unreadable front.length (String.ofList left))) :
      Ends text tokens left

section
variable {text rest : List Char} {tokens : List Token}

/-- Where a token is written the scanner finds one, though it may be a longer number. -/
theorem first?_ne_none {lexeme : List Char} {token : Token} (h : Written lexeme token)
    (rest : List Char) : Token.first? (lexeme ++ rest) ≠ none := by
  cases h with
  | number hne hdigits =>
    obtain ⟨c, digits, rfl⟩ := List.exists_cons_of_ne_nil hne
    have hc := hdigits c List.mem_cons_self
    rw [List.cons_append, Token.first?, ofChar?_of_isDecimal hc]
    simp only [hc, if_true]
    exact Option.some_ne_none _
  | points hletters =>
    rw [first?_append (.points hletters) trivial]
    exact Option.some_ne_none _
  | sign s =>
    rw [first?_append (.sign s) trivial]
    exact Option.some_ne_none _

/-- A word without blanks at the start of a text is not longer than the text without the blanks at
its end. -/
theorem prefix_trimRight {word : List Char} (h : Solid word) (hstarts : word <+: text) :
    word <+: Text.trimRight text := by
  obtain ⟨rest, rfl⟩ := hstarts
  rw [Text.trimRight_solid_append h]
  exact List.prefix_append _ _

/-- No number goes on into a text that starts nothing. -/
theorem StartsNothing.apart (h : StartsNothing rest) (front : List Char) : Apart front rest := by
  intro _ _ _ c hc
  rw [← Bool.not_eq_true]
  intro hdecimal
  obtain ⟨later, rfl⟩ := List.head?_eq_some_iff.mp hc
  refine h.not_written [c] _ (.number (List.cons_ne_nil c []) ?_) ⟨later, rfl⟩
  exact fun d hd ↦ List.mem_singleton.mp hd ▸ hdecimal

theorem StartsNothing.not_spells (h : StartsNothing rest) : ¬ Spells rest tokens := by
  intro hspells
  obtain ⟨c, later, rfl⟩ := List.exists_cons_of_ne_nil h.ne_nil
  have hc := h.not_blank c rfl
  cases tokens with
  | nil =>
    rw [spells_nil_iff.mp hspells c List.mem_cons_self] at hc
    cases hc
  | cons token tokens =>
    obtain ⟨rest, hturn, -⟩ := spells_cons_iff.mp hspells
    rw [Turn, Text.trimLeft_cons hc] at hturn
    obtain ⟨lexeme, hlexeme, hwritten, -⟩ := written_of_first? hturn
    exact h.not_written lexeme token hwritten ⟨rest, hlexeme⟩

theorem Stuck.not_spells (h : Stuck text) : ¬ Spells text tokens := by
  obtain ⟨front, rest, taken, rfl, hspells, hrest⟩ := h
  rw [spells_append_iff hspells (hrest.apart front)]
  rintro ⟨later, -, hlater⟩
  exact hrest.not_spells hlater

/-- What is left of a text without blanks at its end starts nothing when no token is found in it,
whether or not blanks follow. -/
theorem startsNothing_append_blanks {c : Char} {blanks : List Char} (hc : isBlank c = false)
    (hends : EndsSolid (c :: rest)) (hnone : Token.first? (c :: rest) = none)
    (hblanks : Blanks blanks) : StartsNothing (c :: rest ++ blanks) where
  ne_nil := List.cons_ne_nil _ _
  not_blank := by
    rintro _ ⟨⟩
    exact hc
  not_written lexeme token hwritten hstarts := by
    have hstart := prefix_trimRight hwritten.solid hstarts
    rw [Text.trimRight_append_blanks hblanks, hends.trimRight_eq] at hstart
    obtain ⟨later, hlater⟩ := hstart
    exact first?_ne_none hwritten later (hlater ▸ hnone)

/-- The turns of the scanner end, at the end of the text or at a place in it that starts nothing. -/
theorem exists_turns (text : List Char) : ∃ tokens left,
    Turns (Text.trimRight text) tokens left ∧ Ends text tokens left ∧ (left ≠ [] → Stuck text) := by
  obtain ⟨tokens, left, hturns, hend⟩ := exists_turns_of_scan (Text.trimRight text)
  refine ⟨tokens, left, hturns, ?_⟩
  rcases hend with ⟨rfl, hscan⟩ | ⟨hne, hnone, hscan⟩
  · exact ⟨.read (by simp only [Token.ofChars, hscan]), fun hne ↦ absurd rfl hne⟩
  · obtain ⟨front, htext, hspells, -⟩ := hturns.exists_front
    have hposition : (Text.trimRight text).length - left.length = front.length := by
      rw [← htext, List.length_append, Nat.add_sub_cancel]
    have hrefused : Token.ofChars text =
        .error (.unreadable front.length (String.ofList left)) := by
      simp only [Token.ofChars, hscan, hposition]
    refine ⟨.refused htext hne (fun _ _ hturn ↦ nomatch hnone.symm.trans hturn) hrefused,
      fun _ ↦ ?_⟩
    -- Neither the blanks before what is left nor those at the end of the text start a token.
    have hends : EndsSolid left := (Text.endsSolid_trimRight text).of_suffix ⟨front, htext⟩
    obtain ⟨before, hbefore, hleft⟩ := Text.exists_blanks_trimLeft left
    obtain ⟨after, hafter, hwhole⟩ := Text.exists_blanks_trimRight text
    obtain ⟨c, rest, hrest⟩ := List.exists_cons_of_ne_nil (hends.trimLeft_ne_nil hne)
    rw [hrest] at hleft hnone
    refine ⟨front ++ before, c :: rest ++ after, tokens, ?_, hspells.append_blanks hbefore,
      startsNothing_append_blanks (Text.not_isBlank_of_trimLeft hrest)
        (hends.of_suffix ⟨before, hleft⟩) hnone hafter⟩
    rw [← hwhole, ← htext, ← hleft]
    simp only [List.append_assoc]

theorem exists_error_iff_stuck :
    (∃ fault, Token.ofChars text = .error fault) ↔ Stuck text := by
  constructor
  · rintro ⟨fault, hfault⟩
    obtain ⟨tokens, left, -, hends, hstuck⟩ := exists_turns text
    cases hends with
    | read h => exact nomatch h.symm.trans hfault
    | refused _ hne _ _ => exact hstuck hne
  · intro hstuck
    cases hread : Token.ofChars text with
    | error fault => exact ⟨fault, rfl⟩
    | ok tokens => exact (hstuck.not_spells (ofChars_eq_ok_iff.mp hread)).elim

end

/-! ### Texts that are read alike -/

/-- Texts that have the same tokens, and so the same formula and the same values. -/
structure Alike (first second : List Char) : Prop where
  tokens : (Token.ofChars first).toOption = (Token.ofChars second).toOption
  compile : compile (some (String.ofList first)) = compile (some (String.ofList second))
  evaluate : ∀ points, evaluate (some (String.ofList first)) points =
    evaluate (some (String.ofList second)) points

section
variable {first second : List Char}

theorem toOption_ofChars_eq_some_iff {text : List Char} {tokens : List Token} :
    (Token.ofChars text).toOption = some tokens ↔ Spells text tokens := by
  rw [← ofChars_eq_ok_iff]
  cases Token.ofChars text <;> simp [Except.toOption]

/-- A text has no formula but that of its tokens. -/
theorem compile_eq (text : List Char) :
    compile (some (String.ofList text)) =
      .ok ((Token.ofChars text).toOption.bind fun tokens ↦ (ofTokens tokens).toOption) := by
  rw [compile_some, String.toList_ofList, ofChars]
  cases Token.ofChars text <;> rfl

theorem alike_of_spells_iff (h : ∀ tokens, Spells first tokens ↔ Spells second tokens) :
    Alike first second := by
  have htokens : (Token.ofChars first).toOption = (Token.ofChars second).toOption := by
    refine Option.ext fun tokens ↦ ?_
    rw [toOption_ofChars_eq_some_iff, toOption_ofChars_eq_some_iff, h tokens]
  have hcompile : compile (some (String.ofList first)) = compile (some (String.ofList second)) := by
    rw [compile_eq, compile_eq, htokens]
  exact ⟨htokens, hcompile, fun points ↦ by rw [evaluate, evaluate, hcompile]⟩

theorem alike_append_blanks {text blanks : List Char} (h : Blanks blanks) :
    Alike (text ++ blanks) text := by
  refine alike_of_spells_iff fun tokens ↦ ?_
  rw [← ofChars_eq_ok_iff, ← ofChars_eq_ok_iff, Token.ofChars, Text.trimRight_append_blanks h,
    ← Token.ofChars]

end

/-- The scanner makes no more turns than a text has characters, and never stands between two digits.
It ends with nothing left, or it refuses the text where it stands. The tokens that it has read make
up the text without blanks and with the points in their usual spelling. It refuses a text exactly
where, tokens and blanks taken, something starts no token. There is a place right before each token;
there, as at any place between two tokens, and at the end, further blanks leave all as it was. -/
theorem tokens_are_taken_in_turn (text : List Char) :
    (∀ tokens left, Turns (Text.trimRight text) tokens left →
      tokens.length + left.length ≤ text.length ∧
        ∃ front, front ++ left = Text.trimRight text ∧ Apart front left) ∧
    (∃ tokens left, Turns (Text.trimRight text) tokens left ∧ Ends text tokens left) ∧
    (∀ tokens, Token.ofChars text = .ok tokens →
      tokens.flatMap Token.chars = respell (text.filter fun c ↦ !isBlank c)) ∧
    ((∃ fault, Token.ofChars text = .error fault) ↔ Stuck text) ∧
    (∀ first token later, Token.ofChars text = .ok (first ++ token :: later) →
      ∃ front lexeme back, front ++ (lexeme ++ back) = text ∧ Written lexeme token ∧
        Spells front first ∧ Apart front (lexeme ++ back)) ∧
    (∀ front back tokens, front ++ back = text → Spells front tokens → Apart front back →
      ∀ blanks, Blanks blanks → Alike (front ++ blanks ++ back) text) ∧
    ∀ blanks, Blanks blanks → Alike (text ++ blanks) text := by
  refine ⟨fun tokens left hturns ↦ ⟨?_, ?_⟩, ?_, fun tokens hread ↦ ?_, exists_error_iff_stuck,
    fun first token later hread ↦ (ofChars_eq_ok_iff.mp hread).exists_place, ?_,
    fun blanks ↦ alike_append_blanks⟩
  · exact hturns.length_le.trans (Text.length_trimRight_le text)
  · obtain ⟨front, htext, -, hapart⟩ := hturns.exists_front
    exact ⟨front, htext, hapart⟩
  · obtain ⟨tokens, left, hturns, hends, -⟩ := exists_turns text
    exact ⟨tokens, left, hturns, hends⟩
  · exact (ofChars_eq_ok_iff.mp hread).flatMap_chars
  · rintro front back tokens rfl hspells hapart blanks hblanks
    exact alike_of_spells_iff fun all ↦ spells_insert_iff hspells hapart hblanks

/-- Two more blanks behind the one that already stands between a number and a sign. -/
theorem tokens_are_taken_in_turn_past_more_blanks :
    Token.ofChars "16 -zFp".toList = .ok [.number ['1', '6'], .sign .minus, .points] ∧
      "16-ZfP".toList = respell ("16 -zFp".toList.filter fun c ↦ !isBlank c) ∧
      Spells "16 ".toList [.number ['1', '6']] ∧ Apart "16 ".toList "-zFp".toList ∧
      Blanks ['\t', '\u2003'] ∧
      Alike ("16 ".toList ++ ['\t', '\u2003'] ++ "-zFp".toList) "16 -zFp".toList := by
  have hfront : Spells "16 ".toList [.number ['1', '6']] :=
    spells_cons_iff.mpr ⟨[' '], rfl, spells_nil_iff.mpr (by decide)⟩
  have hback : Spells "-zFp".toList [.sign .minus, .points] :=
    spells_cons_iff.mpr ⟨"zFp".toList, rfl,
      spells_cons_iff.mpr ⟨[], rfl, spells_nil_iff.mpr (by decide)⟩⟩
  have hapart : Apart "16 ".toList "-zFp".toList := by
    rintro _ ⟨⟩ hdecimal
    exact nomatch hdecimal
  have hblanks : Blanks ['\t', '\u2003'] := by decide
  have hread : Token.ofChars "16 -zFp".toList = .ok [.number ['1', '6'], .sign .minus, .points] :=
    ofChars_eq_ok_iff.mpr ((spells_append_iff hfront hapart).mpr ⟨_, rfl, hback⟩)
  obtain ⟨-, -, hlossless, -, -, hinsert, -⟩ := tokens_are_taken_in_turn "16 -zFp".toList
  exact ⟨hread, hlossless _ hread, hfront, hapart, hblanks,
    hinsert _ _ _ rfl hfront hapart _ hblanks⟩

end Aventuria.Formula
