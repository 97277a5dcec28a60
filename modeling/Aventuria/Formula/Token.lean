import Aventuria.Fault
import Aventuria.Text.Blank
import Aventuria.Text.Decimal
import Aventuria.Text.Letter

/-!
The tokens of a cost formula: runs of decimal digits, the word ZfP in any case, and the signs of
the operations and parentheses. White space may stand before every token and at the end. Where no
token starts, the formula is unreadable from the end of the last token on.
-/

set_option autoImplicit false
set_option relaxedAutoImplicit false

namespace Aventuria.Formula

inductive Sign where
  | plus | minus | star | slash | opening | closing
  deriving DecidableEq, Repr

namespace Sign

def char : Sign → Char
  | plus => '+'
  | minus => '-'
  | star => '*'
  | slash => '/'
  | opening => '('
  | closing => ')'

def ofChar? : Char → Option Sign
  | '+' => some plus
  | '-' => some minus
  | '*' => some star
  | '/' => some slash
  | '(' => some opening
  | ')' => some closing
  | _ => none

@[simp] theorem ofChar?_char (sign : Sign) : ofChar? sign.char = some sign := by
  cases sign <;> rfl

end Sign

inductive Token where
  | number (digits : List Char)
  | points
  | sign (sign : Sign)
  deriving DecidableEq, Repr

namespace Token

def chars : Token → List Char
  | number digits => digits
  | points => ['Z', 'f', 'P']
  | sign s => [s.char]

def text (token : Token) : String :=
  String.ofList token.chars

/-- The token at the very start of a text, and what follows it. -/
def first? : List Char → Option (Token × List Char)
  | [] => none
  | c :: rest =>
    match Sign.ofChar? c with
    | some s => some (sign s, rest)
    | none =>
      if Text.isDecimal c then
        some (number (c :: rest.takeWhile Text.isDecimal), rest.dropWhile Text.isDecimal)
      else
        (Text.afterWord? ['z', 'f', 'p'] (c :: rest)).map (points, ·)

theorem length_of_first? {text rest : List Char} {token : Token}
    (h : first? text = some (token, rest)) : rest.length < text.length := by
  cases text with
  | nil => simp [first?] at h
  | cons c tail =>
    rw [first?] at h
    split at h
    · simp only [Option.some.injEq, Prod.mk.injEq] at h
      simp [h.2]
    · split at h
      · simp only [Option.some.injEq, Prod.mk.injEq] at h
        have := Text.length_dropWhile_le Text.isDecimal tail
        rw [← h.2]
        exact Nat.lt_succ_of_le this
      · simp only [Option.map_eq_some_iff, Prod.mk.injEq] at h
        obtain ⟨r, hr, -, rfl⟩ := h
        have := Text.length_of_afterWord? hr
        simp only [List.length_cons, List.length_nil] at this ⊢
        omega

/-- All tokens of a text without blanks at its end, or the part of it that stays unread. -/
def scan (text : List Char) : Except (List Char) (List Token) :=
  if text.isEmpty then .ok []
  else
    match h : first? (Text.trimLeft text) with
    | none => .error text
    | some (token, rest) =>
      have : rest.length < text.length :=
        Nat.lt_of_lt_of_le (length_of_first? h) (Text.length_trimLeft_le text)
      (scan rest).map (token :: ·)
termination_by text.length

def ofChars (text : List Char) : Except Fault (List Token) :=
  let trimmed := Text.trimRight text
  match scan trimmed with
  | .ok tokens => .ok tokens
  | .error unread =>
    .error (.unreadable (trimmed.length - unread.length) (String.ofList unread))

end Token

end Aventuria.Formula
