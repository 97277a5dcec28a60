import Aventuria.Fault
import Aventuria.Text.Blank
import Aventuria.Text.Decimal
import Aventuria.Text.Letter

/-!
Conditions on the points left over from a search. A part of a harvest may be bound to such a
condition, written as in "IF TaP*>=7: 7W6 Beeren".
-/

set_option autoImplicit false
set_option relaxedAutoImplicit false

namespace Aventuria.Harvest

inductive Comparator where
  | atLeast | greater | atMost | less | equal
  deriving DecidableEq, Repr

namespace Comparator

def symbol : Comparator → String
  | atLeast => ">="
  | greater => ">"
  | atMost => "<="
  | less => "<"
  | equal => "="

def ofSymbol : String → Except Fault Comparator
  | ">=" => .ok atLeast
  | ">" => .ok greater
  | "<=" => .ok atMost
  | "<" => .ok less
  | "=" => .ok equal
  | "==" => .ok equal
  | other => .error (.unknownComparator other)

def holds (points value : Int) : Comparator → Bool
  | atLeast => value ≤ points
  | greater => value < points
  | atMost => points ≤ value
  | less => points < value
  | equal => points = value

end Comparator

structure Threshold where
  comparator : Comparator
  value : Int
  deriving DecidableEq, Repr

namespace Threshold

def isMet (threshold : Threshold) (points : Int) : Bool :=
  threshold.comparator.holds points threshold.value

/-- Without a number of points every condition counts as met. -/
def isOpen (threshold : Threshold) (points : Option Int) : Bool :=
  points.all threshold.isMet

def describe (threshold : Threshold) : String :=
  s!"TaP*{threshold.comparator.symbol}{threshold.value}"

end Threshold

/-- The rest of a text after at least one blank and all further ones. -/
def afterBlanks? : List Char → Option (List Char)
  | c :: rest => if Text.isBlank c then some (Text.trimLeft rest) else none
  | [] => none

theorem length_of_afterBlanks? {text rest : List Char} (h : afterBlanks? text = some rest) :
    rest.length < text.length := by
  cases text with
  | nil => simp [afterBlanks?] at h
  | cons c tail =>
    rw [afterBlanks?] at h
    split at h
    · rw [← Option.some.inj h]
      exact Nat.lt_succ_of_le (Text.length_trimLeft_le tail)
    · simp at h

/-- The comparison symbol that a text starts with, and what follows it; the longest one counts. -/
def symbol? : List Char → Option (String × List Char)
  | '>' :: '=' :: rest => some (">=", rest)
  | '<' :: '=' :: rest => some ("<=", rest)
  | '=' :: '=' :: rest => some ("==", rest)
  | '=' :: rest => some ("=", rest)
  | '>' :: rest => some (">", rest)
  | '<' :: rest => some ("<", rest)
  | _ => none

theorem length_of_symbol? {text rest : List Char} {symbol : String}
    (h : symbol? text = some (symbol, rest)) : rest.length < text.length := by
  rw [symbol?.eq_def] at h
  split at h <;> simp only [Option.some.injEq, Prod.mk.injEq, reduceCtorEq] at h <;>
    simp only [← h.2, List.length_cons] <;> omega

/-- A condition as written: its comparison symbol and its digits. -/
structure Condition where
  symbol : String
  digits : List Char
  deriving DecidableEq, Repr

namespace Condition

/-- A condition in front of a text on one line, and that text. -/
def read? (text : List Char) : Option (Condition × List Char) := do
  let rest ← Text.afterWord? ['i', 'f'] text
  let rest ← afterBlanks? rest
  let rest ← Text.afterWord? ['t', 'a', 'p', '*'] rest
  let (symbol, rest) ← symbol? (Text.trimLeft rest)
  let rest := Text.trimLeft rest
  let digits := rest.takeWhile Text.isDecimal
  if digits.isEmpty then none
  else
    match Text.trimLeft (rest.dropWhile Text.isDecimal) with
    | ':' :: rest =>
      let body := Text.trimLeft rest
      if body.isEmpty || body.contains '\n' then none
      else some (⟨symbol, digits⟩, body)
    | _ => none

theorem length_of_read? {text body : List Char} {condition : Condition}
    (h : read? text = some (condition, body)) : body.length < text.length := by
  simp only [read?, Option.bind_eq_bind, Option.bind_eq_some_iff] at h
  obtain ⟨r₁, h₁, r₂, h₂, r₃, h₃, ⟨symbol, r₄⟩, h₄, h⟩ := h
  have l₁ := Text.length_of_afterWord? h₁
  have l₂ := length_of_afterBlanks? h₂
  have l₃ := Text.length_of_afterWord? h₃
  have l₄ := length_of_symbol? h₄
  have t₃ := Text.length_trimLeft_le r₃
  have t₄ := Text.length_trimLeft_le r₄
  have d₄ := Text.length_dropWhile_le Text.isDecimal (Text.trimLeft r₄)
  have t₅ := Text.length_trimLeft_le ((Text.trimLeft r₄).dropWhile Text.isDecimal)
  split at h
  · simp at h
  · split at h
    · next r₅ hcolon =>
      rw [hcolon, List.length_cons] at t₅
      have t₆ := Text.length_trimLeft_le r₅
      split at h
      · simp at h
      · simp only [Option.some.injEq, Prod.mk.injEq] at h
        rw [← h.2]
        omega
    · simp at h

/-- What a condition demands. -/
def threshold (condition : Condition) : Except Fault Threshold := do
  let comparator ← Comparator.ofSymbol condition.symbol
  let value ← numberOfDigits condition.digits
  .ok ⟨comparator, value⟩

end Condition

end Aventuria.Harvest
