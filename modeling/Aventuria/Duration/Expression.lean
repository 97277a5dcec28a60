import Aventuria.Dice.Roll
import Aventuria.Text.Decimal
import Aventuria.Text.Letter
import Aventuria.Text.Rest

/-!
Expressions for the length of an effect: sums and products of numbers, the points left over from
the casting (written ZfP*) and dice, such as 3*ZfP*+2 or 2W6+ZfP*. The dice of an expression are
thrown in the order in which they are written. When a text turns out to be no expression, the
dice that stand before the flaw are thrown all the same.
-/

set_option autoImplicit false
set_option relaxedAutoImplicit false

namespace Aventuria.Duration

open Dice (Throw)
open Text (Rest Remainder)

inductive Operation where
  | add | subtract | multiply
  deriving DecidableEq, Repr

def Operation.apply (left right : Int) : Operation → Int
  | add => left + right
  | subtract => left - right
  | multiply => left * right

inductive Expression where
  | number (n : Nat)
  | points
  | dice (spec : Dice.Spec)
  | negate (operand : Expression)
  | binary (operation : Operation) (left right : Expression)
  deriving DecidableEq, Repr

namespace Expression

/-- The dice of an expression in the order in which they are written. -/
def specs : Expression → List Dice.Spec
  | number _ => []
  | points => []
  | dice spec => [spec]
  | negate operand => operand.specs
  | binary _ left right => left.specs ++ right.specs

/-- The value of an expression whose dice are thrown now. -/
def throwValue (pointTotal : Int) : Expression → Throw Int
  | number n => pure n
  | points => pure pointTotal
  | dice spec => do
    let roll ← spec.roll ""
    pure roll.total
  | negate operand => do
    let value ← operand.throwValue pointTotal
    pure (-value)
  | binary operation left right => do
    let l ← left.throwValue pointTotal
    let r ← right.throwValue pointTotal
    pure (operation.apply l r)

/-- Why a text is no expression: the dice read before the flaw, and the fault if the flaw is a run
of digits that is no number. -/
structure Flaw where
  thrown : List Dice.Spec
  fault : Option Fault
  deriving DecidableEq, Repr

namespace Flaw

def here : Flaw := ⟨[], none⟩

/-- The same flaw behind an expression that was read. -/
def behind (left : Expression) (flaw : Flaw) : Flaw :=
  { flaw with thrown := left.specs ++ flaw.thrown }

/-- Throws the dice before the flaw and raises its fault. -/
def raise (flaw : Flaw) : Throw Unit := do
  Dice.Spec.throwAll flaw.thrown
  match flaw.fault with
  | some fault => throw fault
  | none => pure ()

end Flaw

/-- The number that a run of digits stands for. -/
def readNumber (digits : List Char) : Except Flaw Nat :=
  match Text.decimal? digits with
  | some n => .ok n
  | none => .error ⟨[], some (.notANumber (String.ofList digits))⟩

/-- The term of the given number of dice whose size is the given run of digits. -/
def readDice (count : Nat) (digits : List Char) : Except Flaw Expression :=
  if count = 0 ∨ digits.isEmpty then .error .here
  else
    match readNumber digits with
    | .error flaw => .error flaw
    | .ok sides =>
      match Dice.Spec.build count sides 0 "" with
      | .ok spec => .ok (dice spec)
      | .error _ => .error .here

/-- What follows the mark of a dice term, if a text starts with it. -/
def afterDiceMark? : List Char → Option (List Char)
  | 'W' :: rest => some rest
  | 'w' :: rest => some rest
  | _ => none

/-- The number of dice of a term; there is one die where no digits stand before the mark. -/
def readCount (digits : List Char) : Except Flaw Nat :=
  if digits.isEmpty then .ok 1 else readNumber digits

/-- A number, or dice with or without their count, at the start of a text. -/
def readAtom (text : List Char) : Except Flaw (Expression × List Char) :=
  let digits := text.takeWhile Text.isDigitLike
  let rest := text.dropWhile Text.isDigitLike
  match afterDiceMark? rest with
  | some sides =>
    let term := (readCount digits).bind (readDice · (sides.takeWhile Text.isDigitLike))
    term.map (·, sides.dropWhile Text.isDigitLike)
  | none =>
    if digits.isEmpty then .error .here
    else ((readNumber digits).map number).map (·, rest)

/-- The operation that continues a sum. -/
def additive? : Char → Option Operation
  | '+' => some .add
  | '-' => some .subtract
  | _ => none

/-- The operation that continues a product. -/
def multiplicative? : Char → Option Operation
  | '*' => some .multiply
  | _ => none

private theorem rest_of_map {read : Except Flaw Expression} {atom : Expression}
    {rest rest' : List Char} (h : read.map (·, rest) = .ok (atom, rest')) : rest' = rest := by
  cases read with
  | error flaw => simp [Except.map] at h
  | ok e =>
    simp only [Except.map, Except.ok.injEq, Prod.mk.injEq] at h
    exact h.2.symm

private theorem length_of_afterDiceMark? {text rest : List Char}
    (h : afterDiceMark? text = some rest) : rest.length < text.length := by
  rw [afterDiceMark?.eq_def] at h
  split at h <;> simp_all

theorem length_of_readAtom {text rest : List Char} {atom : Expression}
    (h : readAtom text = .ok (atom, rest)) : rest.length < text.length := by
  have total := congrArg List.length
    (List.takeWhile_append_dropWhile (p := Text.isDigitLike) (l := text))
  rw [List.length_append] at total
  rw [readAtom] at h
  split at h
  · next sides hmark =>
    have mark := length_of_afterDiceMark? hmark
    have size := Text.length_dropWhile_le Text.isDigitLike sides
    rw [rest_of_map h]
    omega
  · split at h
    · simp at h
    · next hdigits =>
      have := List.length_pos_iff.mpr (mt List.isEmpty_iff.mpr hdigits)
      rw [rest_of_map h]
      omega

/-- A signed factor, the points, a number or a dice term. -/
def readFactor (text : List Char) : Except Flaw (Expression × Rest text) :=
  match h : Text.trimLeft text with
  | '+' :: tail =>
    have shorter : tail.length < text.length := Text.length_lt_of_trimLeft h
    match readFactor tail with
    | .error flaw => .error flaw
    | .ok (operand, ⟨rest, _⟩) => .ok (operand, ⟨rest, by omega⟩)
  | '-' :: tail =>
    have shorter : tail.length < text.length := Text.length_lt_of_trimLeft h
    match readFactor tail with
    | .error flaw => .error flaw
    | .ok (operand, ⟨rest, _⟩) => .ok (.negate operand, ⟨rest, by omega⟩)
  | trimmed =>
    have fits : trimmed.length ≤ text.length := h ▸ Text.length_trimLeft_le text
    match hp : Text.afterWord? ['z', 'f', 'p', '*'] trimmed with
    | some rest =>
      .ok (.points, ⟨rest, by
        have := Text.length_of_afterWord? hp
        simp only [List.length_cons, List.length_nil] at this
        omega⟩)
    | none =>
      match ha : readAtom trimmed with
      | .error flaw => .error flaw
      | .ok (atom, rest) =>
        .ok (atom, ⟨rest, Nat.lt_of_lt_of_le (length_of_readAtom ha) fits⟩)
termination_by text.length

/-- Multiplies a product by the factors that follow it. -/
def readFactors (left : Expression) (text : List Char) :
    Except Flaw (Expression × Remainder text) :=
  match h : Text.trimLeft text with
  | [] => .ok (left, ⟨[], Nat.zero_le _⟩)
  | c :: tail =>
    have shorter : tail.length < text.length := Text.length_lt_of_trimLeft h
    match multiplicative? c with
    | none => .ok (left, ⟨c :: tail, shorter⟩)
    | some operation =>
      match readFactor tail with
      | .error flaw => .error (flaw.behind left)
      | .ok (right, ⟨rest, _⟩) =>
        match readFactors (.binary operation left right) rest with
        | .error flaw => .error flaw
        | .ok (product, ⟨rest, fewer⟩) => .ok (product, ⟨rest, by omega⟩)
termination_by text.length

def readProduct (text : List Char) : Except Flaw (Expression × Rest text) :=
  match readFactor text with
  | .error flaw => .error flaw
  | .ok (left, ⟨rest, shorter⟩) =>
    match readFactors left rest with
    | .error flaw => .error flaw
    | .ok (product, ⟨rest, fewer⟩) => .ok (product, ⟨rest, Nat.lt_of_le_of_lt fewer shorter⟩)

/-- Adds the products that follow a sum to it. -/
def readTerms (left : Expression) (text : List Char) :
    Except Flaw (Expression × Remainder text) :=
  match h : Text.trimLeft text with
  | [] => .ok (left, ⟨[], Nat.zero_le _⟩)
  | c :: tail =>
    have shorter : tail.length < text.length := Text.length_lt_of_trimLeft h
    match additive? c with
    | none => .ok (left, ⟨c :: tail, shorter⟩)
    | some operation =>
      match readProduct tail with
      | .error flaw => .error (flaw.behind left)
      | .ok (right, ⟨rest, _⟩) =>
        match readTerms (.binary operation left right) rest with
        | .error flaw => .error flaw
        | .ok (sum, ⟨rest, fewer⟩) => .ok (sum, ⟨rest, by omega⟩)
termination_by text.length

def readSum (text : List Char) : Except Flaw (Expression × Rest text) :=
  match readProduct text with
  | .error flaw => .error flaw
  | .ok (left, ⟨rest, shorter⟩) =>
    match readTerms left rest with
    | .error flaw => .error flaw
    | .ok (sum, ⟨rest, fewer⟩) => .ok (sum, ⟨rest, Nat.lt_of_le_of_lt fewer shorter⟩)

/-- The expression that a text is, blanks around its parts allowed. -/
def ofChars (text : List Char) : Except Flaw Expression :=
  match readSum text with
  | .error flaw => .error flaw
  | .ok (expression, ⟨rest, _⟩) =>
    if (Text.trimLeft rest).isEmpty then .ok expression
    else .error (Flaw.here.behind expression)

end Expression

end Aventuria.Duration
