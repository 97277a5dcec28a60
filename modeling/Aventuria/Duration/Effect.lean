import Aventuria.Duration.Expression
import Aventuria.Duration.ShelfLife

/-!
Durations of effects: an expression followed by a unit, such as 3*ZfP*+2 Tage. Only a positive
amount is a duration. An evaluated duration written out again is a shelf life, and as such it
decides when the effect ends.
-/

set_option autoImplicit false
set_option relaxedAutoImplicit false

namespace Aventuria.Duration

open Calendar (Moment)
open Dice (Throw)

structure Effect where
  amount : Nat
  unit : String
  amount_ne_zero : amount ≠ 0
  deriving DecidableEq, Repr

namespace Effect

def text (effect : Effect) : String :=
  s!"{effect.amount} {effect.unit}"

/-- The effect of the given amount, unless there is nothing left of it. -/
def ofAmount? (amount : Int) (unit : List Char) : Option Effect :=
  if h : 0 < amount then
    some ⟨amount.toNat, String.ofList unit, by omega⟩
  else none

/-- A text of at least two words without its last word, and that word. -/
def cutUnit? (text : List Char) : Option (List Char × List Char) :=
  let trimmed := Text.trim text
  match Text.words trimmed with
  | [] | [_] => none
  | _ :: word :: words =>
    let unit := (word :: words).getLast (List.cons_ne_nil word words)
    some (Text.trim (trimmed.take (trimmed.length - unit.length)), unit)

def evaluate? (specification : String) (points : Int) : Throw (Option Effect) :=
  match cutUnit? specification.toList with
  | none => pure none
  | some (expression, unit) =>
    match wordDays? unit with
    | none => pure none
    | some _ =>
      match Expression.ofChars expression with
      | .ok expression => do
        let amount ← expression.throwValue points
        pure (ofAmount? amount unit)
      | .error flaw => do
        flaw.raise
        pure none

end Effect

/-- The moment at which an effect of the specified duration ends, if it has one. -/
def effectExpiry? (current : Moment) (specification : String) (points : Int) :
    Throw (Option Moment) := do
  match ← Effect.evaluate? specification points with
  | some effect => some <$> expiry current effect.text
  | none => pure none

end Aventuria.Duration
