import Aventuria.Formula.Token
import Aventuria.Formula.Tree
import Aventuria.Text.Rest

/-!
Reading cost formulas. A sum is made of products, a product of factors, and a factor is a signed
factor, a sum in parentheses, the points or a number. Sums and products associate to the left; a
plus sign before a factor leaves no trace. Each reader returns the tokens it has not read, and
they are fewer than it was given. A text that is no formula is a fault inside this module and none
outside of it.
-/

set_option autoImplicit false
set_option relaxedAutoImplicit false

namespace Aventuria.Formula

open Text (Rest Remainder)

/-- The operation that continues a sum. -/
def Token.additive? : Token → Option Operator
  | sign .plus => some .add
  | sign .minus => some .subtract
  | _ => none

/-- The operation that continues a product. -/
def Token.multiplicative? : Token → Option Operator
  | sign .star => some .multiply
  | sign .slash => some .divide
  | _ => none

mutual

def readSum (tokens : List Token) : Except Fault (Formula × Rest tokens) := do
  let (left, ⟨rest, shorter⟩) ← readProduct tokens
  let (sum, ⟨rest, fewer⟩) ← readTerms left rest
  .ok (sum, ⟨rest, Nat.lt_of_le_of_lt fewer shorter⟩)
termination_by (tokens.length, 2)

/-- Adds the products that follow a sum to it. -/
def readTerms (left : Formula) (tokens : List Token) : Except Fault (Formula × Remainder tokens) :=
  match tokens with
  | [] => .ok (left, ⟨[], Nat.le_refl _⟩)
  | token :: tail =>
    match token.additive? with
    | none => .ok (left, ⟨token :: tail, Nat.le_refl _⟩)
    | some operator => do
      let (right, ⟨rest, shorter⟩) ← readProduct tail
      let (sum, ⟨rest, fewer⟩) ← readTerms (.binary operator left right) rest
      .ok (sum, ⟨rest, by simp only [List.length_cons]; omega⟩)
termination_by (tokens.length, 0)
decreasing_by all_goals simp_wf; omega

def readProduct (tokens : List Token) : Except Fault (Formula × Rest tokens) := do
  let (left, ⟨rest, shorter⟩) ← readFactor tokens
  let (product, ⟨rest, fewer⟩) ← readFactors left rest
  .ok (product, ⟨rest, Nat.lt_of_le_of_lt fewer shorter⟩)
termination_by (tokens.length, 1)

/-- Multiplies a product by the factors that follow it, or divides it by them. -/
def readFactors (left : Formula) (tokens : List Token) :
    Except Fault (Formula × Remainder tokens) :=
  match tokens with
  | [] => .ok (left, ⟨[], Nat.le_refl _⟩)
  | token :: tail =>
    match token.multiplicative? with
    | none => .ok (left, ⟨token :: tail, Nat.le_refl _⟩)
    | some operator => do
      let (right, ⟨rest, shorter⟩) ← readFactor tail
      let (product, ⟨rest, fewer⟩) ← readFactors (.binary operator left right) rest
      .ok (product, ⟨rest, by simp only [List.length_cons]; omega⟩)
termination_by (tokens.length, 0)
decreasing_by all_goals simp_wf; omega

def readFactor (tokens : List Token) : Except Fault (Formula × Rest tokens) :=
  match tokens with
  | [] => .error .formulaEnded
  | .sign .minus :: tail => do
    let (operand, ⟨rest, shorter⟩) ← readFactor tail
    .ok (.negate operand, ⟨rest, Nat.lt_succ_of_lt shorter⟩)
  | .sign .plus :: tail => do
    let (operand, ⟨rest, shorter⟩) ← readFactor tail
    .ok (operand, ⟨rest, Nat.lt_succ_of_lt shorter⟩)
  | .sign .opening :: tail => do
    match ← readSum tail with
    | (_, ⟨[], _⟩) => .error .formulaEnded
    | (inner, ⟨token :: rest, shorter⟩) =>
      if token = .sign .closing then
        .ok (inner, ⟨rest, by simp only [List.length_cons] at shorter ⊢; omega⟩)
      else .error .unclosedParenthesis
  | .points :: rest => .ok (.points, ⟨rest, Nat.lt_succ_self _⟩)
  | .number digits :: rest => do
    let n ← numberOfDigits digits
    .ok (.number n, ⟨rest, Nat.lt_succ_self _⟩)
  | token :: _ => .error (.unexpectedToken token.text)
termination_by (tokens.length, 0)
decreasing_by all_goals simp_wf; omega

end

/-- The formula that all the tokens make up. -/
def ofTokens (tokens : List Token) : Except Fault Formula := do
  match ← readSum tokens with
  | (formula, ⟨[], _⟩) => .ok formula
  | (_, ⟨token :: _, _⟩) => .error (.unexpectedToken token.text)

def ofChars (text : List Char) : Except Fault Formula := do
  let tokens ← Token.ofChars text
  ofTokens tokens

/-- The faults of a text that is no formula. -/
def isIllFormed : Fault → Bool
  | .unreadable _ _ | .unexpectedToken _ | .formulaEnded | .unclosedParenthesis => true
  | _ => false

/-- Reads a formula; a text that is missing, blank or ill-formed is none. -/
def compile : Option String → Except Fault (Option Formula)
  | none => .ok none
  | some text =>
    if (Text.trim text.toList).isEmpty then .ok none
    else
      match ofChars text.toList with
      | .ok formula => .ok (some formula)
      | .error fault => if isIllFormed fault then .ok none else .error fault

/-- The value of a formula for the given points, if it can be read and divides by no zero. -/
def evaluate (text : Option String) (points : Int) : Except Fault (Option Int) := do
  match ← compile text with
  | some formula => formula.definedValue points
  | none => .ok none

end Aventuria.Formula
