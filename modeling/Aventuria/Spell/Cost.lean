import Aventuria.Formula.Reader

/-!
What a casting costs in astral points: a flat cost and the value of a formula over the points
left over from the check. Traits lower the price of a success, the tradition decides the share
that a failure costs.
-/

set_option autoImplicit false
set_option relaxedAutoImplicit false

namespace Aventuria.Spell

inductive Tradition where
  | guild | witch
  deriving DecidableEq, Repr

namespace Tradition

def all : List Tradition := [guild, witch]

def name : Tradition → String
  | guild => "guild"
  | witch => "witch"

def ofName? (name : String) : Option Tradition :=
  all.find? fun tradition ↦ tradition.name == name

def ofName (name : String) : Except Fault Tradition :=
  match ofName? name with
  | some tradition => .ok tradition
  | none => .error (.unknownTradition name)

/-- What a failed casting costs: half the price, rounded up, for the guild, and a third of it,
rounded to the nearest number, for the witch. -/
def failureShare (raw : Int) : Tradition → Int
  | guild => (raw + 1) / 2
  | witch => (raw + 1) / 3

end Tradition

def validateBase (base : Int) : Except Fault Unit :=
  if base < 0 then .error (.negativeBaseCost base) else .ok ()

def mostTraits : Int := 2

def validateTraits (traits : Int) : Except Fault Unit :=
  if 0 ≤ traits ∧ traits ≤ mostTraits then .ok () else .error (.traitsOutOfRange traits)

/-- The price before traits and failure. A formula that is missing or unusable counts as zero,
and negative points count as none. -/
def rawCost (formula : Option String) (points base : Int) : Except Fault Int := do
  let value ← Formula.evaluate formula (max 0 points)
  .ok (max 0 (base + value.getD 0))

def successCost (raw traits : Int) : Int :=
  if raw = 0 then 0 else max 1 (raw - traits)

def cost (formula : Option String) (points : Int) (success : Bool) (base : Int)
    (tradition : Tradition) (traits : Int) : Except Fault Int := do
  validateBase base
  validateTraits traits
  if success then
    if points < 0 then .error (.successWithoutPoints points)
    else do
      let raw ← rawCost formula points base
      .ok (successCost raw traits)
  else do
    let raw ← rawCost formula points base
    .ok (tradition.failureShare raw)

end Aventuria.Spell
