import Aventuria.Dice.Throw

/-!
Regeneration over night. Life energy comes back by a die, the quality of the rest and a personal
bonus, and astral energy likewise, or by a fixed amount for a master; a successful attribute roll
adds one point to either. Karma comes back by one point. Without the point of the attribute roll
no gain falls below zero.
-/

set_option autoImplicit false
set_option relaxedAutoImplicit false

namespace Aventuria.Regeneration

open Dice (Throw)

/-- The rest modifier within its bounds, from a cold night to a good bed. -/
def clampRest (modifier : Int) : Int :=
  max (-6) (min 2 modifier)

/-- What a master regains: a third of the better attribute, rounded, and three. -/
def masteryGain (cleverness intuition : Int) : Int :=
  (max cleverness intuition + 1) / 3 + 3

structure Gain where
  amount : Int
  details : List String
  deriving DecidableEq, Repr

namespace Gain

def nothing : Gain := ⟨0, []⟩

def describe? (name : String) (gain : Gain) : Option String :=
  if gain.details.isEmpty then none
  else
    let details := ", ".intercalate gain.details
    some s!"{name} +{gain.amount} ({details})"

end Gain

structure Night where
  life : Gain
  astral : Gain
  karma : Gain
  deriving DecidableEq, Repr

namespace Night

def idle : Night := ⟨.nothing, .nothing, .nothing⟩

def describe (night : Night) : String :=
  let parts :=
    [night.life.describe? "LE", night.astral.describe? "AE", night.karma.describe? "KE"].filterMap
      id
  if parts.isEmpty then "Keine Regeneration" else ", ".intercalate parts

end Night

/-- The character as far as the night is concerned. -/
structure Sleeper where
  constitution : Int
  intuition : Int
  cleverness : Int
  lifeBonus : Int
  astralBonus : Int
  hasAstral : Bool
  isMaster : Bool
  hasKarma : Bool
  deriving DecidableEq, Repr

/-- A part of a gain that is mentioned only when there is any. -/
def mention (label : String) (n : Int) : List String :=
  if n = 0 then [] else [s!"{label}={n}"]

/-- Whether a roll stays within an attribute, as a point and as a remark. -/
def attributePoint (name : String) (roll ability : Int) : Int × String :=
  if roll ≤ ability then (1, s!"{name}-Probe: {roll}≤{ability} ✓")
  else (0, s!"{name}-Probe: {roll}>{ability} ✗")

/-- A gain of a base amount and a bonus, with the point of the attribute roll on top. -/
def gain (base : Int) (details : List String) (bonus : Int) (point : Int × String) : Gain :=
  { amount := max 0 (base + bonus) + point.1
    details := details ++ mention "Bonus" bonus ++ [point.2] }

/-- The details of an amount that comes from a die and the rest modifier. -/
def dieDetails (die rest : Int) : List String :=
  s!"W6={die}" :: mention "Mod" rest

def lifeGain (sleeper : Sleeper) (rest : Int) : Throw Gain := do
  let die ← Throw.die 6
  let roll ← Throw.die 20
  let point := attributePoint "KO" roll sleeper.constitution
  pure (gain (die + rest) (dieDetails die rest) sleeper.lifeBonus point)

/-- What an astral gain is based on: the fixed amount of a master, or a die. -/
def astralBase (sleeper : Sleeper) (rest : Int) : Throw (Int × List String) :=
  if sleeper.isMaster then
    let fixed := masteryGain sleeper.cleverness sleeper.intuition
    pure (fixed, [s!"Meisterlich={fixed}"])
  else do
    let die ← Throw.die 6
    pure (die + rest, dieDetails die rest)

def astralGain (sleeper : Sleeper) (rest : Int) : Throw Gain :=
  if sleeper.hasAstral then do
    let (base, details) ← astralBase sleeper rest
    let roll ← Throw.die 20
    let point := attributePoint "IN" roll sleeper.intuition
    pure (gain base details sleeper.astralBonus point)
  else pure .nothing

def karmaGain (sleeper : Sleeper) : Gain :=
  if sleeper.hasKarma then ⟨1, ["Fix=1"]⟩ else .nothing

/-- A night's rest. -/
def sleep (sleeper : Sleeper) (modifier : Int) : Throw Night := do
  let rest := clampRest modifier
  let life ← lifeGain sleeper rest
  let astral ← astralGain sleeper rest
  pure ⟨life, astral, karmaGain sleeper⟩

end Aventuria.Regeneration
