import Aventuria.Alchemy.Brewing

/-!
Diluting potions. A dilution by a number of steps turns one potion into one more than that many,
each so many tiers weaker. The check is made in any case, but a spoiled potion stays spoiled, and
a failed check spoils the others. What comes out of a dilution may be diluted again.
-/

set_option autoImplicit false
set_option relaxedAutoImplicit false

namespace Aventuria.Alchemy

open Dice (Throw)

def mostSteps : Int := 10

structure Dilution where
  check : Check.Outcome
  undiluted : Quality
  quality : Quality
  steps : Int
  modifier : Int
  astralCost : Int
  deriving DecidableEq, Repr

namespace Dilution

def success (dilution : Dilution) : Bool :=
  dilution.check.success && dilution.undiluted ≠ .m

def potionCount (dilution : Dilution) : Int :=
  dilution.steps + 1

def describe (dilution : Dilution) (revealQuality : Bool) : String :=
  let check :=
    ["Verdünnungsprobe: " ++ dilution.check.describe Check.talentPoints,
      s!"Anzahl Tränke: {dilution.potionCount}"]
  let quality := if revealQuality then ["Neue Qualität: " ++ dilution.quality.letter] else []
  let modifier := ["Modifikator gesamt: " ++ Text.signed dilution.modifier]
  "\n".intercalate (check ++ quality ++ modifier)

end Dilution

def validateSteps (steps : Int) : Except Fault Unit :=
  if 1 ≤ steps ∧ steps ≤ mostSteps then .ok () else .error (.stepsOutOfRange steps)

/-- What is wrong with a dilution, in the order in which it is judged. -/
def validateDilution (steps rating mastery : Int) (available : Option Int) : Except Fault Unit := do
  validateSteps steps
  validateMastery (max 0 rating) rating mastery
  validateAstral mastery available

/-- The quality after a dilution whose check is known. -/
def dilutedQuality (quality : Quality) (steps : Int) (success : Bool) : Except Fault Quality :=
  if success then quality.diluted steps else .ok .m

def dilute (quality : Quality) (steps rating : Int) (attributes : List Int)
    (difficulty facilitation mastery : Int) (available : Option Int)
    (givenRolls : Option (List Int)) : Throw Dilution := do
  Throw.ofExcept (validateDilution steps rating mastery available)
  let modifier := difficulty - facilitation
  let check ← Check.resolve rating modifier attributes mastery givenRolls
  let diluted ← Throw.ofExcept (dilutedQuality quality steps check.success)
  pure
    { check, modifier, steps
      undiluted := quality
      quality := diluted
      astralCost := mastery }

/-- What a dilution is asked for, the quality of the potion apart. -/
structure Attempt where
  steps : Int
  rating : Int
  attributes : List Int
  difficulty : Int
  facilitation : Int
  mastery : Int
  available : Option Int
  givenRolls : Option (List Int)
  deriving DecidableEq, Repr

def Attempt.dilute (attempt : Attempt) (quality : Quality) : Throw Dilution :=
  Alchemy.dilute quality attempt.steps attempt.rating attempt.attributes attempt.difficulty
    attempt.facilitation attempt.mastery attempt.available attempt.givenRolls

/-- Dilutes a potion again and again, each time what the dilution before it has left. -/
def diluteAll (quality : Quality) : List Attempt → Throw (List Dilution)
  | [] => pure []
  | attempt :: attempts => do
    let dilution ← attempt.dilute quality
    let dilutions ← diluteAll dilution.quality attempts
    pure (dilution :: dilutions)

end Aventuria.Alchemy
