import Aventuria.Alchemy.Quality
import Aventuria.Check
import Aventuria.Dice.Roll
import Aventuria.Rounding
import Aventuria.Text.Integer

/-!
Brewing potions. The brewer may take on a voluntary handicap, spend astral points on mastery of
the check, and charge the brew with astral points. A successful brew collects quality points,
which decide its quality.
-/

set_option autoImplicit false
set_option relaxedAutoImplicit false

namespace Aventuria.Alchemy

open Dice (Throw)

inductive Substitution where
  | optimizing | equivalent | sensible | possible
  deriving DecidableEq, Repr

namespace Substitution

def all : List Substitution := [optimizing, equivalent, sensible, possible]

def key : Substitution → String
  | optimizing => "OPTIMIZING"
  | equivalent => "EQUIVALENT"
  | sensible => "SENSIBLE"
  | possible => "POSSIBLE"

def name : Substitution → String
  | optimizing => "Optimierende Substitution"
  | equivalent => "Gleichwertige Substitution"
  | sensible => "Sinnvolle Substitution"
  | possible => "Mögliche Substitution"

def modifier : Substitution → Int
  | optimizing => -3
  | equivalent => 0
  | sensible => 3
  | possible => 6

def ofKey? (key : String) : Option Substitution :=
  all.find? fun substitution ↦ substitution.key == key

end Substitution

/-- The highest voluntary handicap: half as much again as the difficulty of the recipe. -/
def mostHandicap (difficulty : Int) : Except Fault Int :=
  Rounding.oneAndAHalf difficulty

/-- The astral points for charging a brew with quality points; each point doubles the price. -/
def chargingCost (points : Int) : Int :=
  if points ≤ 0 then 0 else Nat.pow 2 (points - 1).toNat

theorem lt_chargingCost (n : Nat) : (n : Int) < chargingCost (n + 1) := by
  have h : ¬(n : Int) + 1 ≤ 0 := by omega
  have h' : ((n : Int) + 1 - 1).toNat = n := by omega
  simp only [chargingCost, h, if_false, h']
  exact Int.ofNat_lt.mpr Nat.lt_two_pow_self

/-- The number of quality points, at least as many as were reached, that the available astral
points can charge. -/
def searchCharge (available : Int) (reached : Nat) : Nat :=
  if h : chargingCost (reached + 1) ≤ available then searchCharge available (reached + 1)
  else reached
termination_by available.toNat - reached
decreasing_by
  have := lt_chargingCost reached
  omega

/-- The most quality points that the available astral points can charge. -/
def mostCharge (available : Int) : Nat :=
  searchCharge available 0

structure Recipe where
  difficulty : Int
  substitutions : List Substitution
  labModifier : Int
  deriving DecidableEq, Repr

/-- All that makes the check of a brew harder. -/
def Recipe.modifier (recipe : Recipe) (handicap : Int) : Int :=
  recipe.labModifier + recipe.difficulty + handicap +
    sum (recipe.substitutions.map Substitution.modifier)

/-- The risks and efforts that a brewer takes upon himself. -/
structure Effort where
  handicap : Int
  mastery : Int
  charging : Int
  available : Option Int
  deriving DecidableEq, Repr

def Effort.astralCost (effort : Effort) : Int :=
  effort.mastery + chargingCost effort.charging

def validateHandicap (most handicap : Int) : Except Fault Unit :=
  if handicap ≠ 0 ∧ handicap < 2 then .error (.handicapTooSmall handicap)
  else if most < handicap then .error (.handicapTooLarge most handicap)
  else .ok ()

def validateMastery (most rating points : Int) : Except Fault Unit :=
  if points < 0 then .error (.negativeMastery points)
  else if most < points then .error (.masteryTooLarge most rating points)
  else .ok ()

def validateCharging (points : Int) : Except Fault Unit :=
  if points < 0 then .error (.negativeCharging points) else .ok ()

/-- Astral points that are not counted are always enough. -/
def validateAstral (need : Int) : Option Int → Except Fault Unit
  | some available =>
    if available < need then .error (.astralEnergyLacking need available) else .ok ()
  | none => .ok ()

/-- What is wrong with an effort, in the order in which it is judged. -/
def Effort.validate (effort : Effort) (rating difficulty : Int) : Except Fault Unit := do
  let most ← mostHandicap difficulty
  validateHandicap most effort.handicap
  validateMastery (rating / 2) rating effort.mastery
  validateCharging effort.charging
  validateAstral effort.astralCost effort.available

structure Brew where
  check : Check.Outcome
  qualityPoints : Int
  quality : Quality
  modifier : Int
  handicap : Int
  charging : Int
  qualityDice : List Int
  astralCost : Int
  deriving DecidableEq, Repr

namespace Brew

def success (brew : Brew) : Bool :=
  brew.check.success

def describeCharging (brew : Brew) : List String :=
  if brew.charging = 0 then []
  else [s!"Astrale Aufladung: +{brew.charging} QP ({brew.astralCost} AsP)"]

/-- How the quality points of a successful brew came about. -/
def describePoints (brew : Brew) : List String :=
  let dice := "+".intercalate (brew.qualityDice.map toString)
  s!"Freiwilliger Handicap: {brew.handicap} -> +{2 * brew.handicap} QP" ::
    brew.describeCharging ++
      [s!"2W6: {dice} = {sum brew.qualityDice}",
        s!"Gesamt: {brew.qualityPoints} Qualitätspunkte"]

def describe (brew : Brew) (revealQuality : Bool) : String :=
  let check := ["Brauprobe: " ++ brew.check.describe Check.talentPoints]
  let points := if brew.success then brew.describePoints else []
  let quality := if revealQuality then ["Qualität: " ++ brew.quality.letter] else []
  let modifier := ["Modifikator gesamt: " ++ Text.signed brew.modifier]
  "\n".intercalate (check ++ points ++ quality ++ modifier)

end Brew

def qualitySpec : Dice.Spec := .pair

/-- The quality points of a successful brew. -/
def qualityPoints (extraPoints : Int) (effort : Effort) (dice : Int) : Int :=
  extraPoints + 2 * effort.handicap + effort.charging + dice

/-- The brew that comes of a check. The quality dice are thrown only when the check succeeds. -/
def finish (modifier : Int) (effort : Effort) (check : Check.Outcome) : Throw Brew := do
  if check.success then
    let dice ← qualitySpec.roll "Brewing quality"
    let points := qualityPoints check.extraPoints effort dice.total
    pure
      { check, modifier
        qualityPoints := points
        quality := Quality.ofPoints points
        handicap := effort.handicap
        charging := effort.charging
        qualityDice := dice.values
        astralCost := effort.astralCost }
  else
    pure
      { check, modifier
        qualityPoints := 0
        quality := .m
        handicap := effort.handicap
        charging := effort.charging
        qualityDice := []
        astralCost := effort.astralCost }

def brew (rating : Int) (attributes : List Int) (recipe : Recipe) (effort : Effort)
    (givenRolls : Option (List Int)) : Throw Brew := do
  Throw.ofExcept (effort.validate rating recipe.difficulty)
  let modifier := recipe.modifier effort.handicap
  let check ← Check.resolve rating modifier attributes effort.mastery givenRolls
  finish modifier effort check

end Aventuria.Alchemy
