import Aventuria.Check
import Aventuria.Harvest.Merge
import Aventuria.Harvest.Segment
import Aventuria.Rounding

/-!
Searching for herbs. The rating comes from three talents and grows with the time spent; the
difficulty from the herb and the landscape, less what the searcher knows of either. A successful
search yields one portion and one more for every so many points left over.
-/

set_option autoImplicit false
set_option relaxedAutoImplicit false

namespace Aventuria.HerbSearch

open Dice (Throw)

structure Talents where
  senses : Int
  wilderness : Int
  herbLore : Int
  deriving DecidableEq, Repr

/-- The rounded average of the talents, at most twice the lowest of them. -/
def Talents.rating (talents : Talents) : Int :=
  min ((talents.senses + talents.wilderness + talents.herbLore + 1) / 3)
    (2 * min talents.senses (min talents.wilderness talents.herbLore))

/-- What makes a herb hard or easy to find for a searcher. -/
structure Terrain where
  identification : Int
  occurrence : Int
  terrainKnown : Bool
  placeKnown : Bool
  deriving DecidableEq, Repr

def Terrain.difficulty (terrain : Terrain) : Int :=
  terrain.identification + terrain.occurrence - (if terrain.terrainKnown then 3 else 0) -
    (if terrain.placeKnown then 7 else 0)

/-- The points that each portion after the first costs: half the difficulty, but at least one. -/
def portionCost (difficulty : Int) : Int :=
  max 1 (difficulty / 2)

def portionCount (points difficulty : Int) : Nat :=
  if points < 0 then 0 else (1 + points / portionCost difficulty).toNat

def searchTime (doubled : Bool) : String :=
  if doubled then "2 Stunden" else "1 Stunde"

/-- The rating of a search, half as much again when the time is doubled. -/
def searchRating (talents : Talents) (doubled : Bool) : Except Fault Int :=
  if doubled then Rounding.oneAndAHalf talents.rating else .ok talents.rating

structure Search where
  check : Check.Outcome
  rating : Int
  difficulty : Int
  portions : Nat
  time : String
  items : List Harvest.Item
  deriving DecidableEq, Repr

/-- Throws the dice for the given number of portions, one after the other. -/
def gatherPortions (points : Int) (description : String) : Nat → Throw (List (List Harvest.Item))
  | 0 => pure []
  | count + 1 => do
    let portion ← Harvest.gather (some points) description
    let portions ← gatherPortions points description count
    pure (portion :: portions)

def search (talents : Talents) (terrain : Terrain) (attributes : List Int) (doubled : Bool)
    (description : String) (givenRolls : Option (List Int)) : Throw Search := do
  let rating ← Throw.ofExcept (searchRating talents doubled)
  let difficulty := terrain.difficulty
  let check ← Check.resolve rating difficulty attributes 0 givenRolls
  let time := searchTime doubled
  if check.success then
    let count := portionCount check.extraPoints difficulty
    if description = "" then
      pure { check, rating, difficulty, portions := count, time, items := [] }
    else
      let portions ← gatherPortions check.extraPoints description count
      pure { check, rating, difficulty, portions := count, time, items := Harvest.merge portions }
  else pure { check, rating, difficulty, portions := 0, time, items := [] }

end Aventuria.HerbSearch
