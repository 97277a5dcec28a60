import Aventuria.Fault

/-!
The qualities of potions: A is the weakest and F the strongest, M is a failed brew and X a potion
diluted to nothing.
-/

set_option autoImplicit false
set_option relaxedAutoImplicit false

namespace Aventuria.Alchemy

inductive Quality where
  | a | b | c | d | e | f | m | x
  deriving DecidableEq, Repr

namespace Quality

def all : List Quality := [a, b, c, d, e, f, m, x]

def letter : Quality → String
  | a => "A"
  | b => "B"
  | c => "C"
  | d => "D"
  | e => "E"
  | f => "F"
  | m => "M"
  | x => "X"

def ofLetter? (letter : String) : Option Quality :=
  all.find? fun quality ↦ quality.letter == letter

/-- The quality of a brew that did not fail. -/
def ofPoints (points : Int) : Quality :=
  if points ≤ 6 then a
  else if points ≤ 12 then b
  else if points ≤ 18 then c
  else if points ≤ 24 then d
  else if points ≤ 30 then e
  else f

/-- The place of a quality on the ladder from A to F; M and X have none. -/
def tier? : Quality → Option Int
  | a => some 0
  | b => some 1
  | c => some 2
  | d => some 3
  | e => some 4
  | f => some 5
  | m => none
  | x => none

/-- The quality at a place of the ladder. Below the ladder lies X, and there is nothing above. -/
def ofTier (tier : Int) : Except Fault Quality :=
  if tier < 0 then .ok x
  else if tier = 0 then .ok a
  else if tier = 1 then .ok b
  else if tier = 2 then .ok c
  else if tier = 3 then .ok d
  else if tier = 4 then .ok e
  else if tier = 5 then .ok f
  else .error .qualityOutOfRange

/-- The quality so many steps down the ladder. -/
def diluted (quality : Quality) (steps : Int) : Except Fault Quality :=
  match quality.tier? with
  | some tier => ofTier (tier - steps)
  | none => .ok quality

end Quality

end Aventuria.Alchemy
