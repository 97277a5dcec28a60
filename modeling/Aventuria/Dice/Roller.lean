import Aventuria.Dice.Roll

/-!
Rollers. A roller has a table of its own and keeps a log of its rolls. It either was given a
source of values or draws from a seed of its own, and only in the second case a new seed matters.
A step that fails adds nothing to the log.
-/

set_option autoImplicit false
set_option relaxedAutoImplicit false

namespace Aventuria.Dice

structure Roller where
  table : Table
  ownSeed : Bool
  log : Array Roll

namespace Roller

def ofSource (source : Source) : Roller :=
  ⟨Table.fresh source, false, #[]⟩

def ofSeed (seed : Int) : Roller :=
  ⟨Table.fresh (Source.seeded seed), true, #[]⟩

inductive Step where
  | roll (text reason : String)
  | d20 (reason : String)
  | d6 (count : Int) (reason : String)
  | between (low high : Int) (reason : String)
  | sample (sides : Int)
  | reseed (seed : Int)
  | readLog
  | emptyLogCopy
  | clearLog
  deriving DecidableEq, Repr

inductive Answer where
  | rolled (roll : Roll)
  | number (value : Int)
  | logged (rolls : List Roll)
  | nothing
  deriving DecidableEq, Repr

/-- The roll of a number between two bounds, made with one die that has as many faces as there
are numbers. -/
def rollBetween (low high : Int) (reason : String) : Throw Roll := do
  let value ← Throw.die (high - low + 1)
  pure { label := s!"range({low}-{high})", values := [low - 1 + value], modifier := 0, reason }

def rollText (text reason : String) : Throw Roll := do
  let spec ← Throw.ofExcept (Spec.ofText text)
  spec.roll reason

/-- Makes a roll at the roller's table and logs it when it succeeds. -/
def logRoll (roller : Roller) (roll : Throw Roll) : Except Fault Roll × Roller :=
  match roll.onTable roller.table with
  | (.ok result, table) => (.ok result, { roller with table, log := roller.log.push result })
  | (.error fault, table) => (.error fault, { roller with table })

def reseeded (roller : Roller) (seed : Int) : Roller :=
  if roller.ownSeed then { roller with table := Table.fresh (Source.seeded seed) } else roller

def take (roller : Roller) : Step → Except Fault Answer × Roller
  | .roll text reason =>
    let (result, roller) := roller.logRoll (rollText text reason)
    (result.map .rolled, roller)
  | .d20 reason =>
    let (result, roller) := roller.logRoll (rollText "1W20" reason)
    (result.map .rolled, roller)
  | .d6 count reason =>
    let (result, roller) := roller.logRoll (rollText s!"{count}W6" reason)
    (result.map .rolled, roller)
  | .between low high reason =>
    let (result, roller) := roller.logRoll (rollBetween low high reason)
    (result.map fun roll ↦ .number roll.total, roller)
  | .sample sides =>
    let (result, table) := (Throw.die sides).onTable roller.table
    (result.map .number, { roller with table })
  | .reseed seed => (.ok .nothing, roller.reseeded seed)
  | .readLog => (.ok (.logged roller.log.toList), roller)
  | .emptyLogCopy => (.ok .nothing, roller)
  | .clearLog => (.ok .nothing, { roller with log := #[] })

def takeAll (roller : Roller) : List Step → List (Except Fault Answer) × Roller
  | [] => ([], roller)
  | step :: steps =>
    let (answer, roller) := roller.take step
    let (answers, roller) := roller.takeAll steps
    (answer :: answers, roller)

end Roller

/-- Rollers side by side, each addressed by its place. -/
abbrev Rollers := List Roller

namespace Rollers

/-- A step of one of the rollers; there is no answer where there is no roller. -/
def take (rollers : Rollers) (place : Nat) (step : Roller.Step) :
    Option (Except Fault Roller.Answer) × Rollers :=
  match rollers[place]? with
  | some roller =>
    let (answer, roller) := roller.take step
    (some answer, rollers.set place roller)
  | none => (none, rollers)

/-- Steps of several rollers in any order. -/
def takeAll (rollers : Rollers) :
    List (Nat × Roller.Step) → List (Option (Except Fault Roller.Answer)) × Rollers
  | [] => ([], rollers)
  | (place, step) :: steps =>
    let (answer, rollers) := rollers.take place step
    let (answers, rollers) := takeAll rollers steps
    (answer :: answers, rollers)

end Rollers

end Aventuria.Dice
