import Aventuria.CommandLine.Arguments
import Aventuria.CommandLine.Entry
import Aventuria.Settings
import Aventuria.Text.Integer

/-!
Requests: what a command line asks for. The flags of the session come first, then the command
with its own flags and operands. A command line that asks for nothing sensible is no request.
-/

set_option autoImplicit false
set_option relaxedAutoImplicit false

namespace Aventuria.CommandLine

inductive Command where
  | roll (text : String) (times : Entry Int)
  | formula (text : String) (points : Entry Int)
  | harvest (text : String) (points : Option (Entry Int)) (rolling : Bool)
  | expiry (shelfLife : String)
  | check (rating : Int) (difficulty : Entry Int) (attributes : List Int) (exchange : Entry Int)
      (rolls : Option (List Int)) (pointsName : Entry String)
  | cost (formula : String) (points base : Entry Int) (failed : Bool)
  | help
  deriving DecidableEq, Repr

/-- Commands with dice; whether any are thrown depends on what is asked for. -/
def Command.hasDice : Command → Bool
  | roll .. | harvest .. | expiry .. | check .. => true
  | formula .. | cost .. | help => false

/-- A command and the entries that hold for the session. -/
structure Request where
  seed : Option (Entry Int)
  date : Entry String
  tradition : Entry Spell.Tradition
  traits : Entry Int
  verbose : Bool
  command : Command
  deriving DecidableEq, Repr

def helpFlag : Flag := ⟨["-h", "--help"], 0⟩

def integer? (text : String) : Option Int :=
  Text.integer? text.toList

/-- The values given to a flag, one list for each of its uses; all of them must be readable. -/
def Assignment.readings? {α : Type} (assignment : Assignment) (read? : String → Option α)
    (name : String) : Option (List (List α)) :=
  (assignment.valuesOf name).mapM fun values ↦ values.mapM read?

/-- What the last use of a flag enters. -/
def Assignment.entry? {α : Type} (assignment : Assignment) (read? : String → Option α)
    (name : String) : Option (Option (Entry α)) :=
  (assignment.readings? read? name).map fun readings ↦ readings.getLast?.map .ofList

/-- What an operand enters that is an integer. -/
def integerEntry? (values : List String) : Option (Entry Int) :=
  (values.mapM integer?).map .ofList

namespace Command

def rollForm : List Flag := [helpFlag, ⟨["--times"], 1⟩]

def readRoll? (assignment : Assignment) : Option Command :=
  match assignment.operands with
  | [[text]] => do
    let times ← assignment.entry? integer? "--times"
    some (roll text (times.getD (.value 1)))
  | _ => none

def formulaForm : List Flag := [helpFlag]

def readFormula? (assignment : Assignment) : Option Command :=
  match assignment.operands with
  | [[text], points] => do
    let points ← integerEntry? points
    some (formula text points)
  | _ => none

def harvestForm : List Flag := [helpFlag, ⟨["--points"], 1⟩, ⟨["--roll"], 0⟩]

def readHarvest? (assignment : Assignment) : Option Command :=
  match assignment.operands with
  | [[text]] => do
    let points ← assignment.entry? integer? "--points"
    some (harvest text points (assignment.has "--roll"))
  | _ => none

def expiryForm : List Flag := [helpFlag]

def readExpiry? (assignment : Assignment) : Option Command :=
  match assignment.operands with
  | [[text]] => some (expiry text)
  | _ => none

def checkForm : List Flag :=
  [helpFlag, ⟨["--exchange"], 1⟩, ⟨["--rolls"], 3⟩, ⟨["--points-name"], 1⟩]

def readCheck? (assignment : Assignment) : Option Command :=
  match assignment.operands with
  | [[rating], difficulty, attributes] => do
    let rating ← integer? rating
    let difficulty ← integerEntry? difficulty
    let attributes ← attributes.mapM integer?
    let exchange ← assignment.entry? integer? "--exchange"
    let rolls ← assignment.readings? integer? "--rolls"
    let name ← assignment.entry? some "--points-name"
    some (check rating difficulty attributes (exchange.getD (.value 0)) rolls.getLast?
      (name.getD (.value "ZfP*")))
  | _ => none

def costForm : List Flag := [helpFlag, ⟨["--base"], 1⟩, ⟨["--failed"], 0⟩]

def readCost? (assignment : Assignment) : Option Command :=
  match assignment.operands with
  | [[text], points] => do
    let points ← integerEntry? points
    let base ← assignment.entry? integer? "--base"
    some (cost text points (base.getD (.value 0)) (assignment.has "--failed"))
  | _ => none

/-- A command that is given by its flags and operands. -/
def read? (flags : List Flag) (sizes : List Nat) (build? : Assignment → Option Command)
    (args : List String) : Option Command := do
  let arguments ← readArguments? flags args
  let assignment ← assign? flags sizes arguments
  if assignment.has "--help" then some help else build? assignment

/-- The command that is named first, with the arguments behind its name. -/
def ofArguments? : List String → Option Command
  | "roll" :: args => read? rollForm [1] readRoll? args
  | "formula" :: args => read? formulaForm [1, 1] readFormula? args
  | "harvest" :: args => read? harvestForm [1] readHarvest? args
  | "expiry" :: args => read? expiryForm [1] readExpiry? args
  | "check" :: args => read? checkForm [1, 1, 3] readCheck? args
  | "cost" :: args => read? costForm [1, 1] readCost? args
  | _ => none

end Command

def sessionForm : List Flag :=
  [helpFlag, ⟨["--seed"], 1⟩, ⟨["--date"], 1⟩, ⟨["--tradition"], 1⟩, ⟨["--traits"], 1⟩,
    ⟨["-v", "--verbose"], 0⟩]

/-- A number of traits that a caster can have. -/
def traits? (text : String) : Option Int :=
  (integer? text).filter fun n ↦ 0 ≤ n && n ≤ Spell.mostTraits

def Request.read? (session : Assignment) (args : List String) : Option Request := do
  let seed ← session.entry? integer? "--seed"
  let date ← session.entry? some "--date"
  let tradition ← session.entry? Spell.Tradition.ofName? "--tradition"
  let traits ← session.entry? traits? "--traits"
  let command ← if session.has "--help" then some .help else Command.ofArguments? args
  some
    { seed
      date := date.getD (.value Settings.defaultDate)
      tradition := tradition.getD (.value .guild)
      traits := traits.getD (.value 0)
      verbose := session.has "--verbose"
      command }

def Request.ofArguments? (args : List String) : Option Request := do
  let arguments ← readArguments? sessionForm args
  let (uses, rest) ← assignCommand? sessionForm arguments
  Request.read? ⟨uses, []⟩ rest

end Aventuria.CommandLine
