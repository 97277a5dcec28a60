import Aventuria.Check
import Aventuria.CommandLine.EmptyPoints
import Aventuria.CommandLine.Request
import Aventuria.Duration.ShelfLife

/-!
Running a request. The report holds the printed lines and the exit code: 0 when all went well, 1
when the rules refuse what was asked for, and 2 when the request itself makes no sense. Where the
dice run out, or something is done with an empty entry, there is no report.
-/

set_option autoImplicit false
set_option relaxedAutoImplicit false

namespace Aventuria.CommandLine

open Calendar (Moment)
open Dice (Throw)

structure Report where
  exitCode : Nat
  lines : List String
  deriving DecidableEq, Repr

namespace Report

def done (lines : List String) : Report := ⟨0, lines⟩

def refusal (message : String) : Report := ⟨1, ["Error: " ++ message]⟩

/-- The report on a command line that is no request. -/
def misuse : Report := ⟨2, []⟩

/-- The report on settings that are not acceptable. -/
def badSettings (fault : Fault) : Report := ⟨2, ["Error: " ++ fault.message]⟩

def output (report : Report) : String :=
  String.join (report.lines.map (· ++ "\n"))

end Report

/-- The faults that no rule foresees: values of sorts that do not fit together, and dice that run
out. -/
def endsRun : Fault → Bool
  | .diceExhausted | .incomparable .. | .inoperable .. | .notNegatable .. | .notJoinable ..
  | .notRepeatable .. | .notCountable .. | .tooManyRepetitions | .emptySeed => true
  | _ => false

/-- Reports a fault as a refusal, unless it ends the run. -/
def reportFault (procedure : Throw Report) : Throw Report :=
  tryCatch procedure fun fault ↦
    if endsRun fault then throw fault else pure (.refusal fault.message)

/-- The descriptions of so many rolls. -/
def rollLines (spec : Dice.Spec) : Nat → Throw (List String)
  | 0 => pure []
  | times + 1 => do
    let roll ← spec.roll "command line"
    let lines ← rollLines spec times
    pure (roll.describe :: lines)

def runRoll (text : String) (times : Entry Int) : Throw Report := do
  let times ← Throw.ofExcept (times.require (.notCountable .empty))
  if times ≤ 0 then pure (.done [])
  else
    match Dice.Spec.ofText text with
    | .ok spec => do
      let lines ← rollLines spec times.toNat
      pure (.done lines)
    | .error fault => pure (.refusal fault.message)

def invalidFormula (text : String) : Report :=
  .refusal ("invalid formula " ++ Text.quoted text)

def runFormula (text : String) : Entry Int → Except Fault Report
  | .value points => do
    match ← Formula.evaluate text points with
    | some value => .ok (.done [toString value])
    | none => .ok (invalidFormula text)
  | .empty => do
    match (← Formula.compile text).map Formula.valueWithoutPoints with
    | some (.ok entry) => .ok (.done [entry.describe])
    | some (.error .divisionByZero) | none => .ok (invalidFormula text)
    | some (.error fault) => .error fault

/-- The remark on the dice of an item and their values. -/
def diceRemark (item : Harvest.Item) : String :=
  match item.diceLabel with
  | none => ""
  | some label =>
    let values := ", ".intercalate (item.individualRolls.map toString)
    if item.individualRolls.isEmpty then s!" ({label})" else s!" ({label}: {values})"

def thresholdRemark (item : Harvest.Item) : String :=
  match item.threshold with
  | none => ""
  | some threshold => s!" [{threshold.describe}]"

def itemLine (item : Harvest.Item) : String :=
  item.describe ++ diceRemark item ++ thresholdRemark item

def harvestReport (items : List Harvest.Item) : Report :=
  .done (if items.isEmpty then ["Nothing to harvest"] else items.map itemLine)

def runHarvest (text : String) (points : Option (Entry Int)) (rolling : Bool) : Throw Report := do
  let items ←
    match points with
    | some .empty => Harvest.readWithoutPoints rolling (Harvest.segments text.toList)
    | some (.value points) => Harvest.read rolling points text
    | none => Harvest.read rolling none text
  pure (harvestReport items)

/-- The line that names a moment of expiry. -/
def expiryLine (moment : Moment) : String :=
  let line := moment.describe
  if line = Duration.unlimitedDate then line ++ " haltbar" else line

def runExpiry (settings : Settings) (shelfLife : String) : Throw Report := do
  let moment ← Duration.expiry (.text settings.currentDate) shelfLife
  pure (.done [expiryLine moment])

def runCheck (rating : Int) (difficulty : Entry Int) (attributes : List Int)
    (exchange : Entry Int) (rolls : Option (List Int)) (pointsName : Entry String) :
    Throw Report := do
  Throw.ofExcept (Check.validateAttributes attributes)
  let exchange ← Throw.ofExcept (exchange.require (.incomparable "<" .empty .number))
  let outcome ← Check.resolve rating (difficulty.toOption.getD 0) attributes exchange rolls
  let _ ← Throw.ofExcept (difficulty.require (.inoperable "-" .number .empty))
  pure (.done [outcome.describe pointsName.describe])

/-- What a casting costs, each entry looked at in its turn. -/
def castingCost (settings : Settings) (traits : Entry Int) (formula : String)
    (points base : Entry Int) (failed : Bool) : Except Fault Int := do
  let base ← base.require (.incomparable "<" .empty .number)
  Spell.validateBase base
  let traits ← traits.require (.incomparable "<=" .number .empty)
  let points ← points.require (.incomparable (if failed then ">" else "<") .empty .number)
  Spell.cost formula points (!failed) base settings.tradition traits

def runCost (settings : Settings) (traits : Entry Int) (formula : String)
    (points base : Entry Int) (failed : Bool) : Throw Report := do
  let cost ← Throw.ofExcept (castingCost settings traits formula points base failed)
  pure (.done [s!"{cost} AsP"])

def Command.run (settings : Settings) (traits : Entry Int) : Command → Throw Report
  | roll text times => runRoll text times
  | formula text points => Throw.ofExcept (runFormula text points)
  | harvest text points rolling => runHarvest text points rolling
  | expiry shelfLife => runExpiry settings shelfLife
  | check rating difficulty attributes exchange rolls pointsName =>
    reportFault (runCheck rating difficulty attributes exchange rolls pointsName)
  | cost text points base failed => reportFault (runCost settings traits text points base failed)
  | help => pure (.done [])

/-- The settings of the session. The tradition is judged before the date. -/
def Request.settings (request : Request) : Except Fault Settings := do
  let tradition ← request.tradition.require .emptyTradition
  let date ← request.date.require .emptyCurrentDate
  Settings.build (request.seed.bind Entry.toOption) date tradition.name
    (request.traits.toOption.getD 0) request.verbose

/-- A command with dice wants a seed that is none or a number, even where no die is thrown. -/
def Request.validateSeed (request : Request) : Except Fault Unit :=
  if request.seed = some .empty ∧ request.command.hasDice then .error .emptySeed else .ok ()

def Request.run (request : Request) : Throw Report :=
  if request.command = .help then pure (.done [])
  else
    match request.settings with
    | .ok settings => do
      Throw.ofExcept request.validateSeed
      request.command.run settings request.traits
    | .error fault => pure (.badSettings fault)

/-- Runs a whole command line. -/
def run (args : List String) : Throw Report :=
  match Request.ofArguments? args with
  | some request => request.run
  | none => pure .misuse

end Aventuria.CommandLine
