import Aventuria.CommandLine.Run
import Aventuria.Proofs.Dice.Notation
import Aventuria.Proofs.Harvest.Rolling
import Aventuria.Proofs.Spell.Payment
import Aventuria.Proofs.Text.OneLine

/-!
# What comes of a command

A command is either refused by the rules, with a message of one line, or answered
(`Command.Answer`). Each command whose entries are all there comes to one of the two, on every table
whose dice do not run out; a check also needs dice that show their faces.
-/

set_option autoImplicit false
set_option relaxedAutoImplicit false

namespace Aventuria.CommandLine

open Dice (Table Throw)
open Text (OneLine oneLine_append oneLine_ofList oneLine_quoted oneLine_quotedWithin
  oneLine_toString_int oneLine_toString_nat)

/-- What the rules refuse: to roll what is no dice expression, unless it is not to be rolled at all;
a formula that has no value; a check with a negative exchange or a given roll that is no face of the
die; and a casting with a negative base, or with negative points although it succeeded. -/
inductive Command.Refused : Command → Prop
  | notDice {text : String} {times : Int} (htext : Dice.Spec.ofText? text = none)
      (htimes : 1 ≤ times) : Refused (.roll text (.value times))
  | formula {text : String} {points : Int} (h : Formula.evaluate (some text) points = .ok none) :
      Refused (.formula text (.value points))
  | exchange {rating exchange : Int} {difficulty : Entry Int} {attributes : List Int}
      {rolls : Option (List Int)} {pointsName : Entry String} (h : exchange < 0) :
      Refused (.check rating difficulty attributes (.value exchange) rolls pointsName)
  | rolls {rating roll : Int} {difficulty exchange : Entry Int} {attributes rolls : List Int}
      {pointsName : Entry String} (hroll : roll ∈ rolls) (h : ¬ (1 ≤ roll ∧ roll ≤ 20)) :
      Refused (.check rating difficulty attributes exchange (some rolls) pointsName)
  | base {text : String} {points : Entry Int} {base : Int} {failed : Bool} (h : base < 0) :
      Refused (.cost text points (.value base) failed)
  | points {text : String} {points : Int} {base : Entry Int} (h : points < 0) :
      Refused (.cost text (.value points) base false)

/-! ### Messages -/

theorem oneLine_quotedOrNone (text : Option String) : OneLine (Fault.quotedOrNone text) := by
  cases text with
  | none => exact oneLine_ofList (by decide)
  | some text => exact oneLine_quoted text

theorem oneLine_monthName (month : Calendar.Month) : OneLine month.name := by
  cases month <;> exact oneLine_ofList (by decide)

/-- The message on a fault that a report shows is a single line, whatever values it names. -/
theorem oneLine_message {fault : Fault} (h : endsRun fault = false) : OneLine fault.message := by
  cases fault with
  | diceExhausted | incomparable | inoperable | notNegatable | notJoinable | notRepeatable
  | notCountable | tooManyRepetitions | emptySeed => cases h
  | formulaEnded | unclosedParenthesis | divisionByZero | emptyCurrentDate | emptyTradition
  | qualityOutOfRange | tooLargeToRound | roundedToInfinity =>
    exact oneLine_ofList (by decide)
  | notDice text | invalidCurrentDate text =>
    exact oneLine_append (oneLine_ofList (by decide)) (oneLine_quotedOrNone text)
  | unexpectedToken name | unknownStorage name | unknownSign name =>
    exact oneLine_append (oneLine_ofList (by decide)) (oneLine_quoted name)
  | unknownMonth name | unknownComparator name | unknownTradition name =>
    exact oneLine_append (oneLine_quoted name) (oneLine_ofList (by decide))
  | notANumber digits =>
    exact oneLine_append (oneLine_ofList (by decide)) (oneLine_quotedWithin _ digits)
  | tooFewDice n | tooManyDice n | dieTooSmall n | rollOutOfRange n | negativeExchange n
  | negativeBaseCost n | traitsOutOfRange n | savingOutOfRange n | handicapTooSmall n
  | negativeMastery n | negativeCharging n | stepsOutOfRange n =>
    exact oneLine_append (oneLine_ofList (by decide)) (oneLine_toString_int n)
  | attributeCount n | rollCount n =>
    exact oneLine_append (oneLine_ofList (by decide)) (oneLine_toString_nat n)
  | successWithoutPoints n =>
    exact oneLine_append (oneLine_append (oneLine_ofList (by decide)) (oneLine_toString_int n))
      (oneLine_ofList (by decide))
  | handicapTooLarge n m | astralEnergyLacking n m =>
    exact oneLine_append (oneLine_append (oneLine_append (oneLine_ofList (by decide))
      (oneLine_toString_int n)) (oneLine_ofList (by decide))) (oneLine_toString_int m)
  | masteryTooLarge n m k =>
    exact oneLine_append (oneLine_append (oneLine_append (oneLine_append (oneLine_append
      (oneLine_ofList (by decide)) (oneLine_toString_int n)) (oneLine_ofList (by decide)))
      (oneLine_toString_int m)) (oneLine_ofList (by decide))) (oneLine_toString_int k)
  | unreadable position rest =>
    exact oneLine_append (oneLine_append (oneLine_append (oneLine_ofList (by decide))
      (oneLine_toString_nat position)) (oneLine_ofList (by decide))) (oneLine_quoted rest)
  | invalidDay day month =>
    exact oneLine_append (oneLine_append (oneLine_append (oneLine_ofList (by decide))
      (oneLine_toString_int day)) (oneLine_ofList (by decide))) (oneLine_monthName month)

/-! ### Reports on a command -/

/-- What comes of a command: what was asked for, or one line that says why it is refused. -/
inductive Command.Answer (command : Command) : Report → Prop
  | done (lines : List String) (h : ¬ command.Refused) : Answer command (.done lines)
  | refusal {message : String} (hline : OneLine message) (h : command.Refused) :
      Answer command (.refusal message)

/-- A command comes to an answer on a table. -/
def Command.IsAnswered (settings : Settings) (traits : Entry Int) (command : Command)
    (table : Table) : Prop :=
  ∃ report left, (command.run settings traits).onTable table = (.ok report, left) ∧
    command.Answer report

section
variable {procedure : Throw Report} {table left : Table}

theorem reportFault_of_ok {report : Report} (h : procedure.onTable table = (.ok report, left)) :
    (reportFault procedure).onTable table = (.ok report, left) := by
  rw [reportFault, Throw.onTable_tryCatch, h]

theorem reportFault_of_error {fault : Fault} (h : procedure.onTable table = (.error fault, left))
    (hends : endsRun fault = false) :
    (reportFault procedure).onTable table = (.ok (.refusal fault.message), left) := by
  rw [reportFault, Throw.onTable_tryCatch, h]
  simp only [hends, Bool.false_eq_true, if_false, Throw.onTable_pure]

end

/-! ### Rolls -/

theorem endsRun_of_refuses {text : String} {fault : Fault} (h : Dice.Spec.Refuses text fault) :
    endsRun fault = false := by
  cases h <;> rfl

/-- So many rolls ask for their own dice. -/
theorem asks_rollLines (spec : Dice.Spec) (times : Nat) :
    Throw.Asks (rollLines spec times) (List.replicate times spec.sizes).flatten
      fun _ lines ↦ lines.length = times := by
  induction times with
  | zero =>
    refine (Throw.asks_pure ([] : List String)).mono ?_
    rintro values lines ⟨-, rfl⟩
    rfl
  | succ times ih =>
    refine ((spec.asks_roll "command line").bind
      fun roll ↦ ih.bind_pure (roll.describe :: ·)).mono ?_
    rintro _ lines ⟨shown, rest, roll, rfl, -, later, hlater, rfl⟩
    rw [List.length_cons, hlater]

theorem isAnswered_roll (settings : Settings) (traits : Entry Int) (text : String) (times : Int)
    {table : Table} (hendless : table.source.Endless) :
    (Command.roll text (.value times)).IsAnswered settings traits table := by
  rw [Command.IsAnswered, Command.run, runRoll, Entry.require, Throw.ofExcept, pure_bind]
  by_cases htimes : times ≤ 0
  · rw [if_pos htimes]
    refine ⟨_, table, Throw.onTable_pure table _, .done [] ?_⟩
    intro hrefused
    cases hrefused with
    | notDice _ hpos => exact absurd htimes (Int.not_le.mpr hpos)
  · rw [if_neg htimes]
    cases hread : Dice.Spec.ofText text with
    | ok spec =>
      obtain ⟨lines, left, hrun, -⟩ :=
        (asks_rollLines spec times.toNat).onTable_of_endless hendless
      refine ⟨.done lines, left, Throw.onTable_bind_eq_ok_iff.mpr ⟨_, _, hrun, rfl⟩, .done lines ?_⟩
      intro hrefused
      cases hrefused with
      | notDice hnone =>
        rw [Dice.Spec.ofText?_eq_some_iff.mpr hread] at hnone
        cases hnone
    | error fault =>
      have hends := endsRun_of_refuses (Dice.Spec.ofText_eq_error_iff.mp hread)
      exact ⟨_, table, Throw.onTable_pure table _, .refusal (oneLine_message hends)
        (.notDice (Dice.Spec.ofText?_eq_none_iff.mpr ⟨fault, hread⟩) (Int.not_le.mp htimes))⟩

/-! ### Formulas -/

theorem isAnswered_formula (settings : Settings) (traits : Entry Int) (text : String)
    (points : Int) (table : Table) :
    (Command.formula text (.value points)).IsAnswered settings traits table := by
  obtain ⟨value, hvalue⟩ := Formula.exists_evaluate_eq_ok (some text) points
  rw [Command.IsAnswered, Command.run, runFormula, hvalue, ok_bind]
  cases value with
  | some value =>
    refine ⟨_, table, Throw.onTable_ofExcept table _, .done [toString value] ?_⟩
    intro hrefused
    cases hrefused with
    | formula hnone =>
      rw [hvalue] at hnone
      cases hnone
  | none =>
    exact ⟨_, table, Throw.onTable_ofExcept table _,
      .refusal (oneLine_append (oneLine_ofList (by decide)) (oneLine_quoted text))
        (.formula hvalue)⟩

/-! ### Harvests -/

theorem not_refused_harvest (text : String) (points : Option (Entry Int)) (rolling : Bool) :
    ¬ (Command.harvest text points rolling).Refused :=
  nofun

theorem isAnswered_harvest (settings : Settings) (traits : Entry Int) (text : String)
    {points : Option (Entry Int)} (hpoints : points ≠ some .empty) (rolling : Bool)
    {table : Table} (hendless : table.source.Endless) :
    (Command.harvest text points rolling).IsAnswered settings traits table := by
  obtain ⟨known, hread⟩ : ∃ known, runHarvest text points rolling =
      Harvest.read rolling known text >>= fun items ↦ pure (harvestReport items) := by
    match points, hpoints with
    | none, _ => exact ⟨none, rfl⟩
    | some (.value points), _ => exact ⟨some points, rfl⟩
    | some .empty, hpoints => exact absurd rfl hpoints
  obtain ⟨items, left, hrun⟩ := Harvest.exists_onTable_read rolling known text hendless
  refine ⟨harvestReport items, left, ?_, .done _ (not_refused_harvest text points rolling)⟩
  rw [Command.run, hread]
  exact Throw.onTable_bind_eq_ok_iff.mpr ⟨_, _, hrun, rfl⟩

/-! ### Checks -/

section
variable {rating difficulty exchange : Int} {attributes : List Int}
  (hlength : attributes.length = 3)

include hlength

/-- A check with all its entries is made and described. -/
theorem runCheck_eq (rolls : Option (List Int)) (pointsName : Entry String) :
    runCheck rating (.value difficulty) attributes (.value exchange) rolls pointsName =
      Check.resolve rating difficulty attributes exchange rolls >>= fun outcome ↦
        pure (.done [outcome.describe pointsName.describe]) := by
  have hattributes : Check.validateAttributes attributes = .ok () :=
    if_neg (Decidable.not_not.mpr hlength)
  rw [runCheck, hattributes]
  rfl

theorem isAnswered_check (settings : Settings) (traits : Entry Int) {rolls : Option (List Int)}
    (hrolls : ∀ given, rolls = some given → given.length = 3) (pointsName : Entry String)
    {table : Table} (hendless : table.source.Endless) (hrange : table.source.InRange) :
    (Command.check rating (.value difficulty) attributes (.value exchange) rolls
      pointsName).IsAnswered settings traits table := by
  rw [Command.IsAnswered, Command.run, runCheck_eq hlength]
  by_cases hexchange : exchange < 0
  · exact ⟨_, table, reportFault_of_error (Throw.onTable_bind_of_error
        (Check.onTable_resolve_of_negative hlength hexchange rolls table) _) rfl,
      .refusal (oneLine_message rfl) (.exchange hexchange)⟩
  have hnonneg := Int.not_lt.mp hexchange
  by_cases hfaces : ∃ given, rolls = some given ∧ ∃ roll ∈ given, ¬ (1 ≤ roll ∧ roll ≤ 20)
  · obtain ⟨given, rfl, roll, hroll, hface⟩ := hfaces
    obtain ⟨first, hrun⟩ := Check.exists_onTable_resolve_of_rolls rating difficulty hlength hnonneg
      (hrolls given rfl) hroll hface table
    exact ⟨_, table, reportFault_of_error (Throw.onTable_bind_of_error hrun _) rfl,
      .refusal (oneLine_message rfl) (.rolls hroll hface)⟩
  · have hgiven : ∀ given, rolls = some given → Check.ValidRolls given := fun given hsome ↦
      ⟨hrolls given hsome, fun roll hroll ↦
        Decidable.not_not.mp fun hface ↦ hfaces ⟨given, hsome, roll, hroll, hface⟩⟩
    obtain ⟨outcome, left, hrun⟩ := Check.exists_onTable_resolve rating difficulty hlength hnonneg
      hgiven hendless hrange
    refine ⟨_, left, reportFault_of_ok (Throw.onTable_bind_eq_ok_iff.mpr ⟨_, _, hrun, rfl⟩),
      .done _ ?_⟩
    intro hrefused
    cases hrefused with
    | exchange h => exact hexchange h
    | rolls hroll hface => exact hfaces ⟨_, rfl, _, hroll, hface⟩

end

/-! ### Castings -/

/-- The base of a casting is looked at twice, with the same result. -/
theorem runCost_eq (settings : Settings) (traits : Int) (text : String) (points base : Int)
    (failed : Bool) :
    runCost settings (.value traits) text (.value points) (.value base) failed =
      Throw.ofExcept (Spell.cost text points (!failed) base settings.tradition traits) >>=
        fun cost ↦ pure (.done [s!"{cost} AsP"]) := by
  have hcost : castingCost settings (.value traits) text (.value points) (.value base) failed =
      Spell.cost text points (!failed) base settings.tradition traits := by
    simp only [castingCost, Entry.require, ok_bind, Spell.cost]
    cases Spell.validateBase base <;> rfl
  rw [runCost, hcost]

theorem isAnswered_cost (settings : Settings) {traits : Int} (htraits : 0 ≤ traits ∧ traits ≤ 2)
    (text : String) (points base : Int) (failed : Bool) (table : Table) :
    (Command.cost text (.value points) (.value base) failed).IsAnswered settings (.value traits)
      table := by
  rw [Command.IsAnswered, Command.run, runCost_eq]
  by_cases hbase : base < 0
  · rw [Spell.cost_of_negative_base hbase]
    exact ⟨_, table, reportFault_of_error
      (Throw.onTable_bind_of_error (Throw.onTable_ofExcept table _) _) rfl,
      .refusal (oneLine_message rfl) (.base hbase)⟩
  have hnonneg := Int.not_lt.mp hbase
  by_cases hpoints : failed = false ∧ points < 0
  · obtain ⟨rfl, hpoints⟩ := hpoints
    rw [Bool.not_false, Spell.cost_of_negative_points hnonneg htraits hpoints]
    exact ⟨_, table, reportFault_of_error
      (Throw.onTable_bind_of_error (Throw.onTable_ofExcept table _) _) rfl,
      .refusal (oneLine_message rfl) (.points hpoints)⟩
  · have hsuccess : (!failed) = true → 0 ≤ points := by
      rw [Bool.not_eq_true']
      exact fun hsuccess ↦ Int.not_lt.mp fun hnegative ↦ hpoints ⟨hsuccess, hnegative⟩
    obtain ⟨charge, hcharge⟩ :=
      Spell.exists_cost hnonneg htraits hsuccess text settings.tradition
    rw [hcharge]
    refine ⟨_, table, reportFault_of_ok (Throw.onTable_bind_eq_ok_iff.mpr ⟨_, _, rfl, rfl⟩),
      .done _ ?_⟩
    intro hrefused
    cases hrefused with
    | base h => exact hbase h
    | points h => exact hpoints ⟨rfl, h⟩

end Aventuria.CommandLine
