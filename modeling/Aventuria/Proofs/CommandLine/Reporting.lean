import Aventuria.Proofs.Calendar.DateText
import Aventuria.Proofs.CommandLine.Answering
import Aventuria.Proofs.CommandLine.Assignment

/-!
# What a command line reports

A command line that was understood is answered by a report, unless a divider took the place of a
value that the command works with. The exit code tells an unreadable date from a refusal by the
rules and from an answer, and a report on what is wrong is one line (`Foreseen`,
`commands_answer_as_foreseen`). Without the value there may be no report, or one with another exit
code (`not_answersAsForeseen`).
-/

set_option autoImplicit false
set_option relaxedAutoImplicit false

namespace Aventuria.CommandLine

open Dice (Table Throw)
open Text (OneLine)

/-- The commands whose reports are foreseen: all of them but for the expiry of a shelf life. -/
def Command.isForeseen : Command → Bool
  | roll .. | formula .. | harvest .. | check .. | cost .. => true
  | expiry _ | help => false

/-- The date of the session is a date. -/
def Request.DateReadable (request : Request) : Prop :=
  ∃ text, request.date = .value text ∧ ∃ date, Calendar.Date.ofText? text = some date

/-- No value that the command works with was left out. -/
def Command.Furnished : Command → Prop
  | roll _ times => times ≠ .empty
  | formula _ points => points ≠ .empty
  | harvest _ points _ => points ≠ some .empty
  | check _ difficulty attributes exchange _ _ =>
    difficulty ≠ .empty ∧ attributes.length = 3 ∧ exchange ≠ .empty
  | cost _ points base _ => points ≠ .empty ∧ base ≠ .empty
  | expiry _ | help => True

/-- No value that the command or its session works with was left out. -/
structure Request.Furnished (request : Request) : Prop where
  tradition : request.tradition ≠ .empty
  seed : request.command.hasDice = true → request.seed ≠ some .empty
  traits : ∀ text points base failed, request.command = .cost text points base failed →
    request.traits ≠ .empty
  command : request.command.Furnished

/-- A report as it is meant to be. The exit code is 2 when the date is not readable, otherwise 1
when the command is refused and 0 when it is not; in the first two cases the report is one line that
says what is wrong. A harvest is never refused. -/
structure Foreseen (request : Request) (report : Report) : Prop where
  exitCode_le : report.exitCode ≤ 2
  exitCode_eq_two_iff : report.exitCode = 2 ↔ ¬ request.DateReadable
  exitCode_eq_one_iff : report.exitCode = 1 ↔ request.DateReadable ∧ request.command.Refused
  exitCode_of_harvest : request.DateReadable → ∀ text points rolling,
    request.command = .harvest text points rolling → report.exitCode = 0
  error_line : report.exitCode ≠ 0 →
    ∃ message, OneLine message ∧ report.output = "Error: " ++ message ++ "\n"

/-- A command line with one of these commands is answered by a report as it is meant to be, on every
table whose dice show their faces and do not run out. -/
def AnswersAsForeseen (args : List String) : Prop :=
  ∀ request, Request.ofArguments? args = some request → request.command.isForeseen = true →
    ∀ table : Table, table.source.Endless → table.source.InRange →
      ∃ report left, (run args).onTable table = (.ok report, left) ∧ Foreseen request report

/-- The report where every die shows its highest face. -/
theorem AnswersAsForeseen.of_highest {args : List String} {request : Request}
    (h : AnswersAsForeseen args) (hrequest : Request.ofArguments? args = some request)
    (hforeseen : request.command.isForeseen = true) :
    ∃ report left, (run args).onTable (Table.fresh .highest) = (.ok report, left) ∧
      Foreseen request report :=
  h request hrequest hforeseen (Table.fresh .highest) Dice.Source.endless_highest
    Dice.Source.inRange_highest

/-! ### Sessions -/

theorem Entry.exists_of_ne_empty {α : Type} {entry : Entry α} (h : entry ≠ .empty) :
    ∃ a, entry = .value a := by
  cases entry with
  | value a => exact ⟨a, rfl⟩
  | empty => exact absurd rfl h

namespace Request

section
variable {args : List String} {request : Request}

/-- A command with all its entries is refused or answered. -/
theorem isAnswered (hrequest : Request.ofArguments? args = some request)
    (hfurnished : request.Furnished) (hforeseen : request.command.isForeseen = true)
    (settings : Settings)
    {table : Table} (hendless : table.source.Endless) (hrange : table.source.InRange) :
    request.command.IsAnswered settings request.traits table := by
  have hentries := hfurnished.command
  cases hcommand : request.command with
  | help | expiry =>
    rw [hcommand] at hforeseen
    cases hforeseen
  | roll text times =>
    rw [hcommand] at hentries
    obtain ⟨times, rfl⟩ := Entry.exists_of_ne_empty hentries
    exact isAnswered_roll settings request.traits text times hendless
  | formula text points =>
    rw [hcommand] at hentries
    obtain ⟨points, rfl⟩ := Entry.exists_of_ne_empty hentries
    exact isAnswered_formula settings request.traits text points table
  | harvest text points rolling =>
    rw [hcommand] at hentries
    exact isAnswered_harvest settings request.traits text hentries rolling hendless
  | check rating difficulty attributes exchange rolls pointsName =>
    rw [hcommand] at hentries
    obtain ⟨hdifficulty, hlength, hexchange⟩ := hentries
    obtain ⟨difficulty, rfl⟩ := Entry.exists_of_ne_empty hdifficulty
    obtain ⟨exchange, rfl⟩ := Entry.exists_of_ne_empty hexchange
    refine isAnswered_check hlength settings request.traits ?_ pointsName hendless hrange
    rintro given rfl
    exact Request.length_of_rolls hrequest hcommand
  | cost text points base failed =>
    rw [hcommand] at hentries
    obtain ⟨hpoints, hbase⟩ := hentries
    obtain ⟨points, rfl⟩ := Entry.exists_of_ne_empty hpoints
    obtain ⟨base, rfl⟩ := Entry.exists_of_ne_empty hbase
    obtain ⟨traits, htraits⟩ := Entry.exists_of_ne_empty (hfurnished.traits _ _ _ _ hcommand)
    rw [htraits]
    exact isAnswered_cost settings (Request.traits_range hrequest htraits) text points base failed
      table

/-- Settings with a tradition depend on the date. -/
theorem settings_eq {tradition : Spell.Tradition} (h : request.tradition = .value tradition) :
    request.settings = request.date.require .emptyCurrentDate >>= fun date ↦
      Settings.validDate (some date) >>= fun currentDate ↦ .ok
        { seed := request.seed.bind Entry.toOption
          currentDate
          tradition
          traits := request.traits.toOption.getD 0
          verbose := request.verbose } := by
  rw [settings, h]
  cases tradition <;> rfl

theorem exists_settings (htradition : request.tradition ≠ .empty) (hdate : request.DateReadable) :
    ∃ settings, request.settings = .ok settings := by
  obtain ⟨tradition, htradition⟩ := Entry.exists_of_ne_empty htradition
  obtain ⟨text, htext, date, hread⟩ := hdate
  rw [settings_eq htradition, htext, Entry.require, ok_bind, Settings.validDate, hread]
  exact ⟨_, rfl⟩

/-- A date that is not readable is what is wrong with the settings. -/
theorem exists_fault_of_settings (htradition : request.tradition ≠ .empty)
    (hdate : ¬ request.DateReadable) :
    ∃ fault, request.settings = .error fault ∧ endsRun fault = false := by
  obtain ⟨tradition, htradition⟩ := Entry.exists_of_ne_empty htradition
  rw [settings_eq htradition]
  cases hentry : request.date with
  | empty => exact ⟨.emptyCurrentDate, rfl, rfl⟩
  | value text =>
    have hread : Calendar.Date.ofText? text = none := by
      rw [Option.eq_none_iff_forall_ne_some]
      exact fun date hread ↦ hdate ⟨text, hentry, date, hread⟩
    refine ⟨.invalidCurrentDate text, ?_, rfl⟩
    rw [Entry.require, ok_bind, Settings.validDate, hread, error_bind]

/-- The date of a session that names none is readable. -/
theorem dateReadable_of_default (h : request.date = .value Settings.defaultDate) :
    request.DateReadable := by
  have hdefault : Settings.defaultDate =
      Calendar.DatedText.format ⟨⟨1, .praios, 1040, by decide, by decide⟩, "BF"⟩ := by
    decide
  refine ⟨_, h, ⟨1, .praios, 1040, by decide, by decide⟩, ?_⟩
  rw [Calendar.Date.ofText?, hdefault,
    Calendar.DatedText.ofText?_format (Calendar.DatedText.isEra_of_isAlpha (by decide) (by decide))]
  rfl

theorem validateSeed_eq (h : request.command.hasDice = true → request.seed ≠ some .empty) :
    request.validateSeed = .ok () :=
  if_neg fun hseed ↦ h hseed.2 hseed.1

end

end Request

/-! ### Reports as they are meant to be -/

theorem Report.output_line (exitCode : Nat) (line : String) :
    (⟨exitCode, [line]⟩ : Report).output = line ++ "\n" := by
  rw [Report.output, List.map_singleton, String.join, List.foldl_cons, List.foldl_nil,
    String.empty_append]

section
variable {request : Request}

theorem foreseen_badSettings (hdate : ¬ request.DateReadable) {fault : Fault}
    (hends : endsRun fault = false) : Foreseen request (.badSettings fault) where
  exitCode_le := Nat.le_refl 2
  exitCode_eq_two_iff := iff_of_true rfl hdate
  exitCode_eq_one_iff := iff_of_false nofun fun h ↦ hdate h.1
  exitCode_of_harvest := fun h ↦ absurd h hdate
  error_line := fun _ ↦ ⟨fault.message, oneLine_message hends, Report.output_line 2 _⟩

theorem foreseen_of_answer (hdate : request.DateReadable) {report : Report}
    (h : request.command.Answer report) : Foreseen request report := by
  cases h with
  | done lines hrefused =>
    exact
      { exitCode_le := Nat.zero_le 2
        exitCode_eq_two_iff := iff_of_false nofun fun h ↦ h hdate
        exitCode_eq_one_iff := iff_of_false nofun fun h ↦ hrefused h.2
        exitCode_of_harvest := fun _ _ _ _ _ ↦ rfl
        error_line := fun h ↦ absurd rfl h }
  | @refusal message hline hrefused =>
    exact
      { exitCode_le := Nat.le_succ 1
        exitCode_eq_two_iff := iff_of_false nofun fun h ↦ h hdate
        exitCode_eq_one_iff := iff_of_true rfl ⟨hdate, hrefused⟩
        exitCode_of_harvest := fun _ text points rolling hcommand ↦
          absurd (hcommand ▸ hrefused) (not_refused_harvest text points rolling)
        error_line := fun _ ↦ ⟨message, hline, Report.output_line 1 _⟩ }

end

/-! ### Runs -/

section
variable {args : List String} {request : Request}
  (hrequest : Request.ofArguments? args = some request)
  (hforeseen : request.command.isForeseen = true)

include hforeseen

theorem not_help_of_isForeseen : request.command ≠ .help := by
  intro hhelp
  rw [hhelp] at hforeseen
  cases hforeseen

include hrequest

theorem run_of_settings {settings : Settings} (hsettings : request.settings = .ok settings) :
    run args = Throw.ofExcept request.validateSeed >>= fun _ ↦
      request.command.run settings request.traits := by
  rw [run, hrequest]
  dsimp only
  rw [Request.run, if_neg (not_help_of_isForeseen hforeseen), hsettings]

theorem run_of_fault {fault : Fault} (hsettings : request.settings = .error fault) :
    run args = pure (.badSettings fault) := by
  rw [run, hrequest]
  dsimp only
  rw [Request.run, if_neg (not_help_of_isForeseen hforeseen), hsettings]

end

/-- A command line in which no value that the command works with was left out comes to a report on
every table whose dice show their faces and do not run out, and the report is as it is meant to
be. -/
theorem commands_answer_as_foreseen {args : List String} {request : Request}
    (hrequest : Request.ofArguments? args = some request) (hfurnished : request.Furnished) :
    AnswersAsForeseen args := by
  intro other hother hforeseen table hendless hrange
  obtain rfl : request = other := Option.some.inj (hrequest.symm.trans hother)
  by_cases hdate : request.DateReadable
  · obtain ⟨settings, hsettings⟩ := Request.exists_settings hfurnished.tradition hdate
    obtain ⟨report, left, hrun, hanswer⟩ :=
      Request.isAnswered hrequest hfurnished hforeseen settings hendless hrange
    refine ⟨report, left, ?_, foreseen_of_answer hdate hanswer⟩
    rw [run_of_settings hrequest hforeseen hsettings, Request.validateSeed_eq hfurnished.seed,
      Throw.ofExcept, pure_bind, hrun]
  · obtain ⟨fault, hsettings, hends⟩ :=
      Request.exists_fault_of_settings hfurnished.tradition hdate
    rw [run_of_fault hrequest hforeseen hsettings]
    exact ⟨.badSettings fault, table, Throw.onTable_pure table _,
      foreseen_badSettings hdate hends⟩

/-- A check is refused when no die shows one of its rolls. -/
theorem commands_answer_as_foreseen_with_impossible_roll :
    ∃ request, Request.ofArguments?
        ["check", "7", "2", "11", "12", "13", "--rolls", "3", "21", "5"] = some request ∧
      request.Furnished ∧
      ∃ report left, (run ["check", "7", "2", "11", "12", "13", "--rolls", "3", "21", "5"]).onTable
          (Table.fresh .highest) = (.ok report, left) ∧ report.exitCode = 1 := by
  let request : Request := ⟨none, .value "1 Praios 1040 BF", .value .guild, .value 0, false,
    .check 7 (.value 2) [11, 12, 13] (.value 0) (some [3, 21, 5]) (.value "ZfP*")⟩
  have hrequest : Request.ofArguments?
      ["check", "7", "2", "11", "12", "13", "--rolls", "3", "21", "5"] = some request := by
    decide +kernel
  have hfurnished : request.Furnished :=
    { tradition := nofun
      seed := fun _ ↦ nofun
      traits := nofun
      command := ⟨nofun, rfl, nofun⟩ }
  have hrefused : request.command.Refused :=
    .rolls (show (21 : Int) ∈ [3, 21, 5] by decide) (by decide)
  obtain ⟨report, left, hrun, hreport⟩ :=
    (commands_answer_as_foreseen hrequest hfurnished).of_highest hrequest rfl
  exact ⟨request, hrequest, hfurnished, report, left, hrun,
    hreport.exitCode_eq_one_iff.mpr ⟨Request.dateReadable_of_default rfl, hrefused⟩⟩

/-! ### Values that were left out -/

/-- A command line with one of these commands comes to no report where every die shows its highest
face. -/
def comesToNothing (args : List String) : Bool :=
  (Request.ofArguments? args).any (·.command.isForeseen) &&
    ((run args).onTable (Table.fresh .highest)).1.toOption.isNone

theorem not_answersAsForeseen_of_comesToNothing {args : List String}
    (h : comesToNothing args = true) : ¬ AnswersAsForeseen args := by
  intro hanswers
  obtain ⟨haccepted, hnothing⟩ := (Bool.and_eq_true _ _).mp h
  obtain ⟨request, hrequest, hforeseen⟩ := (Option.any_eq_true _ _).mp haccepted
  obtain ⟨report, left, hrun, -⟩ := hanswers.of_highest hrequest hforeseen
  rw [hrun] at hnothing
  cases hnothing

section
variable {args : List String} {request : Request}
  (hrequest : Request.ofArguments? args = some request)
  (hforeseen : request.command.isForeseen = true) (hdate : request.DateReadable)

include hrequest hforeseen hdate

/-- Without the tradition that was given, the settings are bad although the date is readable. -/
theorem not_answersAsForeseen_of_tradition (htradition : request.tradition = .empty) :
    ¬ AnswersAsForeseen args := by
  intro h
  have hsettings : request.settings = .error .emptyTradition := by
    rw [Request.settings, htradition]
    rfl
  obtain ⟨report, left, hrun, hreport⟩ := h.of_highest hrequest hforeseen
  rw [run_of_fault hrequest hforeseen hsettings] at hrun
  cases hrun
  exact hreport.exitCode_eq_two_iff.mp rfl hdate

/-- Without its points a formula has no value where something is taken from them. -/
theorem not_answersAsForeseen_of_formula (htradition : request.tradition ≠ .empty) {text : String}
    (hcommand : request.command = .formula text .empty) {formula : Formula}
    (hcompile : Formula.compile (some text) = .ok (some formula)) {sign : String}
    {left right : ValueSort}
    (hvalue : formula.valueWithoutPoints = .error (.inoperable sign left right)) :
    ¬ AnswersAsForeseen args := by
  intro h
  obtain ⟨settings, hsettings⟩ := Request.exists_settings htradition hdate
  have hseed : request.validateSeed = .ok () := by
    refine Request.validateSeed_eq fun hdice ↦ ?_
    rw [hcommand] at hdice
    cases hdice
  have hfault : request.command.run settings request.traits =
      throw (.inoperable sign left right) := by
    rw [hcommand, Command.run, runFormula, hcompile, ok_bind, Option.map_some, hvalue]
    rfl
  obtain ⟨report, left, hrun, -⟩ := h.of_highest hrequest hforeseen
  rw [run_of_settings hrequest hforeseen hsettings, hseed, Throw.ofExcept, pure_bind,
    hfault] at hrun
  cases hrun

/-- Without some of its attributes a check is refused, whatever the rules say. -/
theorem not_answersAsForeseen_of_attributes (htradition : request.tradition ≠ .empty)
    (hseed : request.seed ≠ some .empty) {rating : Int} {difficulty exchange : Entry Int}
    {attributes : List Int} {rolls : Option (List Int)} {pointsName : Entry String}
    (hcommand : request.command =
      .check rating difficulty attributes exchange rolls pointsName)
    (hlength : attributes.length ≠ 3) (hrefused : ¬ request.command.Refused) :
    ¬ AnswersAsForeseen args := by
  intro h
  obtain ⟨settings, hsettings⟩ := Request.exists_settings htradition hdate
  have hattributes : Check.validateAttributes attributes = .error (.attributeCount _) :=
    if_pos hlength
  have hrefusal : (request.command.run settings request.traits).onTable (Table.fresh .highest) =
      (.ok (.refusal (Fault.attributeCount attributes.length).message), Table.fresh .highest) := by
    rw [hcommand, Command.run, runCheck, hattributes]
    exact reportFault_of_error (Throw.onTable_bind_of_error rfl _) rfl
  obtain ⟨report, left, hrun, hreport⟩ := h.of_highest hrequest hforeseen
  rw [run_of_settings hrequest hforeseen hsettings, Request.validateSeed_eq fun _ ↦ hseed,
    Throw.ofExcept, pure_bind, hrefusal, Prod.mk.injEq, Except.ok.injEq] at hrun
  obtain ⟨rfl, -⟩ := hrun
  exact hrefused (hreport.exitCode_eq_one_iff.mp rfl).2

end

/-- A divider can stand in the place of every value that is worked with. Mostly there is no report
then. Without a tradition the date is blamed, and without attributes the check is refused. -/
theorem not_answersAsForeseen :
    ¬ AnswersAsForeseen ["--seed=--", "roll", "W6"] ∧
      ¬ AnswersAsForeseen ["--traits=--", "cost", "ZfP", "5"] ∧
      ¬ AnswersAsForeseen ["roll", "--times=--", "W6"] ∧
      ¬ AnswersAsForeseen ["harvest", "--points=--", "IF TaP*>=3: W6 Beeren"] ∧
      ¬ AnswersAsForeseen ["check", "7", "--", "--", "11", "12", "13"] ∧
      ¬ AnswersAsForeseen ["check", "--exchange=--", "7", "2", "11", "12", "13"] ∧
      ¬ AnswersAsForeseen ["cost", "ZfP", "--", "--"] ∧
      ¬ AnswersAsForeseen ["cost", "--base=--", "ZfP", "5"] ∧
      ¬ AnswersAsForeseen ["formula", "ZfP-1", "--", "--"] ∧
      ¬ AnswersAsForeseen ["--tradition=--", "roll", "W6"] ∧
      ¬ AnswersAsForeseen ["check", "1", "2", "--", "--", "3", "4"] := by
  have hnothing : List.all [["--seed=--", "roll", "W6"], ["--traits=--", "cost", "ZfP", "5"],
      ["roll", "--times=--", "W6"], ["harvest", "--points=--", "IF TaP*>=3: W6 Beeren"],
      ["check", "7", "--", "--", "11", "12", "13"],
      ["check", "--exchange=--", "7", "2", "11", "12", "13"], ["cost", "ZfP", "--", "--"],
      ["cost", "--base=--", "ZfP", "5"]] comesToNothing = true := by
    decide +kernel
  simp only [List.all_cons, List.all_nil, Bool.and_true, Bool.and_eq_true] at hnothing
  obtain ⟨hseed, htraits, htimes, hharvest, hdifficulty, hexchange, hcost, hbase⟩ := hnothing
  have hno := @not_answersAsForeseen_of_comesToNothing
  have hdate := @Request.dateReadable_of_default
  refine ⟨hno hseed, hno htraits, hno htimes, hno hharvest, hno hdifficulty, hno hexchange,
    hno hcost, hno hbase, ?_, ?_, ?_⟩
  · have hrequest : Request.ofArguments? ["formula", "ZfP-1", "--", "--"] =
        some ⟨none, .value "1 Praios 1040 BF", .value .guild, .value 0, false,
          .formula "ZfP-1" .empty⟩ := by
      decide +kernel
    have htokens : Formula.Token.ofChars "ZfP-1".toList =
        .ok [.points, .sign .minus, .number ['1']] := by
      cbv
    have htree : Formula.ofTokens [.points, .sign .minus, .number ['1']] =
        .ok (.binary .subtract .points (.number 1)) := by
      cbv
    have hcompile : Formula.compile (some "ZfP-1") =
        .ok (some (.binary .subtract .points (.number 1))) := by
      rw [Formula.compile_some, Formula.ofChars, htokens, ok_bind, htree]
      rfl
    exact not_answersAsForeseen_of_formula hrequest rfl (hdate rfl) (by decide) rfl hcompile rfl
  · have hrequest : Request.ofArguments? ["--tradition=--", "roll", "W6"] =
        some ⟨none, .value "1 Praios 1040 BF", .empty, .value 0, false,
          .roll "W6" (.value 1)⟩ := by
      decide +kernel
    exact not_answersAsForeseen_of_tradition hrequest rfl (hdate rfl) rfl
  · have hrequest : Request.ofArguments? ["check", "1", "2", "--", "--", "3", "4"] =
        some ⟨none, .value "1 Praios 1040 BF", .value .guild, .value 0, false,
          .check 1 (.value 2) [3, 4] (.value 0) none (.value "ZfP*")⟩ := by
      decide +kernel
    have hrefused : ¬ (Command.check 1 (.value 2) [3, 4] (.value 0) none
        (.value "ZfP*")).Refused := by
      intro h
      cases h with
      | exchange h => exact absurd h (by decide)
    exact not_answersAsForeseen_of_attributes hrequest rfl (hdate rfl) (by decide) (by decide) rfl
      (by decide) hrefused

end Aventuria.CommandLine
