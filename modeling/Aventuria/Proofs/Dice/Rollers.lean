import Mathlib.Data.List.DropRight
import Aventuria.Proofs.Dice.Stepping

/-!
# Rollers side by side

Rollers do not notice one another: in any order of their steps each gives the answers and keeps the
log that it has when it takes its own steps alone (`Rollers.takeAll_at`), and these are the answers
that the values of its dice call for (`Roller.runs_takeAll`). What a roller logs can be told from
its answers: a step that succeeds in a roll adds that roll, a clear takes all of them away, and
nothing else changes the log (`Roller.Takes.log_eq`). So the log is the rolls since the last clear,
in order (`Roller.log_takeAll`).
-/

set_option autoImplicit false
set_option relaxedAutoImplicit false

namespace Aventuria.Dice

namespace Roller

/-! ### One roller -/

/-- The roll that a step adds to the log, told from its answer. A number between two bounds is
logged as a roll of that value. -/
def Step.logged? : Step → Except Fault Answer → Option Roll
  | .roll .., .ok (.rolled result) => some result
  | .d20 .., .ok (.rolled result) => some result
  | .d6 .., .ok (.rolled result) => some result
  | .between low high reason, .ok (.number value) =>
    some { label := s!"range({low}-{high})", values := [value], modifier := 0, reason }
  | _, _ => none

/-- The rolls of a run since the last clear, told from its steps and their answers. -/
def rollsSinceClear (run : List (Step × Except Fault Answer)) : List Roll :=
  (run.rtakeWhile fun taken ↦ taken.1 ≠ .clearLog).filterMap fun taken ↦ taken.1.logged? taken.2

theorem Step.logged?_error (step : Step) (fault : Fault) :
    step.logged? (.error fault) = none := by
  cases step <;> rfl

/-- What a step does to the log. -/
theorem Takes.log_eq {roller next : Roller} {step : Step} {answer : Except Fault Answer}
    (h : roller.Takes step answer next) :
    next.log.toList =
      if step = .clearLog then [] else roller.log.toList ++ (step.logged? answer).toList := by
  cases h with
  | refused hrolls _ =>
    rw [Step.logged?_error, if_neg (by cases hrolls <;> nofun)]
    exact (List.append_nil _).symm
  | rolled hrolls _ _ => cases hrolls <;> exact Array.toList_push
  | drawn _ => exact Array.toList_push
  | exhausted hthrows _ =>
    rw [Step.logged?_error, if_neg]
    · exact (List.append_nil _).symm
    · rintro rfl
      cases hthrows with
      | rolls hrolls _ => cases hrolls
  | clearLog => rfl
  | sampled | reseeded | notReseeded | readLog | emptyLogCopy => exact (List.append_nil _).symm

theorem log_take (roller : Roller) (step : Step) :
    (roller.take step).2.log.toList =
      if step = .clearLog then []
      else roller.log.toList ++ (step.logged? (roller.take step).1).toList :=
  (takes_iff.mpr rfl).log_eq

/-- A step that fails leaves the log as it was. -/
theorem log_take_of_error {roller : Roller} {step : Step} {fault : Fault}
    (h : (roller.take step).1 = .error fault) : (roller.take step).2.log = roller.log := by
  rcases hrun : roller.take step with ⟨answer, next⟩
  rw [hrun] at h
  obtain rfl : answer = .error fault := h
  cases takes_iff.mpr hrun with
  | refused | exhausted => rfl

/-- A roller that takes steps one after the other, each with its answer. -/
inductive Runs : Roller → List (Step × Except Fault Answer) → Roller → Prop
  | none (roller : Roller) : Runs roller [] roller
  | next {roller next last : Roller} {step : Step} {answer : Except Fault Answer}
      {run : List (Step × Except Fault Answer)} (hstep : roller.Takes step answer next)
      (hrest : Runs next run last) : Runs roller ((step, answer) :: run) last

theorem takeAll_cons (roller : Roller) (step : Step) (steps : List Step) :
    roller.takeAll (step :: steps) =
      ((roller.take step).1 :: ((roller.take step).2.takeAll steps).1,
        ((roller.take step).2.takeAll steps).2) :=
  rfl

theorem takeAll_concat (roller : Roller) (steps : List Step) (step : Step) :
    roller.takeAll (steps ++ [step]) =
      ((roller.takeAll steps).1 ++ [((roller.takeAll steps).2.take step).1],
        ((roller.takeAll steps).2.take step).2) := by
  induction steps generalizing roller with
  | nil => exact takeAll_cons roller step []
  | cons first steps ih => rw [List.cons_append, takeAll_cons, takeAll_cons, ih, List.cons_append]

theorem length_takeAll (roller : Roller) (steps : List Step) :
    (roller.takeAll steps).1.length = steps.length := by
  induction steps generalizing roller with
  | nil => rfl
  | cons step steps ih => rw [takeAll_cons, List.length_cons, ih, List.length_cons]

theorem runs_takeAll (roller : Roller) (steps : List Step) :
    roller.Runs (steps.zip (roller.takeAll steps).1) (roller.takeAll steps).2 := by
  induction steps generalizing roller with
  | nil => exact .none roller
  | cons step steps ih => exact .next (takes_iff.mpr rfl) (ih (roller.take step).2)

/-- The log of a roller that has logged nothing before. -/
theorem log_takeAll {roller : Roller} (hnew : roller.log = #[]) (steps : List Step) :
    (roller.takeAll steps).2.log.toList =
      rollsSinceClear (steps.zip (roller.takeAll steps).1) := by
  -- The induction goes from the first step to the last, as the log grows at its end.
  induction steps using List.reverseRecOn with
  | nil => rw [takeAll, hnew]; rfl
  | append_singleton steps step ih =>
    rw [takeAll_concat, log_take, ih, List.zip_append (length_takeAll roller steps).symm,
      List.zip_cons_cons, List.zip_nil_left, rollsSinceClear, rollsSinceClear,
      List.rtakeWhile_concat]
    by_cases hclear : step = .clearLog
    · simp [hclear]
    · cases hlogged : step.logged? ((roller.takeAll steps).2.take step).1 <;> simp [hclear, hlogged]

end Roller

namespace Rollers

/-! ### All rollers -/

/-- The steps of a run that are addressed to one roller. -/
def ownSteps (place : Nat) (steps : List (Nat × Roller.Step)) : List Roller.Step :=
  (steps.filter fun addressed ↦ addressed.1 = place).map (·.2)

/-- The answers of a run that belong to the steps of one roller. -/
def ownAnswers {α : Type} (place : Nat) (steps : List (Nat × Roller.Step)) (answers : List α) :
    List α :=
  ((steps.zip answers).filter fun answered ↦ answered.1.1 = place).map (·.2)

section
variable {α : Type} {place other : Nat} {step : Roller.Step} {steps : List (Nat × Roller.Step)}
  {answer : α} {answers : List α}

theorem ownSteps_cons_self :
    ownSteps place ((place, step) :: steps) = step :: ownSteps place steps := by
  simp [ownSteps]

theorem ownSteps_cons_of_ne (h : other ≠ place) :
    ownSteps place ((other, step) :: steps) = ownSteps place steps := by
  simp [ownSteps, h]

theorem ownAnswers_cons_self :
    ownAnswers place ((place, step) :: steps) (answer :: answers) =
      answer :: ownAnswers place steps answers := by
  simp [ownAnswers]

theorem ownAnswers_cons_of_ne (h : other ≠ place) :
    ownAnswers place ((other, step) :: steps) (answer :: answers) =
      ownAnswers place steps answers := by
  simp [ownAnswers, h]

end

theorem take_at {rollers : Rollers} {place : Nat} {roller : Roller}
    (h : rollers[place]? = some roller) (step : Roller.Step) :
    (rollers.take place step).1 = some (roller.take step).1 ∧
      (rollers.take place step).2[place]? = some (roller.take step).2 := by
  obtain ⟨hlt, -⟩ := List.getElem?_eq_some_iff.mp h
  rw [take, h]
  exact ⟨rfl, List.getElem?_set_self hlt⟩

theorem take_elsewhere {place other : Nat} (h : other ≠ place) (rollers : Rollers)
    (step : Roller.Step) : (rollers.take other step).2[place]? = rollers[place]? := by
  rw [take]
  split
  · exact List.getElem?_set_ne h
  · rfl

theorem takeAll_cons (rollers : Rollers) (place : Nat) (step : Roller.Step)
    (steps : List (Nat × Roller.Step)) :
    rollers.takeAll ((place, step) :: steps) =
      ((rollers.take place step).1 :: ((rollers.take place step).2.takeAll steps).1,
        ((rollers.take place step).2.takeAll steps).2) :=
  rfl

/-- Among others a roller answers and ends as it does alone. -/
theorem takeAll_at {rollers : Rollers} {place : Nat} {roller : Roller}
    (h : rollers[place]? = some roller) (steps : List (Nat × Roller.Step)) :
    ownAnswers place steps (rollers.takeAll steps).1 =
        (roller.takeAll (ownSteps place steps)).1.map some ∧
      (rollers.takeAll steps).2[place]? = some (roller.takeAll (ownSteps place steps)).2 := by
  induction steps generalizing rollers roller with
  | nil => exact ⟨rfl, h⟩
  | cons addressed steps ih =>
    obtain ⟨other, step⟩ := addressed
    rw [takeAll_cons]
    by_cases hother : other = place
    · subst hother
      obtain ⟨hanswer, hnext⟩ := take_at h step
      obtain ⟨hanswers, hlast⟩ := ih hnext
      rw [ownSteps_cons_self, Roller.takeAll_cons, ownAnswers_cons_self, hanswers, hanswer]
      exact ⟨rfl, hlast⟩
    · rw [ownSteps_cons_of_ne hother, ownAnswers_cons_of_ne hother]
      exact ih ((take_elsewhere hother rollers step).trans h)

/-- A step that fails leaves every log as it was. -/
theorem logs_take_of_error {rollers : Rollers} {place : Nat} {step : Roller.Step} {fault : Fault}
    (h : (rollers.take place step).1 = some (.error fault)) :
    (rollers.take place step).2.map Roller.log = rollers.map Roller.log := by
  cases hplace : rollers[place]? with
  | none => rw [take, hplace]
  | some roller =>
    rw [take, hplace] at h ⊢
    obtain ⟨hlt, rfl⟩ := List.getElem?_eq_some_iff.mp hplace
    have hlog := Roller.log_take_of_error (Option.some.inj h)
    show (rollers.set place _).map Roller.log = _
    rw [List.map_set, hlog, ← List.map_set, List.set_getElem_self]

/-- New rollers that take steps in any order are independent. Each makes a run of its own steps, as
its dice have it and as if it were alone: so it answers, and so it ends. Its log tells the rolls
that it made since its last clear, and a step that fails at any point leaves all logs as they
were. -/
theorem rollers_are_independent (rollers : Rollers) (hnew : ∀ roller ∈ rollers, roller.log = #[])
    (steps : List (Nat × Roller.Step)) :
    (∀ place roller, rollers[place]? = some roller →
      ∃ run last, run.map Prod.fst = ownSteps place steps ∧ roller.Runs run last ∧
        roller.takeAll (ownSteps place steps) = (run.map Prod.snd, last) ∧
        ownAnswers place steps (rollers.takeAll steps).1 = run.map (some ·.2) ∧
        (rollers.takeAll steps).2[place]? = some last ∧
        last.log.toList = Roller.rollsSinceClear run) ∧
    ∀ place step fault,
      ((rollers.takeAll steps).2.take place step).1 = some (.error fault) →
        ((rollers.takeAll steps).2.take place step).2.map Roller.log =
          (rollers.takeAll steps).2.map Roller.log := by
  refine ⟨fun place roller hplace ↦ ?_, fun _ _ _ ↦ logs_take_of_error⟩
  obtain ⟨hanswers, hlast⟩ := takeAll_at hplace steps
  have hlength := Roller.length_takeAll roller (ownSteps place steps)
  have hrun := List.map_snd_zip hlength.le
  refine ⟨_, _, List.map_fst_zip hlength.ge, Roller.runs_takeAll roller (ownSteps place steps), ?_,
    ?_, hlast, Roller.log_takeAll (hnew roller (List.mem_of_getElem? hplace)) _⟩
  · rw [hrun]
  · rw [hanswers, ← hrun, List.map_map, hrun]
    rfl

/-- One roller rolls, reads its log and then runs out of dice, while another one is seeded again,
refuses a text and clears its log. -/
theorem rollers_are_independent_while_one_runs_out :
    ∃ rollers steps,
      rollers = [.ofSource (.replay #[17, 3, 4, 2, 5]), .ofSeed 7] ∧
      steps = [(0, .d20 "Probe"), (1, .roll "W8" ""), (0, .roll " w6+1" ""), (1, .reseed 7),
        (0, .d6 2 ""), (1, .roll "W8" ""), (0, .between 3 8 ""), (1, .roll "W" ""),
        (0, .emptyLogCopy), (1, .clearLog), (0, .readLog)] ∧
      (∀ roller ∈ rollers, roller.log = #[]) ∧
      (∃ run last, Roller.Runs (.ofSource (.replay #[17, 3, 4, 2, 5])) run last ∧
        run.map (some ·.2) =
          [some (.ok (.rolled ⟨"1W20", [17], 0, "Probe"⟩)),
            some (.ok (.rolled ⟨"w6+1", [3], 1, ""⟩)), some (.ok (.rolled ⟨"2W6", [4, 2], 0, ""⟩)),
            some (.ok (.number 7)), some (.ok .nothing),
            some (.ok (.logged [⟨"1W20", [17], 0, "Probe"⟩, ⟨"w6+1", [3], 1, ""⟩,
              ⟨"2W6", [4, 2], 0, ""⟩, ⟨"range(3-8)", [7], 0, ""⟩]))] ∧
        last.log.toList = Roller.rollsSinceClear run) ∧
      ((Rollers.takeAll rollers steps).2.take 0 (.d6 1 "")).2.map Roller.log =
        [#[⟨"1W20", [17], 0, "Probe"⟩, ⟨"w6+1", [3], 1, ""⟩, ⟨"2W6", [4, 2], 0, ""⟩,
          ⟨"range(3-8)", [7], 0, ""⟩], #[]] := by
  have hnew : ∀ roller ∈ ([.ofSource (.replay #[17, 3, 4, 2, 5]), .ofSeed 7] : Rollers),
      roller.log = #[] := by
    simp [Roller.ofSource, Roller.ofSeed]
  obtain ⟨hruns, hfails⟩ := rollers_are_independent _ hnew
    [(0, .d20 "Probe"), (1, .roll "W8" ""), (0, .roll " w6+1" ""), (1, .reseed 7), (0, .d6 2 ""),
      (1, .roll "W8" ""), (0, .between 3 8 ""), (1, .roll "W" ""), (0, .emptyLogCopy),
      (1, .clearLog), (0, .readLog)]
  obtain ⟨run, last, -, hrun, -, hanswers, -, hlog⟩ := hruns 0 _ rfl
  refine ⟨_, _, rfl, rfl, hnew, ⟨run, last, hrun, ?_, hlog⟩, ?_⟩
  · exact hanswers.symm.trans (by decide +kernel)
  · exact (hfails 0 (.d6 1 "") .diceExhausted (by decide +kernel)).trans (by decide +kernel)

end Rollers

end Aventuria.Dice
