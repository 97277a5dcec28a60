import Aventuria.Dice.Roller
import Aventuria.Proofs.Dice.Table

/-!
# The steps of a roller

What a roller answers to a step and how it is left, told from the values that its table shows
(`Roller.Takes`). A text is refused, or its dice are thrown, and the roll that the answer tells is
logged; no other step logs anything but a number drawn between two bounds. When the dice run out,
those that were thrown stay thrown. There is one way to take a step, and it is the one that is
computed (`Roller.takes_iff`).
-/

set_option autoImplicit false
set_option relaxedAutoImplicit false

namespace Aventuria.Dice

theorem Roll.total_of_single (label reason : String) (value : Int) :
    (⟨label, [value], 0, reason⟩ : Roll).total = value := by
  rw [total, sum, List.sum_cons, List.sum_nil, Int.add_zero, Int.add_zero]

namespace Roller

/-! ### What a step comes to -/

/-- A step that rolls a text for a reason. -/
inductive Step.Rolls : Step → String → String → Prop
  | roll (text reason : String) : Rolls (.roll text reason) text reason
  | d20 (reason : String) : Rolls (.d20 reason) "1W20" reason
  | d6 (count : Int) (reason : String) : Rolls (.d6 count reason) s!"{count}W6" reason

/-- A step that throws dice of these sizes. -/
inductive Step.Throws : Step → List Int → Prop
  | rolls {step : Step} {text reason : String} {spec : Spec} (hrolls : step.Rolls text reason)
      (hread : Spec.ofText text = .ok spec) : Throws step spec.sizes
  | between (low high : Int) (reason : String) :
      Throws (.between low high reason) [high - low + 1]
  | sample (sides : Int) : Throws (.sample sides) [sides]

/-- What a roller answers to a step, and how the step leaves it. -/
inductive Takes (roller : Roller) : Step → Except Fault Answer → Roller → Prop
  | refused {step : Step} {text reason : String} {fault : Fault} (hrolls : step.Rolls text reason)
      (hread : Spec.ofText text = .error fault) : Takes roller step (.error fault) roller
  | rolled {step : Step} {text reason : String} {spec : Spec} {values : List Int}
      (hrolls : step.Rolls text reason) (hread : Spec.ofText text = .ok spec)
      (hshown : roller.table.shown? spec.sizes = some values) :
      Takes roller step (.ok (.rolled ⟨spec.label, values, spec.modifier, reason⟩))
        { roller with
          table := roller.table.askAll spec.sizes
          log := roller.log.push ⟨spec.label, values, spec.modifier, reason⟩ }
  | drawn {low high value : Int} {reason : String}
      (hshown : roller.table.shown? [high - low + 1] = some [value]) :
      Takes roller (.between low high reason) (.ok (.number (low - 1 + value)))
        { roller with
          table := roller.table.askAll [high - low + 1]
          log := roller.log.push ⟨s!"range({low}-{high})", [low - 1 + value], 0, reason⟩ }
  | sampled {sides value : Int} (hshown : roller.table.shown? [sides] = some [value]) :
      Takes roller (.sample sides) (.ok (.number value))
        { roller with table := roller.table.askAll [sides] }
  | exhausted {step : Step} {sizes : List Int} {left : Table} (hthrows : step.Throws sizes)
      (hexhausts : roller.table.Exhausts sizes left) :
      Takes roller step (.error .diceExhausted) { roller with table := left }
  | reseeded {seed : Int} (hown : roller.ownSeed = true) :
      Takes roller (.reseed seed) (.ok .nothing)
        { roller with table := Table.fresh (Source.seeded seed) }
  | notReseeded {seed : Int} (hown : roller.ownSeed = false) :
      Takes roller (.reseed seed) (.ok .nothing) roller
  | readLog : Takes roller .readLog (.ok (.logged roller.log.toList)) roller
  | emptyLogCopy : Takes roller .emptyLogCopy (.ok .nothing) roller
  | clearLog : Takes roller .clearLog (.ok .nothing) { roller with log := #[] }

/-! ### What is computed -/

section
variable {roller next : Roller} {step : Step} {text reason : String} {spec : Spec}
  {answer : Except Fault Answer}

theorem rollText_of_read (h : Spec.ofText text = .ok spec) :
    rollText text reason = spec.roll reason := by
  rw [rollText, h, Throw.ofExcept, pure_bind]

theorem take_of_rolls (h : step.Rolls text reason) :
    roller.take step = ((roller.logRoll (rollText text reason)).1.map .rolled,
      (roller.logRoll (rollText text reason)).2) := by
  cases h <;> rfl

theorem Takes.take_eq (h : roller.Takes step answer next) : roller.take step = (answer, next) := by
  cases h with
  | refused hrolls hread =>
    rw [take_of_rolls hrolls, logRoll, rollText, hread]
    rfl
  | rolled hrolls hread hshown =>
    rw [take_of_rolls hrolls, rollText_of_read hread, logRoll, Spec.roll, Throw.onTable_bind,
      Throw.onTable_dice hshown]
    rfl
  | drawn hshown =>
    rw [take, logRoll, rollBetween, Throw.onTable_bind, Throw.onTable_die_of_shown hshown]
    exact congrArg (fun total ↦ (Except.ok (Answer.number total), _)) (Roll.total_of_single ..)
  | sampled hshown =>
    rw [take, Throw.onTable_die_of_shown hshown]
    rfl
  | exhausted hthrows hexhausts =>
    cases hthrows with
    | rolls hrolls hread =>
      rw [take_of_rolls hrolls, rollText_of_read hread, logRoll, Spec.roll, Throw.onTable_bind,
        Throw.onTable_dice_of_exhausts hexhausts]
      rfl
    | between low high reason =>
      rw [take, logRoll, rollBetween, Throw.onTable_bind, Throw.onTable_die_of_exhausts hexhausts]
      rfl
    | sample sides =>
      rw [take, Throw.onTable_die_of_exhausts hexhausts]
      rfl
  | reseeded hown => rw [take, Roller.reseeded, if_pos hown]
  | notReseeded hown => rw [take, Roller.reseeded, if_neg (by rw [hown]; exact Bool.false_ne_true)]
  | readLog => rfl
  | emptyLogCopy => rfl
  | clearLog => rfl

/-- A text is refused, its dice run out, or they make a roll. -/
theorem exists_takes_of_rolls (h : step.Rolls text reason) :
    ∃ answer next, roller.Takes step answer next := by
  cases hread : Spec.ofText text with
  | error fault => exact ⟨_, _, .refused h hread⟩
  | ok spec =>
    cases hshown : roller.table.shown? spec.sizes with
    | none =>
      obtain ⟨left, hleft⟩ := Table.exists_exhausts hshown
      exact ⟨_, _, .exhausted (.rolls h hread) hleft⟩
    | some values => exact ⟨_, _, .rolled h hread hshown⟩

theorem exists_takes_of_single {sides : Int} (hthrows : step.Throws [sides])
    (h : ∀ value, roller.table.shown? [sides] = some [value] →
      ∃ answer next, roller.Takes step answer next) :
    ∃ answer next, roller.Takes step answer next := by
  cases hvalue : roller.table.source.value? roller.table.asked.size sides with
  | none => exact ⟨_, _, .exhausted hthrows (.here hvalue)⟩
  | some value => exact h value (Table.shown?_singleton_eq_some_iff.mpr hvalue)

theorem exists_takes (roller : Roller) (step : Step) :
    ∃ answer next, roller.Takes step answer next := by
  cases step with
  | roll text reason => exact exists_takes_of_rolls (.roll text reason)
  | d20 reason => exact exists_takes_of_rolls (.d20 reason)
  | d6 count reason => exact exists_takes_of_rolls (.d6 count reason)
  | between low high reason =>
    exact exists_takes_of_single (.between low high reason) fun _ h ↦ ⟨_, _, .drawn h⟩
  | sample sides => exact exists_takes_of_single (.sample sides) fun _ h ↦ ⟨_, _, .sampled h⟩
  | reseed seed =>
    cases hown : roller.ownSeed with
    | true => exact ⟨_, _, .reseeded hown⟩
    | false => exact ⟨_, _, .notReseeded hown⟩
  | readLog => exact ⟨_, _, .readLog⟩
  | emptyLogCopy => exact ⟨_, _, .emptyLogCopy⟩
  | clearLog => exact ⟨_, _, .clearLog⟩

theorem takes_iff : roller.Takes step answer next ↔ roller.take step = (answer, next) := by
  refine ⟨Takes.take_eq, fun h ↦ ?_⟩
  obtain ⟨answer', next', htakes⟩ := exists_takes roller step
  obtain ⟨rfl, rfl⟩ := Prod.mk.inj (htakes.take_eq.symm.trans h)
  exact htakes

end

end Roller

end Aventuria.Dice
