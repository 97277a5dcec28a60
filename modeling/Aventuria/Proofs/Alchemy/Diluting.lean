import Aventuria.Alchemy.Dilution
import Aventuria.Proofs.Check.Outcome

/-!
# Diluting again and again

A potion is diluted, what comes out of it is diluted again, and so on. Whether a dilution is made
does not depend on the quality of the potion, only on the rules and on its check (`Allowed`). Each
dilution goes down the tiers by its steps or spoils the potion (`Follows`). After a row of successes
just the number of steps taken together counts, and a spoiled potion stays spoiled whatever later
checks show (`dilutions_lower_quality`).
-/

set_option autoImplicit false
set_option relaxedAutoImplicit false

namespace Aventuria.Alchemy

open Dice (Throw Table)

/-! ### Steps down -/

namespace Quality

/-- What a quality becomes so many steps down: the tier that stands so much lower, or X below the
lowest one. M and X have no tier and stay what they are. -/
structure IsLowered (quality : Quality) (steps : Int) (lower : Quality) : Prop where
  tier : ∀ i, quality.tier? = some i → steps ≤ i → lower.tier? = some (i - steps)
  below : ∀ i, quality.tier? = some i → i < steps → lower = x
  diluted : quality = x → lower = x
  spoiled : quality = m → lower = m

theorem tier?_bounds {quality : Quality} {i : Int} (h : quality.tier? = some i) :
    0 ≤ i ∧ i ≤ 5 := by
  cases quality with
  | a | b | c | d | e | f => cases h; decide
  | m | x => cases h

theorem exists_ofTier {i : Int} (hlow : 0 ≤ i) (hhigh : i ≤ 5) :
    ∃ quality, ofTier i = .ok quality ∧ quality.tier? = some i := by
  obtain rfl | rfl | rfl | rfl | rfl | rfl :
      i = 0 ∨ i = 1 ∨ i = 2 ∨ i = 3 ∨ i = 4 ∨ i = 5 := by omega
  all_goals exact ⟨_, rfl, rfl⟩

theorem isLowered_of_tier?_eq_none {quality : Quality} (h : quality.tier? = none) (steps : Int) :
    quality.IsLowered steps quality where
  tier _ hi := nomatch h.symm.trans hi
  below _ hi := nomatch h.symm.trans hi
  diluted := id
  spoiled := id

theorem isLowered_of_tier?_eq_some {quality lower : Quality} {i steps : Int}
    (h : quality.tier? = some i) (htier : steps ≤ i → lower.tier? = some (i - steps))
    (hbelow : i < steps → lower = x) : quality.IsLowered steps lower where
  tier j hj := by
    obtain rfl := Option.some.inj (h.symm.trans hj)
    exact htier
  below j hj := by
    obtain rfl := Option.some.inj (h.symm.trans hj)
    exact hbelow
  diluted hx := by
    rw [hx] at h
    cases h
  spoiled hm := by
    rw [hm] at h
    cases h

/-- So many steps down, none of them upwards, there is always a quality. -/
theorem exists_diluted (quality : Quality) {steps : Int} (hsteps : 0 ≤ steps) :
    ∃ lower, quality.diluted steps = .ok lower ∧ quality.IsLowered steps lower := by
  rw [diluted.eq_def]
  cases htier : quality.tier? with
  | none => exact ⟨quality, rfl, isLowered_of_tier?_eq_none htier steps⟩
  | some i =>
    obtain ⟨-, hhigh⟩ := tier?_bounds htier
    by_cases hbelow : i < steps
    · refine ⟨x, if_pos (by omega), isLowered_of_tier?_eq_some htier (fun hle ↦ ?_) fun _ ↦ rfl⟩
      omega
    · obtain ⟨lower, hlower, hplace⟩ := exists_ofTier (i := i - steps) (by omega) (by omega)
      exact ⟨lower, hlower, isLowered_of_tier?_eq_some htier (fun _ ↦ hplace) fun hlt ↦
        absurd hlt hbelow⟩

/-- Steps add up. -/
theorem IsLowered.trans {quality between lower : Quality} {first later : Int}
    (hfirst : quality.IsLowered first between) (hlater : between.IsLowered later lower)
    (hsteps : 0 ≤ later) : quality.IsLowered (first + later) lower where
  tier i hi hle := by
    rw [hlater.tier (i - first) (hfirst.tier i hi (by omega)) (by omega), Int.sub_sub]
  below i hi hlt := by
    by_cases hbelow : i < first
    · exact hlater.diluted (hfirst.below i hi hbelow)
    · exact hlater.below (i - first) (hfirst.tier i hi (by omega)) (by omega)
  diluted hx := hlater.diluted (hfirst.diluted hx)
  spoiled hm := hlater.spoiled (hfirst.spoiled hm)

theorem isLowered_zero (quality : Quality) : quality.IsLowered 0 quality where
  tier i hi _ := by rw [hi, Int.sub_zero]
  below i hi hlt := by
    have := tier?_bounds hi
    omega
  diluted := id
  spoiled := id

end Quality

/-! ### One dilution -/

/-- A dilution that the rules allow, its check and the table after it. -/
structure Attempt.Allowed (attempt : Attempt) (table : Table) (check : Check.Outcome)
    (left : Table) : Prop where
  steps : 1 ≤ attempt.steps ∧ attempt.steps ≤ 10
  mastery : 0 ≤ attempt.mastery ∧ attempt.mastery ≤ max 0 attempt.rating
  available : ∀ points ∈ attempt.available, attempt.mastery ≤ points
  check : (Check.resolve attempt.rating (attempt.difficulty - attempt.facilitation)
    attempt.attributes attempt.mastery attempt.givenRolls).onTable table = (.ok check, left)

/-- What a dilution makes of a quality. -/
structure Dilution.Lowers (dilution : Dilution) (quality : Quality) : Prop where
  undiluted : dilution.undiluted = quality
  steps : 1 ≤ dilution.steps
  success : dilution.check.success = true → quality.IsLowered dilution.steps dilution.quality
  failure : dilution.check.success = false → dilution.quality = .m

theorem validateMastery_eq_ok_iff {most rating points : Int} :
    validateMastery most rating points = .ok () ↔ 0 ≤ points ∧ points ≤ most := by
  unfold validateMastery
  by_cases hnegative : points < 0
  · simp [hnegative, Int.not_le.mpr hnegative]
  · by_cases hlarge : most < points
    · simp [hnegative, hlarge, Int.not_le.mpr hlarge]
    · simp [hnegative, hlarge, Int.not_lt.mp hnegative, Int.not_lt.mp hlarge]

theorem validateAstral_eq_ok_iff {need : Int} {available : Option Int} :
    validateAstral need available = .ok () ↔ ∀ points ∈ available, need ≤ points := by
  cases available with
  | none => simp [validateAstral]
  | some points =>
    by_cases hlacking : points < need
    · simp [validateAstral, hlacking, Int.not_le.mpr hlacking]
    · simp [validateAstral, hlacking, Int.not_lt.mp hlacking]

theorem validateDilution_eq_ok_iff {steps rating mastery : Int} {available : Option Int} :
    validateDilution steps rating mastery available = .ok () ↔
      (1 ≤ steps ∧ steps ≤ 10) ∧ (0 ≤ mastery ∧ mastery ≤ max 0 rating) ∧
        ∀ points ∈ available, mastery ≤ points := by
  have hsteps : validateSteps steps = .ok () ↔ 1 ≤ steps ∧ steps ≤ 10 := by
    unfold validateSteps mostSteps
    by_cases h : 1 ≤ steps ∧ steps ≤ 10 <;> simp [h]
  rw [validateDilution, unit_bind_eq_ok_iff, unit_bind_eq_ok_iff, hsteps,
    validateMastery_eq_ok_iff, validateAstral_eq_ok_iff]

/-- When a dilution is made and what it comes to. The quality decides about the result only. -/
theorem Attempt.onTable_dilute_eq_ok_iff {attempt : Attempt} {quality : Quality}
    {dilution : Dilution} {table left : Table} :
    (attempt.dilute quality).onTable table = (.ok dilution, left) ↔
      ∃ check lower, attempt.Allowed table check left ∧
        dilutedQuality quality attempt.steps check.success = .ok lower ∧
        Dilution.mk check quality lower attempt.steps
          (attempt.difficulty - attempt.facilitation) attempt.mastery = dilution := by
  simp only [Attempt.dilute, Alchemy.dilute, Throw.onTable_bind_eq_ok_iff,
    Throw.onTable_ofExcept_eq_ok_iff, Throw.onTable_pure_eq_ok_iff]
  constructor
  · rintro ⟨_, _, ⟨hvalid, rfl⟩, check, after, hcheck, lower, _, ⟨hlower, rfl⟩, rfl, rfl⟩
    obtain ⟨hsteps, hmastery, havailable⟩ := validateDilution_eq_ok_iff.mp hvalid
    exact ⟨check, lower, ⟨hsteps, hmastery, havailable, hcheck⟩, hlower, rfl⟩
  · rintro ⟨check, lower, hallowed, hlower, rfl⟩
    have hvalid := validateDilution_eq_ok_iff.mpr
      ⟨hallowed.steps, hallowed.mastery, hallowed.available⟩
    exact ⟨(), _, ⟨hvalid, rfl⟩, check, _, hallowed.check, lower, _, ⟨hlower, rfl⟩, rfl, rfl⟩

/-- An allowed dilution lowers whatever quality it is made of. -/
theorem Attempt.Allowed.exists_dilution {attempt : Attempt} {table left : Table}
    {check : Check.Outcome} (h : attempt.Allowed table check left) (quality : Quality) :
    ∃ dilution, (attempt.dilute quality).onTable table = (.ok dilution, left) ∧
      dilution.check = check ∧ dilution.steps = attempt.steps ∧ dilution.Lowers quality := by
  have hsteps := h.steps.1
  cases hsuccess : check.success with
  | true =>
    have hnonneg : 0 ≤ attempt.steps := by omega
    obtain ⟨lower, hlower, hlowered⟩ := quality.exists_diluted hnonneg
    have hdiluted : dilutedQuality quality attempt.steps check.success = .ok lower := by
      rw [hsuccess]
      exact hlower
    refine ⟨_, Attempt.onTable_dilute_eq_ok_iff.mpr ⟨check, lower, h, hdiluted, rfl⟩, rfl, rfl,
      rfl, hsteps, fun _ ↦ hlowered, fun hfailure ↦ ?_⟩
    rw [hsuccess] at hfailure
    cases hfailure
  | false =>
    have hdiluted : dilutedQuality quality attempt.steps check.success = .ok .m := by
      rw [hsuccess]
      rfl
    refine ⟨_, Attempt.onTable_dilute_eq_ok_iff.mpr ⟨check, .m, h, hdiluted, rfl⟩, rfl, rfl,
      rfl, hsteps, fun hsuccess' ↦ ?_, fun _ ↦ rfl⟩
    rw [hsuccess] at hsuccess'
    cases hsuccess'

theorem Attempt.allowed_of_onTable {attempt : Attempt} {quality : Quality} {dilution : Dilution}
    {table left : Table} (h : (attempt.dilute quality).onTable table = (.ok dilution, left)) :
    attempt.Allowed table dilution.check left ∧ dilution.steps = attempt.steps ∧
      dilution.Lowers quality := by
  obtain ⟨check, lower, hallowed, -, rfl⟩ := Attempt.onTable_dilute_eq_ok_iff.mp h
  obtain ⟨dilution, hrun, -, -, hlowers⟩ := hallowed.exists_dilution quality
  rw [hrun] at h
  obtain rfl := Except.ok.inj (Prod.mk.inj h).1
  exact ⟨hallowed, rfl, hlowers⟩

/-! ### One dilution after the other -/

/-- Attempts that are allowed one after the other, their checks and the table after them. -/
inductive AllAllowed : Table → List Attempt → List Check.Outcome → Table → Prop
  | nil {table : Table} : AllAllowed table [] [] table
  | cons {table after left : Table} {attempt : Attempt} {attempts : List Attempt}
      {check : Check.Outcome} {checks : List Check.Outcome}
      (hfirst : attempt.Allowed table check after)
      (hrest : AllAllowed after attempts checks left) :
      AllAllowed table (attempt :: attempts) (check :: checks) left

/-- Dilutions that begin with a quality, each made of what the one before it has left. -/
inductive Follows : Quality → List Dilution → Prop
  | nil {quality : Quality} : Follows quality []
  | cons {quality : Quality} {dilution : Dilution} {dilutions : List Dilution}
      (hfirst : dilution.Lowers quality) (hrest : Follows dilution.quality dilutions) :
      Follows quality (dilution :: dilutions)

/-- The quality that dilutions leave. -/
def qualityAfter : Quality → List Dilution → Quality
  | quality, [] => quality
  | _, dilution :: dilutions => qualityAfter dilution.quality dilutions

def totalSteps (dilutions : List Dilution) : Int :=
  sum (dilutions.map Dilution.steps)

theorem totalSteps_cons (dilution : Dilution) (dilutions : List Dilution) :
    totalSteps (dilution :: dilutions) = dilution.steps + totalSteps dilutions := by
  rw [totalSteps, List.map_cons, sum, List.sum_cons]
  rfl

section
variable {quality : Quality} {before after : List Dilution}

theorem Follows.totalSteps_nonneg {dilutions : List Dilution} (h : Follows quality dilutions) :
    0 ≤ totalSteps dilutions := by
  induction h with
  | nil => exact Int.le_refl 0
  | cons hfirst _ ih =>
    have hsteps := hfirst.steps
    rw [totalSteps_cons]
    omega

/-- The later dilutions follow the quality that the earlier ones leave. -/
theorem Follows.of_append (h : Follows quality (before ++ after)) :
    Follows quality before ∧ Follows (qualityAfter quality before) after := by
  induction before generalizing quality with
  | nil => exact ⟨.nil, h⟩
  | cons dilution before ih =>
    cases h with
    | cons hfirst hrest =>
      obtain ⟨hbefore, hafter⟩ := ih hrest
      exact ⟨.cons hfirst hbefore, hafter⟩

theorem Follows.quality_of_failure {dilutions : List Dilution} (h : Follows quality dilutions) :
    ∀ dilution ∈ dilutions, dilution.check.success = false → dilution.quality = .m := by
  induction h with
  | nil => exact fun _ hdilution ↦ absurd hdilution List.not_mem_nil
  | cons hfirst _ ih => exact List.forall_mem_cons.mpr ⟨hfirst.failure, ih⟩

/-- Nothing comes of a potion that is spoiled, whether the check succeeds or not. -/
theorem Dilution.Lowers.spoiled {dilution : Dilution} (h : dilution.Lowers .m) :
    dilution.quality = .m ∧ dilution.success = false := by
  constructor
  · cases hsuccess : dilution.check.success with
    | true => exact (h.success hsuccess).spoiled rfl
    | false => exact h.failure hsuccess
  · rw [Dilution.success, h.undiluted]
    exact Bool.and_false _

theorem Follows.spoiled {dilutions : List Dilution} (h : Follows .m dilutions) :
    ∀ dilution ∈ dilutions, dilution.quality = .m ∧ dilution.success = false := by
  induction dilutions with
  | nil => exact fun _ hdilution ↦ absurd hdilution List.not_mem_nil
  | cons dilution dilutions ih =>
    cases h with
    | cons hfirst hrest =>
      rw [hfirst.spoiled.1] at hrest
      exact List.forall_mem_cons.mpr ⟨hfirst.spoiled, ih hrest⟩

/-- After successes the quality is lowered by all their steps together. -/
theorem Follows.isLowered {dilutions : List Dilution} (h : Follows quality dilutions)
    (hsuccess : ∀ dilution ∈ dilutions, dilution.check.success = true) :
    quality.IsLowered (totalSteps dilutions) (qualityAfter quality dilutions) := by
  induction h with
  | nil => exact Quality.isLowered_zero _
  | cons hfirst hrest ih =>
    obtain ⟨hfirst', hrest'⟩ := List.forall_mem_cons.mp hsuccess
    rw [totalSteps_cons]
    exact (hfirst.success hfirst').trans (ih hrest') hrest.totalSteps_nonneg

end

/-! ### Whole runs -/

theorem AllAllowed.exists_dilutions {table left : Table} {attempts : List Attempt}
    {checks : List Check.Outcome} (h : AllAllowed table attempts checks left) (start : Quality) :
    ∃ dilutions, (diluteAll start attempts).onTable table = (.ok dilutions, left) ∧
      dilutions.map Dilution.check = checks := by
  induction h generalizing start with
  | nil => exact ⟨[], rfl, rfl⟩
  | cons hfirst _ ih =>
    obtain ⟨dilution, hrun, rfl, -, -⟩ := hfirst.exists_dilution start
    obtain ⟨dilutions, hruns, rfl⟩ := ih dilution.quality
    refine ⟨dilution :: dilutions, ?_, rfl⟩
    refine Throw.onTable_bind_eq_ok_iff.mpr ⟨_, _, hrun, ?_⟩
    refine Throw.onTable_bind_eq_ok_iff.mpr ⟨_, _, hruns, ?_⟩
    exact Throw.onTable_pure _ _

theorem follows_of_onTable {start : Quality} {attempts : List Attempt} {dilutions : List Dilution}
    {table left : Table} (h : (diluteAll start attempts).onTable table = (.ok dilutions, left)) :
    AllAllowed table attempts (dilutions.map Dilution.check) left ∧
      dilutions.map Dilution.steps = attempts.map Attempt.steps ∧ Follows start dilutions := by
  induction attempts generalizing start table dilutions with
  | nil =>
    obtain ⟨rfl, rfl⟩ := Throw.onTable_pure_eq_ok_iff.mp h
    exact ⟨.nil, rfl, .nil⟩
  | cons attempt attempts ih =>
    obtain ⟨dilution, after, hrun, h⟩ := Throw.onTable_bind_eq_ok_iff.mp h
    obtain ⟨rest, last, hruns, h⟩ := Throw.onTable_bind_eq_ok_iff.mp h
    obtain ⟨rfl, rfl⟩ := Throw.onTable_pure_eq_ok_iff.mp h
    obtain ⟨hallowed, hsteps, hlowers⟩ := Attempt.allowed_of_onTable hrun
    obtain ⟨hallallowed, hallsteps, hfollows⟩ := ih hruns
    refine ⟨.cons hallowed hallallowed, ?_, .cons hlowers hfollows⟩
    rw [List.map_cons, List.map_cons, hsteps, hallsteps]

/-- Attempts are diluted one after the other exactly where each of them is allowed, whatever the
quality they start with. A failed check spoils the potion; what is left of a spoiled potion is
spoiled, and no later dilution of it is a success. As long as all checks succeed the potion stands
as much lower as the steps come to together. -/
theorem dilutions_lower_quality (start : Quality) (attempts : List Attempt) (table : Table) :
    (∀ checks left, AllAllowed table attempts checks left ↔
      ∃ dilutions, (diluteAll start attempts).onTable table = (.ok dilutions, left) ∧
        dilutions.map Dilution.check = checks) ∧
    ∀ dilutions left, (diluteAll start attempts).onTable table = (.ok dilutions, left) →
      dilutions.map Dilution.steps = attempts.map Attempt.steps ∧
      (∀ dilution ∈ dilutions, dilution.check.success = false → dilution.quality = .m) ∧
      ∀ before after, before ++ after = dilutions →
        (qualityAfter start before = .m →
          ∀ dilution ∈ after, dilution.quality = .m ∧ dilution.success = false) ∧
        ((∀ dilution ∈ before, dilution.check.success = true) →
          start.IsLowered (sum (before.map Dilution.steps)) (qualityAfter start before)) := by
  refine ⟨fun checks left ↦ ⟨fun h ↦ h.exists_dilutions start, ?_⟩, fun dilutions left h ↦ ?_⟩
  · rintro ⟨dilutions, hrun, rfl⟩
    exact (follows_of_onTable hrun).1
  · obtain ⟨-, hsteps, hfollows⟩ := follows_of_onTable h
    refine ⟨hsteps, hfollows.quality_of_failure, ?_⟩
    rintro before after rfl
    obtain ⟨hbefore, hafter⟩ := hfollows.of_append
    refine ⟨fun hspoiled ↦ ?_, hbefore.isLowered⟩
    rw [hspoiled] at hafter
    exact hafter.spoiled

/-- Two steps down from D, a failure, and a check that succeeds too late. -/
theorem dilutions_lower_quality_until_spoiled :
    ∃ first second third, (diluteAll .d
        [⟨2, 10, [12, 13, 14], 5, 2, 0, none, some [5, 5, 5]⟩,
          ⟨1, 3, [12, 13, 14], 2, 0, 0, none, some [20, 20, 5]⟩,
          ⟨3, 10, [12, 13, 14], 0, 0, 4, some 6, some [5, 5, 5]⟩]).onTable
        (Table.fresh (.constant 1)) =
          (.ok [first, second, third], Table.fresh (.constant 1)) ∧
      first.quality = .b ∧ Quality.IsLowered .d 2 first.quality ∧
      second.check.success = false ∧ second.quality = .m ∧
      third.check.success = true ∧ third.success = false ∧ third.quality = .m := by
  obtain ⟨-, hlaws⟩ := dilutions_lower_quality .d
    [⟨2, 10, [12, 13, 14], 5, 2, 0, none, some [5, 5, 5]⟩,
      ⟨1, 3, [12, 13, 14], 2, 0, 0, none, some [20, 20, 5]⟩,
      ⟨3, 10, [12, 13, 14], 0, 0, 4, some 6, some [5, 5, 5]⟩] (Table.fresh (.constant 1))
  obtain ⟨-, hfailed, hparts⟩ := hlaws [_, _, _] _ rfl
  have hspoiled := hfailed _ (List.mem_cons_of_mem _ List.mem_cons_self) rfl
  have hlowered := (hparts [_] [_, _] rfl).2 (List.forall_mem_singleton.mpr rfl)
  have hlast := (hparts [_, _] [_] rfl).1 hspoiled _ List.mem_cons_self
  exact ⟨_, _, _, rfl, rfl, hlowered, rfl, hspoiled, rfl, hlast.2, hlast.1⟩

end Aventuria.Alchemy
