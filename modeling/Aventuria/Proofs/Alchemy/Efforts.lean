import Aventuria.Proofs.Alchemy.Diluting
import Aventuria.Proofs.Rounding

/-!
# Efforts that a brew accepts

What a brewer may take upon himself is bounded by the difficulty of the recipe and by his rating,
but nobody has to take on anything (`Effort.Permitted`). A brew accepts the efforts that are
permitted as long as neither the rating nor the difficulty is negative; else even no handicap and no
mastery exceed their bounds, and the brew is refused before any die is thrown. The main result is
`efforts_are_accepted_iff`.
-/

set_option autoImplicit false
set_option relaxedAutoImplicit false

namespace Aventuria.Alchemy

open Dice (Throw Table)

/-! ### Bounds -/

/-- What a brewer may take upon himself: no handicap, or one of at least two points within half as
much again as the difficulty; mastery up to half of a rating that is not negative; and a charge,
where all the astral points needed are available. -/
structure Effort.Permitted (effort : Effort) (rating difficulty : Int) : Prop where
  handicap : effort.handicap = 0 ∨
    2 ≤ effort.handicap ∧ effort.handicap ≤ ⌈(3 / 2 * difficulty : ℚ)⌉
  mastery : 0 ≤ effort.mastery ∧ effort.mastery ≤ max 0 (rating / 2)
  charging : 0 ≤ effort.charging
  available : ∀ points ∈ effort.available, effort.astralCost ≤ points

/-- No risk and no effort at all. -/
def Effort.idle (available : Option Int) : Effort :=
  ⟨0, 0, 0, available⟩

theorem validateHandicap_eq_ok_iff {most handicap : Int} :
    validateHandicap most handicap = .ok () ↔
      (handicap = 0 ∨ 2 ≤ handicap) ∧ handicap ≤ most := by
  unfold validateHandicap
  by_cases hsmall : handicap ≠ 0 ∧ handicap < 2
  · simp only [if_pos hsmall, reduceCtorEq, false_iff]
    omega
  · by_cases hlarge : most < handicap
    · simp only [if_neg hsmall, if_pos hlarge, reduceCtorEq, false_iff]
      omega
    · simp only [if_neg hsmall, if_neg hlarge, true_iff]
      omega

theorem validateCharging_eq_ok_iff {points : Int} :
    validateCharging points = .ok () ↔ 0 ≤ points := by
  unfold validateCharging
  by_cases hnegative : points < 0
  · simp [hnegative]
  · simp [hnegative, Int.not_lt.mp hnegative]

theorem Effort.validate_eq_ok_iff {effort : Effort} {rating difficulty : Int} :
    effort.validate rating difficulty = .ok () ↔
      ∃ most, mostHandicap difficulty = .ok most ∧
        ((effort.handicap = 0 ∨ 2 ≤ effort.handicap) ∧ effort.handicap ≤ most) ∧
          (0 ≤ effort.mastery ∧ effort.mastery ≤ rating / 2) ∧ 0 ≤ effort.charging ∧
            ∀ points ∈ effort.available, effort.astralCost ≤ points := by
  rw [Effort.validate, bind_eq_ok_iff]
  simp only [unit_bind_eq_ok_iff, validateHandicap_eq_ok_iff, validateMastery_eq_ok_iff,
    validateCharging_eq_ok_iff, validateAstral_eq_ok_iff]

theorem mostHandicap_eq_ok {difficulty : Int} (hexact : Rounding.IsExact difficulty) :
    mostHandicap difficulty = .ok ⌈(3 / 2 * difficulty : ℚ)⌉ :=
  Rounding.oneAndAHalf_of_isExact hexact

/-- The highest handicap of a difficulty that is formed without loss, as it is computed. -/
theorem mostHandicap_of_le {difficulty : Int}
    (h : 3 * difficulty.natAbs ≤ 2 ^ Rounding.precision) :
    mostHandicap difficulty = .ok (-(-(3 * difficulty) / 2)) := by
  rw [mostHandicap_eq_ok (Rounding.isExact_of_le h), Rounding.ceil_three_halves]

/-- Only a difficulty below zero has a highest handicap below zero. -/
theorem ceil_nonneg_iff (difficulty : Int) :
    0 ≤ ⌈(3 / 2 * difficulty : ℚ)⌉ ↔ 0 ≤ difficulty := by
  rw [Rounding.ceil_three_halves]
  omega

/-- An effort passes when it is permitted and neither of the bounds that it has to keep is
negative. -/
theorem Effort.validate_eq_ok_iff_permitted {effort : Effort} {rating difficulty : Int}
    (hexact : Rounding.IsExact difficulty) :
    effort.validate rating difficulty = .ok () ↔
      effort.Permitted rating difficulty ∧ 0 ≤ rating ∧ 0 ≤ difficulty := by
  have hmost := mostHandicap_eq_ok hexact
  rw [Effort.validate_eq_ok_iff, ← ceil_nonneg_iff difficulty]
  constructor
  · rintro ⟨most, hmost', ⟨hhandicap, hle⟩, ⟨hmastery, hrating⟩, hcharging, havailable⟩
    obtain rfl := Except.ok.inj (hmost.symm.trans hmost')
    exact ⟨⟨by omega, ⟨hmastery, by omega⟩, hcharging, havailable⟩, by omega, by omega⟩
  · rintro ⟨hpermitted, hrating, hdifficulty⟩
    have hhandicap := hpermitted.handicap
    have hmastery := hpermitted.mastery
    exact ⟨_, hmost, by omega, by omega, hpermitted.charging, hpermitted.available⟩

theorem permitted_idle (rating difficulty : Int) {available : Option Int}
    (h : ∀ points ∈ available, 0 ≤ points) : (Effort.idle available).Permitted rating difficulty where
  handicap := .inl rfl
  mastery := ⟨Int.le_refl 0, Int.le_max_left 0 _⟩
  charging := Int.le_refl 0
  available := h

/-! ### Runs -/

section
variable {rating : Int} {attributes rolls : List Int} {recipe : Recipe} {effort : Effort}
  {givenRolls : Option (List Int)} {table after : Table}

/-- Every check comes to a brew while the dice do not run out. -/
theorem exists_onTable_finish (hendless : table.source.Endless) (modifier : Int) (effort : Effort)
    (check : Check.Outcome) :
    ∃ result left, (finish modifier effort check).onTable table = (.ok result, left) := by
  unfold finish
  cases check.success with
  | true =>
    obtain ⟨dice, left, hdice, -⟩ :=
      (qualitySpec.asks_roll "Brewing quality").onTable_of_endless hendless
    exact ⟨_, left, Throw.onTable_bind_eq_ok_iff.mpr ⟨dice, left, hdice, rfl⟩⟩
  | false => exact ⟨_, table, rfl⟩

theorem exists_onTable_brew (hlength : attributes.length = 3)
    (hrolls : Check.Rolls table givenRolls rolls after) (hvalid : Check.ValidRolls rolls)
    (hendless : table.source.Endless)
    (hpasses : effort.validate rating recipe.difficulty = .ok ()) :
    ∃ result left, (brew rating attributes recipe effort givenRolls).onTable table =
      (.ok result, left) := by
  obtain ⟨-, -, -, ⟨hmastery, -⟩, -⟩ := Effort.validate_eq_ok_iff.mp hpasses
  have hafter : after.source.Endless := by
    cases hrolls with
    | given | thrown => exact hendless
  obtain ⟨result, left, hfinish⟩ :=
    exists_onTable_finish hafter (recipe.modifier effort.handicap) effort _
  refine ⟨result, left, Throw.onTable_bind_eq_ok_iff.mpr ⟨(), table, ?_, ?_⟩⟩
  · exact Throw.onTable_ofExcept_eq_ok_iff.mpr ⟨hpasses, rfl⟩
  · exact Throw.onTable_bind_eq_ok_iff.mpr ⟨_, after, Check.onTable_resolve_eq_ok_iff.mpr
      ⟨hlength, hmastery, rolls, hrolls, hvalid, rfl⟩, hfinish⟩

theorem onTable_brew_of_error {fault : Fault}
    (h : effort.validate rating recipe.difficulty = .error fault) :
    (brew rating attributes recipe effort givenRolls).onTable table = (.error fault, table) :=
  Throw.onTable_bind_of_error (by rw [Throw.onTable_ofExcept, h]) _

/-- An effort that passes leaves the check to be made and finished. -/
theorem onTable_brew_of_ok (h : effort.validate rating recipe.difficulty = .ok ()) :
    (brew rating attributes recipe effort givenRolls).onTable table =
      (Check.resolve rating (recipe.modifier effort.handicap) attributes effort.mastery givenRolls
        >>= finish (recipe.modifier effort.handicap) effort).onTable table := by
  rw [brew, h]
  rfl

end

/-- Even without any effort, a brewer with a rating below zero is refused, and so is everyone who
brews a recipe with a difficulty below zero. -/
theorem refused_without_effort :
    ((Effort.idle none).Permitted (-1) 0 ∧
      (brew (-1) [14, 13, 12] ⟨0, [], 0⟩ (.idle none) (some [5, 5, 5])).onTable
          (Table.fresh (.constant 1)) =
        (.error (.masteryTooLarge (-1) (-1) 0), Table.fresh (.constant 1))) ∧
    (Effort.idle none).Permitted 10 (-1) ∧
      (brew 10 [14, 13, 12] ⟨-1, [], 0⟩ (.idle none) (some [5, 5, 5])).onTable
          (Table.fresh (.constant 1)) =
        (.error (.handicapTooLarge (-1) 0), Table.fresh (.constant 1)) := by
  have hzero : mostHandicap 0 = .ok 0 := by
    rw [mostHandicap_eq_ok (Rounding.isExact_of_le (by decide)), Rounding.ceil_three_halves]
    rfl
  have hnegative : mostHandicap (-1) = .ok (-1) := by
    rw [mostHandicap_eq_ok (Rounding.isExact_of_le (by decide)), Rounding.ceil_three_halves]
    rfl
  refine ⟨⟨permitted_idle _ _ nofun, onTable_brew_of_error ?_⟩, permitted_idle _ _ nofun,
    onTable_brew_of_error ?_⟩
  · rw [Effort.validate, hzero]
    rfl
  · rw [Effort.validate, hnegative]
    rfl

/-- With valid rolls, given or thrown, a brew accepts an effort just when it is permitted and
neither the rating nor the difficulty is negative. Any other effort is refused before a die is
thrown, also one that takes nothing upon itself, which is permitted always. -/
theorem efforts_are_accepted_iff {rating : Int} {attributes rolls : List Int} {recipe : Recipe}
    {givenRolls : Option (List Int)} {table after : Table} (hlength : attributes.length = 3)
    (hexact : Rounding.IsExact recipe.difficulty)
    (hrolls : Check.Rolls table givenRolls rolls after) (hvalid : Check.ValidRolls rolls)
    (hendless : table.source.Endless) (effort : Effort) :
    ((∃ result left, (brew rating attributes recipe effort givenRolls).onTable table =
        (.ok result, left)) ↔
      effort.Permitted rating recipe.difficulty ∧ 0 ≤ rating ∧ 0 ≤ recipe.difficulty) ∧
    ((∃ fault, (brew rating attributes recipe effort givenRolls).onTable table =
        (.error fault, table)) ↔
      ¬ (effort.Permitted rating recipe.difficulty ∧ 0 ≤ rating ∧ 0 ≤ recipe.difficulty)) ∧
    ∀ available : Option Int, (∀ points ∈ available, 0 ≤ points) →
      (Effort.idle available).Permitted rating recipe.difficulty := by
  rw [← Effort.validate_eq_ok_iff_permitted hexact]
  refine ⟨⟨?_, exists_onTable_brew hlength hrolls hvalid hendless⟩, ⟨?_, ?_⟩,
    fun available ↦ permitted_idle rating recipe.difficulty⟩
  · rintro ⟨result, left, hrun⟩
    cases hjudged : effort.validate rating recipe.difficulty with
    | ok => rfl
    | error fault =>
      rw [onTable_brew_of_error hjudged] at hrun
      cases hrun
  · rintro ⟨fault, hrun⟩ hpasses
    obtain ⟨result, left, hrun'⟩ := exists_onTable_brew hlength hrolls hvalid hendless hpasses
    rw [hrun] at hrun'
    cases hrun'
  · intro hfails
    cases hjudged : effort.validate rating recipe.difficulty with
    | ok => exact absurd hjudged hfails
    | error fault => exact ⟨fault, onTable_brew_of_error hjudged⟩

/-- The highest handicap that a recipe allows is accepted of a brewer who pays for mastery and for a
charge with his last astral points. -/
theorem efforts_are_accepted_iff_at_the_limit :
    ([14, 13, 12].length = 3 ∧ Rounding.IsExact 5 ∧ Check.ValidRolls [5, 6, 7] ∧
      (Dice.Source.highest).Endless) ∧
      (∃ result left, (brew 7 [14, 13, 12] ⟨5, [.sensible], -1⟩ ⟨8, 3, 4, some 11⟩
        (some [5, 6, 7])).onTable (Table.fresh .highest) = (.ok result, left)) ∧
      ∃ fault, (brew 7 [14, 13, 12] ⟨5, [.sensible], -1⟩ ⟨9, 3, 4, some 11⟩
        (some [5, 6, 7])).onTable (Table.fresh .highest) =
          (.error fault, Table.fresh .highest) := by
  have hexact : Rounding.IsExact 5 := Rounding.isExact_of_le (by decide)
  have hvalid : Check.ValidRolls [5, 6, 7] := ⟨rfl, by decide⟩
  have hceil : ⌈(3 / 2 * (5 : Int) : ℚ)⌉ = 8 := Rounding.ceil_three_halves 5
  have hlaw := @efforts_are_accepted_iff 7 [14, 13, 12] [5, 6, 7] ⟨5, [.sensible], -1⟩ _
    (Table.fresh .highest) _ rfl hexact (.given _) hvalid Dice.Source.endless_highest
  refine ⟨⟨rfl, hexact, hvalid, Dice.Source.endless_highest⟩, (hlaw _).1.mpr ?_,
    (hlaw _).2.1.mpr ?_⟩
  · refine ⟨⟨.inr ⟨by decide, ?_⟩, by decide, by decide, by decide⟩, by decide, by decide⟩
    rw [hceil]
  · rintro ⟨hpermitted, -, -⟩
    have hhandicap := hpermitted.handicap
    rw [hceil] at hhandicap
    revert hhandicap
    decide

end Aventuria.Alchemy
