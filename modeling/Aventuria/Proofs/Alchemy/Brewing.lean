import Aventuria.Proofs.Alchemy.Charging
import Aventuria.Proofs.Check.Rating

/-!
# What comes of a brew

A brew makes its check with the mastery that was paid for, all of which counts: it is bounded by
half of the rating, and up to there the exchange does not yet double the rating
(`boostedRating_of_le_half`). A failed check spoils the brew, and nothing more is thrown. After a
success two dice are thrown, and the quality is read off the points that they make with what the
brewer took upon himself (`finishes_of_onTable`). The main result is `brews_are_graded`.
-/

set_option autoImplicit false
set_option relaxedAutoImplicit false

namespace Aventuria.Alchemy

open Dice (Throw Table)

/-- The sizes of the dice that are thrown for the quality of a brew. -/
def qualitySizes : List Int := [6, 6]

/-! ### Qualities -/

namespace Quality

/-- Six points make a step of the ladder, and nothing leads beyond its ends. -/
theorem tier?_ofPoints (points : Int) :
    (ofPoints points).tier? = some (max 0 (min 5 ((points - 1) / 6))) := by
  unfold ofPoints
  split_ifs <;> exact congrArg some (by omega)

/-- M has no place on the ladder. -/
theorem ofPoints_ne_m (points : Int) : ofPoints points ≠ m := by
  intro hm
  have htier := tier?_ofPoints points
  rw [hm] at htier
  cases htier

end Quality

/-! ### Finishing a brew -/

/-- How a brew whose check has been made is finished, and the table after it. -/
inductive Finishes (effort : Effort) (checked : Table) (result : Brew) : Table → Prop
  | spoiled (hfailure : result.check.success = false) (hdice : result.qualityDice = [])
      (hpoints : result.qualityPoints = 0) (hquality : result.quality = .m) :
      Finishes effort checked result checked
  | earned {first second : Int} (hsuccess : result.check.success = true)
      (hshown : checked.shown? qualitySizes = some [first, second])
      (hdice : result.qualityDice = [first, second])
      (hpoints : result.qualityPoints =
        result.check.extraPoints + 2 * effort.handicap + effort.charging + (first + second))
      (hquality : result.quality = .ofPoints result.qualityPoints) :
      Finishes effort checked result (checked.askAll qualitySizes)

section
variable {effort : Effort} {checked left : Table} {result : Brew}

theorem Finishes.of_failure (h : Finishes effort checked result left)
    (hfailure : result.check.success = false) :
    result.quality = .m ∧ result.qualityPoints = 0 ∧ result.qualityDice = [] ∧ checked = left := by
  cases h with
  | spoiled _ hdice hpoints hquality => exact ⟨hquality, hpoints, hdice, rfl⟩
  | earned hsuccess =>
    rw [hfailure] at hsuccess
    cases hsuccess

theorem Finishes.of_success (h : Finishes effort checked result left)
    (hsuccess : result.check.success = true) :
    ∃ first second, checked.shown? qualitySizes = some [first, second] ∧
      result.qualityDice = [first, second] ∧ checked.askAll qualitySizes = left ∧
      result.qualityPoints =
        result.check.extraPoints + 2 * effort.handicap + effort.charging + (first + second) ∧
      result.quality = .ofPoints result.qualityPoints := by
  cases h with
  | spoiled hfailure =>
    rw [hsuccess] at hfailure
    cases hfailure
  | earned _ hshown hdice hpoints hquality =>
    exact ⟨_, _, hshown, hdice, rfl, hpoints, hquality⟩

theorem Finishes.spoiled_iff (h : Finishes effort checked result left) :
    result.quality = .m ↔ result.check.success = false := by
  refine ⟨fun hspoiled ↦ ?_, fun hfailure ↦ (h.of_failure hfailure).1⟩
  cases hcheck : result.check.success with
  | false => rfl
  | true =>
    obtain ⟨_, _, -, -, -, -, hquality⟩ := h.of_success hcheck
    exact absurd (hquality.symm.trans hspoiled) (Quality.ofPoints_ne_m _)

end

section
variable {rating modifier : Int} {attributes : List Int} {recipe : Recipe} {effort : Effort}
  {givenRolls : Option (List Int)} {table checked left : Table} {check : Check.Outcome}
  {result : Brew}

/-- The quality dice are two, whatever they show. -/
theorem exists_shown_of_roll {roll : Dice.Roll}
    (h : (qualitySpec.roll "Brewing quality").onTable table = (.ok roll, left)) :
    ∃ first second, table.shown? qualitySizes = some [first, second] ∧
      table.askAll qualitySizes = left ∧ roll.values = [first, second] ∧
        roll.total = first + second := by
  obtain ⟨values, hshown, hleft, rfl⟩ := (qualitySpec.asks_roll _).of_onTable h
  obtain ⟨first, second, rfl⟩ := List.length_eq_two.mp (Table.length_of_shown? hshown)
  refine ⟨first, second, hshown, hleft, rfl, ?_⟩
  show first + (second + 0) + 0 = first + second
  omega

theorem finishes_of_onTable
    (h : (finish modifier effort check).onTable checked = (.ok result, left)) :
    result.check = check ∧ result.astralCost = effort.astralCost ∧
      Finishes effort checked result left := by
  unfold finish at h
  cases hsuccess : check.success with
  | true =>
    rw [hsuccess, if_pos rfl] at h
    obtain ⟨roll, after, hroll, h⟩ := Throw.onTable_bind_eq_ok_iff.mp h
    obtain ⟨rfl, rfl⟩ := Throw.onTable_pure_eq_ok_iff.mp h
    obtain ⟨first, second, hshown, rfl, hvalues, htotal⟩ := exists_shown_of_roll hroll
    refine ⟨rfl, rfl, .earned hsuccess hshown hvalues ?_ rfl⟩
    rw [← htotal]
    rfl
  | false =>
    rw [hsuccess, if_neg Bool.false_ne_true] at h
    obtain ⟨rfl, rfl⟩ := Throw.onTable_pure_eq_ok_iff.mp h
    exact ⟨rfl, rfl, .spoiled hsuccess rfl rfl rfl⟩

/-- An accepted brew made its check with the rolls of that check, and was finished after it. -/
theorem finishes_of_brew
    (h : (brew rating attributes recipe effort givenRolls).onTable table = (.ok result, left)) :
    effort.validate rating recipe.difficulty = .ok () ∧ result.astralCost = effort.astralCost ∧
      ∃ checked, Check.Rolls table givenRolls result.check.rolls checked ∧
        (Check.resolve rating (recipe.modifier effort.handicap) attributes effort.mastery
            givenRolls).onTable table = (.ok result.check, checked) ∧
        result.check = Check.judge (Check.boostedRating rating effort.mastery)
          (recipe.modifier effort.handicap) attributes result.check.rolls ∧
        Finishes effort checked result left := by
  obtain ⟨⟨⟩, _, hjudged, h⟩ := Throw.onTable_bind_eq_ok_iff.mp h
  obtain ⟨hvalid, rfl⟩ := Throw.onTable_ofExcept_eq_ok_iff.mp hjudged
  obtain ⟨check, checked, hcheck, h⟩ := Throw.onTable_bind_eq_ok_iff.mp h
  obtain ⟨rfl, hcost, hfinishes⟩ := finishes_of_onTable h
  obtain ⟨-, -, rolls, hrolls, -, hjudge⟩ := Check.onTable_resolve_eq_ok_iff.mp hcheck
  obtain rfl : result.check.rolls = rolls := by rw [← hjudge]; rfl
  exact ⟨hvalid, hcost, checked, hrolls, hcheck, hjudge.symm, hfinishes⟩

end

/-! ### Bounds of an accepted effort -/

/-- Up to half of the rating, every exchanged point counts. -/
theorem boostedRating_of_le_half {rating mastery : Int} (hnonneg : 0 ≤ mastery)
    (hhalf : mastery ≤ rating / 2) :
    Check.boostedRating rating mastery = rating + 2 * mastery := by
  rw [Check.boostedRating_of_nonneg (by omega)]
  omega

theorem Effort.astralCost_eq {effort : Effort} (h : 0 ≤ effort.charging) :
    effort.astralCost =
      effort.mastery + if effort.charging = 0 then 0 else 2 ^ (effort.charging - 1).toNat := by
  rw [Effort.astralCost]
  split
  · next hzero => rw [hzero, chargingCost_of_nonpos (Int.le_refl 0)]
  · next hpositive => rw [chargingCost_of_pos (by omega)]

/-! ### Whole brews -/

/-- What the quality of a brew says about its check, its points and its dice. A spoiled brew has no
points, and no die is thrown after its check; else two dice are, and with them there are at least
two points, six of which make a step from A to F. -/
structure Brew.Graded (result : Brew) (effort : Effort) (checked left : Table) : Prop where
  spoiled_iff : result.quality = .m ↔ result.check.success = false
  of_failure : result.check.success = false →
    result.qualityPoints = 0 ∧ result.qualityDice = [] ∧ checked = left
  of_success : result.check.success = true → ∃ first second,
    checked.shown? qualitySizes = some [first, second] ∧
    result.qualityDice = [first, second] ∧ checked.askAll qualitySizes = left ∧
    result.qualityPoints =
      result.check.extraPoints + 2 * effort.handicap + effort.charging + (first + second) ∧
    2 ≤ result.qualityPoints ∧
    result.quality.tier? = some (min 5 ((result.qualityPoints - 1) / 6))

theorem Finishes.graded {effort : Effort} {checked left : Table} {result : Brew}
    (h : Finishes effort checked result left) (hrange : checked.source.InRange)
    (hextra : result.check.success = true → 0 ≤ result.check.extraPoints)
    (hhandicap : 0 ≤ effort.handicap) (hcharging : 0 ≤ effort.charging) :
    result.Graded effort checked left where
  spoiled_iff := h.spoiled_iff
  of_failure hfailure := (h.of_failure hfailure).2
  of_success hsuccess := by
    obtain ⟨first, second, hshown, hdice, hleft, hpoints, hquality⟩ := h.of_success hsuccess
    have hnonneg := hextra hsuccess
    have hfaces := Table.range_of_shown? hrange (by decide) 2 hshown
    have hfirst := hfaces first List.mem_cons_self
    have hsecond := hfaces second (List.mem_cons_of_mem _ List.mem_cons_self)
    have htwo : 2 ≤ result.qualityPoints := by omega
    refine ⟨first, second, hshown, hdice, hleft, hpoints, htwo, ?_⟩
    rw [hquality, Quality.tier?_ofPoints]
    exact congrArg some (by omega)

/-- Wherever a brew comes to a result, its check was made with the whole mastery, the astral points
spent are those of the mastery and of the charge, and no more than were available. What the check is
finished to is graded as the rules have it, on the dice that the check has left. -/
theorem brews_are_graded {rating : Int} {attributes : List Int} {recipe : Recipe} {effort : Effort}
    {givenRolls : Option (List Int)} {table left : Table} {result : Brew}
    (hrange : table.source.InRange)
    (h : (brew rating attributes recipe effort givenRolls).onTable table = (.ok result, left)) :
    result.check.effectiveRating = rating + 2 * effort.mastery ∧
    (result.astralCost =
        effort.mastery + if effort.charging = 0 then 0 else 2 ^ (effort.charging - 1).toNat) ∧
    (∀ points ∈ effort.available, result.astralCost ≤ points) ∧
    ∃ checked, Check.Rolls table givenRolls result.check.rolls checked ∧
      (Check.resolve rating (recipe.modifier effort.handicap) attributes effort.mastery
          givenRolls).onTable table = (.ok result.check, checked) ∧
      result.Graded effort checked left := by
  obtain ⟨hvalid, hcost, checked, hrolls, hcheck, hjudge, hfinishes⟩ := finishes_of_brew h
  obtain ⟨-, -, ⟨hhandicap, -⟩, ⟨hmastery, hhalf⟩, hcharging, havailable⟩ :=
    Effort.validate_eq_ok_iff.mp hvalid
  have hskill : result.check.effectiveRating = rating + 2 * effort.mastery := by
    rw [hjudge, ← boostedRating_of_le_half hmastery hhalf]
    rfl
  have hextra : result.check.success = true → 0 ≤ result.check.extraPoints := by
    rw [hjudge]
    exact (Check.judge_extraPoints_sign _ _ _ _).1
  have hsource : checked.source.InRange := by
    cases hrolls with
    | given | thrown => exact hrange
  refine ⟨hskill, ?_, ?_, checked, hrolls, hcheck,
    hfinishes.graded hsource hextra (by omega) hcharging⟩
  · rw [hcost, Effort.astralCost_eq hcharging]
  · rw [hcost]
    exact havailable

/-- An odd rating is raised to one below its double, and seven points of the check and the brewer
make a potion of quality D with two sixes. With two twenties nothing more is thrown. -/
theorem brews_are_graded_at_half_mastery :
    (Table.fresh .highest).source.InRange ∧
      (∃ result left, (brew 7 [14, 13, 12] ⟨5, [.sensible], -1⟩ ⟨2, 3, 1, some 4⟩
          (some [16, 6, 7])).onTable (Table.fresh .highest) = (.ok result, left) ∧
        result.check.effectiveRating = 13 ∧ result.astralCost = 4 ∧ result.qualityPoints = 19 ∧
        result.quality = .d ∧ left.asked = #[6, 6] ∧
        result.Graded ⟨2, 3, 1, some 4⟩ (Table.fresh .highest) left) ∧
      ∃ result, (brew 7 [14, 13, 12] ⟨5, [.sensible], -1⟩ ⟨2, 3, 1, some 4⟩
          (some [20, 6, 20])).onTable (Table.fresh .highest) =
            (.ok result, Table.fresh .highest) ∧
        result.quality = .m ∧
        result.Graded ⟨2, 3, 1, some 4⟩ (Table.fresh .highest) (Table.fresh .highest) := by
  have hrange : (Table.fresh .highest).source.InRange := Dice.Source.inRange_highest
  have hvalid : Effort.validate ⟨2, 3, 1, some 4⟩ 7 5 = .ok () := by
    rw [Effort.validate, mostHandicap_of_le (by decide)]
    rfl
  have hgraded : ∀ rolls result left, (brew 7 [14, 13, 12] ⟨5, [.sensible], -1⟩ ⟨2, 3, 1, some 4⟩
      (some rolls)).onTable (Table.fresh .highest) = (.ok result, left) →
        result.check.effectiveRating = 13 ∧
          result.Graded ⟨2, 3, 1, some 4⟩ (Table.fresh .highest) left := by
    intro rolls result left hrun
    obtain ⟨hskill, -, -, _, hrolls, -, hgraded⟩ := brews_are_graded hrange hrun
    cases hrolls with
    | given => exact ⟨hskill, hgraded⟩
  have hearned : ∃ result left, (brew 7 [14, 13, 12] ⟨5, [.sensible], -1⟩ ⟨2, 3, 1, some 4⟩
      (some [16, 6, 7])).onTable (Table.fresh .highest) = (.ok result, left) ∧
        result.astralCost = 4 ∧ result.qualityPoints = 19 ∧ result.quality = .d ∧
        left.asked = #[6, 6] :=
    ⟨_, _, Eq.trans (onTable_brew_of_ok hvalid) rfl, rfl, rfl, rfl, rfl⟩
  have hspoiled : ∃ result, (brew 7 [14, 13, 12] ⟨5, [.sensible], -1⟩ ⟨2, 3, 1, some 4⟩
      (some [20, 6, 20])).onTable (Table.fresh .highest) = (.ok result, Table.fresh .highest) ∧
        result.quality = .m :=
    ⟨_, Eq.trans (onTable_brew_of_ok hvalid) rfl, rfl⟩
  obtain ⟨result, left, hrun, hcost, hpoints, hquality, hasked⟩ := hearned
  obtain ⟨failed, hrun', hquality'⟩ := hspoiled
  exact ⟨hrange,
    ⟨result, left, hrun, (hgraded _ _ _ hrun).1, hcost, hpoints, hquality, hasked,
      (hgraded _ _ _ hrun).2⟩,
    failed, hrun', hquality', (hgraded _ _ _ hrun').2⟩

end Aventuria.Alchemy
