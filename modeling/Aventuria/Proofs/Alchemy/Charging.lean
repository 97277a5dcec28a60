import Mathlib.Algebra.Order.Ring.Int
import Aventuria.Proofs.Alchemy.Efforts

/-!
# How far a brew can be charged

The first point of a charge costs one astral point and every further one doubles the price, so what
a charge costs grows with it (`chargingCost_mono`). The most points that can be charged are searched
for one after the other. The search comes to an end, and there it has found the charges that can be
paid: they are those up to its result (`chargingCost_le_iff`). A brew without mastery accepts just
these charges, which is part of the main result, `charges_are_limited`.
-/

set_option autoImplicit false
set_option relaxedAutoImplicit false

namespace Aventuria.Alchemy

open Dice (Throw Table)

/-! ### What a charge costs -/

theorem chargingCost_of_nonpos {points : Int} (h : points ≤ 0) : chargingCost points = 0 :=
  if_pos h

theorem chargingCost_of_pos {points : Int} (h : 0 < points) :
    chargingCost points = 2 ^ (points - 1).toNat := by
  rw [chargingCost, if_neg (Int.not_le.mpr h)]
  exact Nat.cast_pow 2 (points - 1).toNat

theorem chargingCost_mono {fewer more : Int} (h : fewer ≤ more) :
    chargingCost fewer ≤ chargingCost more := by
  by_cases hmore : more ≤ 0
  · rw [chargingCost_of_nonpos hmore, chargingCost_of_nonpos (h.trans hmore)]
  · rw [chargingCost_of_pos (Int.not_le.mp hmore)]
    by_cases hfewer : fewer ≤ 0
    · rw [chargingCost_of_nonpos hfewer]
      exact pow_nonneg (by decide) _
    · rw [chargingCost_of_pos (Int.not_le.mp hfewer)]
      exact pow_le_pow_right₀ (by decide) (by omega)

/-! ### The search for the highest charge -/

/-- The search for the highest charge, from a charge that it has reached to its result. It goes on
to the next charge as long as that one can be paid. -/
inductive Searches (available : Int) : Nat → Nat → Prop
  | stop {reached : Nat} (h : available < chargingCost (reached + 1)) :
      Searches available reached reached
  | next {reached most : Nat} (h : chargingCost (reached + 1) ≤ available)
      (hrest : Searches available (reached + 1) most) : Searches available reached most

theorem searches_iff {available : Int} {reached most : Nat} :
    Searches available reached most ↔ searchCharge available reached = most := by
  constructor
  · intro h
    induction h with
    | stop h => rw [searchCharge, dif_neg (Int.not_le.mpr h)]
    | next h _ ih => rw [searchCharge, dif_pos h, ih]
  · rintro rfl
    fun_induction searchCharge available reached with
    | case1 reached h ih => exact .next h ih
    | case2 reached h => exact .stop (Int.not_le.mp h)

/-- The charge reached can be paid at every step of the search, and at its end the next one
cannot. -/
theorem Searches.bounds {available : Int} {reached most : Nat} (h : Searches available reached most)
    (hreached : chargingCost reached ≤ available) :
    chargingCost most ≤ available ∧ available < chargingCost (most + 1) := by
  induction h with
  | stop hnext => exact ⟨hreached, hnext⟩
  | next hnext _ ih => exact ih hnext

/-- The charges that can be paid are those up to the most that the search finds. -/
theorem chargingCost_le_iff {available : Int} (havailable : 0 ≤ available) (points : Int) :
    chargingCost points ≤ available ↔ points ≤ mostCharge available := by
  have hsearch : Searches available 0 (mostCharge available) := searches_iff.mpr rfl
  obtain ⟨hmost, hnext⟩ := hsearch.bounds havailable
  constructor
  · intro hpaid
    by_contra hmore
    have hcost := chargingCost_mono (show (mostCharge available : Int) + 1 ≤ points by omega)
    omega
  · intro hle
    exact (chargingCost_mono hle).trans hmost

/-! ### Charges that a brew accepts -/

section
variable {rating : Int} {attributes : List Int} {recipe : Recipe} {effort : Effort}
  {givenRolls : Option (List Int)} {table : Table}

/-- A check that is known comes to a brew unless it succeeds and the dice run out. -/
theorem answers_finish_iff {modifier : Int} {check : Check.Outcome} :
    (finish modifier effort check).Answers table ↔
      (check.success = true → (qualitySpec.roll "Brewing quality").Answers table) := by
  unfold finish
  cases check.success with
  | true =>
    rw [if_pos rfl, Throw.answers_bind_pure_iff]
    exact ⟨fun h _ ↦ h, fun h ↦ h rfl⟩
  | false =>
    rw [if_neg Bool.false_ne_true]
    exact iff_of_true (Throw.answers_pure _ _) nofun

/-- A brew is accepted when its effort passes and its check is made. For the rest it has to throw
the quality dice, with every effort the same. -/
theorem answers_brew_iff :
    (brew rating attributes recipe effort givenRolls).Answers table ↔
      effort.validate rating recipe.difficulty = .ok () ∧
        ∃ check checked, (Check.resolve rating (recipe.modifier effort.handicap) attributes
            effort.mastery givenRolls).onTable table = (.ok check, checked) ∧
          (check.success = true → (qualitySpec.roll "Brewing quality").Answers checked) := by
  simp only [brew, Throw.answers_bind_iff, Throw.onTable_ofExcept_eq_ok_iff, answers_finish_iff]
  constructor
  · rintro ⟨_, _, ⟨hvalid, rfl⟩, hcheck⟩
    exact ⟨hvalid, hcheck⟩
  · rintro ⟨hvalid, hcheck⟩
    exact ⟨(), table, ⟨hvalid, rfl⟩, hcheck⟩

end

section
variable {rating difficulty handicap other charge available : Int} {others : Option Int}

/-- Where an effort without mastery passes, another charge passes just when it can be paid. -/
theorem validate_charge_iff (havailable : 0 ≤ available) (hcharge : 0 ≤ charge)
    (hother : Effort.validate ⟨handicap, 0, other, others⟩ rating difficulty = .ok ()) :
    Effort.validate ⟨handicap, 0, charge, some available⟩ rating difficulty = .ok () ↔
      charge ≤ mostCharge available := by
  obtain ⟨most, hmost, hhandicap, hmastery, -, -⟩ := Effort.validate_eq_ok_iff.mp hother
  rw [← chargingCost_le_iff havailable, Effort.validate_eq_ok_iff]
  constructor
  · rintro ⟨-, -, -, -, -, hpaid⟩
    have hcost := hpaid available rfl
    rwa [Effort.astralCost, Int.zero_add] at hcost
  · intro hpaid
    refine ⟨most, hmost, hhandicap, hmastery, hcharge, ?_⟩
    rintro _ ⟨⟩
    rwa [Effort.astralCost, Int.zero_add]

/-- The fault of a charge that is too high tells what it costs and what there is. -/
theorem validate_charge_of_lt (havailable : 0 ≤ available) (hcharge : mostCharge available < charge)
    (hother : Effort.validate ⟨handicap, 0, other, others⟩ rating difficulty = .ok ()) :
    Effort.validate ⟨handicap, 0, charge, some available⟩ rating difficulty =
      .error (.astralEnergyLacking (chargingCost charge) available) := by
  obtain ⟨most, hmost, hhandicap, hmastery, -, -⟩ := Effort.validate_eq_ok_iff.mp hother
  have hlacking : available < chargingCost charge := by
    rw [← Int.not_le, chargingCost_le_iff havailable]
    exact Int.not_le.mpr hcharge
  have hnonneg : 0 ≤ charge := by omega
  rw [Effort.validate, hmost, ok_bind, validateHandicap_eq_ok_iff.mpr hhandicap, ok_bind,
    validateMastery_eq_ok_iff.mpr hmastery, ok_bind, validateCharging_eq_ok_iff.mpr hnonneg,
    ok_bind, Effort.astralCost, Int.zero_add, validateAstral, if_pos hlacking]

end

/-- With astral points of at least zero, the search for the highest charge comes to an end, at the
most that it finds, and the charges that can be paid are those up to it. Where a brew without
mastery is accepted with some charge and some astral points, it is accepted with every charge up to
the most that the astral points pay for; with a higher one it is refused before a die is thrown. -/
theorem charges_are_limited {available : Int} (havailable : 0 ≤ available) :
    (∀ most, Searches available 0 most ↔ mostCharge available = most) ∧
    (∀ points, chargingCost points ≤ available ↔ points ≤ mostCharge available) ∧
    ∀ rating attributes recipe handicap givenRolls table other others,
      (brew rating attributes recipe ⟨handicap, 0, other, others⟩ givenRolls).Answers table →
      ∀ charge, 0 ≤ charge →
        ((brew rating attributes recipe ⟨handicap, 0, charge, some available⟩ givenRolls).Answers
            table ↔ charge ≤ mostCharge available) ∧
        (mostCharge available < charge →
          (brew rating attributes recipe ⟨handicap, 0, charge, some available⟩ givenRolls).onTable
              table =
            (.error (.astralEnergyLacking (chargingCost charge) available), table)) := by
  refine ⟨fun most ↦ searches_iff, chargingCost_le_iff havailable, ?_⟩
  intro rating attributes recipe handicap givenRolls table other others haccepted charge hcharge
  obtain ⟨hother, hcheck⟩ := answers_brew_iff.mp haccepted
  refine ⟨?_, fun hhigh ↦ onTable_brew_of_error (validate_charge_of_lt havailable hhigh hother)⟩
  rw [answers_brew_iff, validate_charge_iff havailable hcharge hother]
  exact and_iff_left hcheck

/-- Sixteen astral points pay for a charge of five points and not for one of six. -/
theorem charges_are_limited_at_a_power_of_two :
    (0 : Int) ≤ 16 ∧ Searches 16 0 5 ∧ mostCharge 16 = 5 ∧
      chargingCost 5 ≤ 16 ∧ ¬ chargingCost 6 ≤ 16 ∧
      (brew 10 [14, 13, 12] ⟨5, [], 0⟩ ⟨8, 0, 0, none⟩ (some [5, 6, 7])).Answers
        (Table.fresh .highest) ∧
      (brew 10 [14, 13, 12] ⟨5, [], 0⟩ ⟨8, 0, 5, some 16⟩ (some [5, 6, 7])).Answers
        (Table.fresh .highest) ∧
      (brew 10 [14, 13, 12] ⟨5, [], 0⟩ ⟨8, 0, 6, some 16⟩ (some [5, 6, 7])).onTable
          (Table.fresh .highest) =
        (.error (.astralEnergyLacking 32 16), Table.fresh .highest) := by
  have havailable : (0 : Int) ≤ 16 := by decide
  obtain ⟨hsearch, hpaid, hbrews⟩ := charges_are_limited havailable
  have hfive : Searches 16 0 5 :=
    .next (by decide) (.next (by decide) (.next (by decide) (.next (by decide) (.next (by decide)
      (.stop (by decide))))))
  have hmost : mostCharge 16 = 5 := (hsearch 5).mp hfive
  have hvalid : Effort.validate ⟨8, 0, 0, none⟩ 10 5 = .ok () := by
    rw [Effort.validate, mostHandicap_of_le (by decide)]
    rfl
  have haccepted : (brew 10 [14, 13, 12] ⟨5, [], 0⟩ ⟨8, 0, 0, none⟩ (some [5, 6, 7])).Answers
      (Table.fresh .highest) :=
    answers_brew_iff.mpr ⟨hvalid, _, _, rfl, fun _ ↦ ⟨_, rfl⟩⟩
  have hcharges := hbrews _ _ _ _ _ _ _ _ haccepted
  rw [hmost] at hpaid hcharges
  exact ⟨havailable, hfive, hmost, (hpaid 5).mpr (by decide), mt (hpaid 6).mp (by decide),
    haccepted, (hcharges 5 (by decide)).1.mpr (by decide), (hcharges 6 (by decide)).2 (by decide)⟩

end Aventuria.Alchemy
