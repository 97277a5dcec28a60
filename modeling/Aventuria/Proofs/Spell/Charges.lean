import Mathlib.Algebra.Order.Round
import Mathlib.Data.Rat.Floor
import Mathlib.Tactic.Ring
import Aventuria.Proofs.Spell.Payment

/-!
# What castings are charged

A success is charged its price less the traits, but never nothing for a price of at least one; it is
charged more for a higher base and less for more traits (`successCost_le_successCost`). A failure is
charged a share of what the same casting would have been charged as a success, half of it or a third
(`failureShare_guild`, `failureShare_witch`), and it does not count how far its check was failed.
The main result is `castings_are_charged`.
-/

set_option autoImplicit false
set_option relaxedAutoImplicit false

namespace Aventuria.Spell

/-! ### Successes -/

theorem price_mono {base dearer : Int} (h : base ≤ dearer) (value : Option Int) :
    price base value ≤ price dearer value := by
  unfold price
  omega

/-- What is left of a price when traits have lowered it: nothing of no price, else at least one
point and at most the whole. -/
structure Discounted (raw charge : Int) : Prop where
  free : raw = 0 → charge = 0
  charged : raw ≠ 0 → 1 ≤ charge ∧ charge ≤ raw

theorem discounted_successCost {raw traits : Int} (hraw : 0 ≤ raw) (htraits : 0 ≤ traits) :
    Discounted raw (successCost raw traits) where
  free hfree := if_pos hfree
  charged hcharged := by
    rw [successCost, if_neg hcharged]
    omega

theorem successCost_zero {raw : Int} (hraw : 0 ≤ raw) : successCost raw 0 = raw := by
  unfold successCost
  split <;> omega

theorem successCost_le_successCost {raw dearer traits fewer : Int} (hraw : 0 ≤ raw)
    (hdearer : raw ≤ dearer) (hfewer : fewer ≤ traits) :
    successCost raw traits ≤ successCost dearer fewer := by
  unfold successCost
  split <;> split <;> omega

/-! ### Failures -/

theorem failureShare_guild (raw : Int) : Tradition.guild.failureShare raw = ⌈(raw / 2 : ℚ)⌉ := by
  have hceil : ⌈(raw / 2 : ℚ)⌉ = -(-raw / 2) := Rat.ceil_intCast_div_natCast raw 2
  rw [hceil, Tradition.failureShare]
  omega

/-- A third of a whole number never lies half-way between two others. -/
theorem failureShare_witch (raw : Int) : Tradition.witch.failureShare raw = round (raw / 3 : ℚ) := by
  have hsixths : (raw / 3 + 1 / 2 : ℚ) = (2 * raw + 3 : Int) / (6 : Nat) := by
    push_cast
    ring
  rw [round_eq, hsixths, Rat.floor_intCast_div_natCast, Tradition.failureShare]
  omega

/-- The witch pays no more than the guild, and neither more than the price. -/
theorem failureShare_le {raw : Int} (hraw : 0 ≤ raw) :
    Tradition.witch.failureShare raw ≤ Tradition.guild.failureShare raw ∧
      Tradition.guild.failureShare raw ≤ raw := by
  simp only [Tradition.failureShare]
  omega

/-- A failure costs the same with all negative points as with none. -/
theorem cost_failure_max (formula : Option String) (points base : Int) (tradition : Tradition)
    (traits : Int) :
    cost formula points false base tradition traits =
      cost formula (max 0 points) false base tradition traits := by
  have hpoints : max 0 (max 0 points) = max 0 points := by omega
  simp only [cost, rawCost, hpoints, Bool.false_eq_true, if_false]

/-! ### All castings -/

/-- What the castings of a formula are charged whose price is known. A dearer base or fewer traits
do not lower the charge of a success. A failure is charged half of the price, rounded up, or a third
of it, rounded to the nearest number, where the price is the charge of a success without traits. -/
structure Charged (formula : Option String) (points base raw : Int) : Prop where
  of_success : 0 ≤ points → ∀ tradition traits, 0 ≤ traits → traits ≤ 2 →
    ∃ charge, cost formula points true base tradition traits = .ok charge ∧ Discounted raw charge ∧
      ∀ other dearer fewer, base ≤ dearer → 0 ≤ fewer → fewer ≤ traits →
        ∃ more, cost formula points true dearer other fewer = .ok more ∧ charge ≤ more
  of_guild_failure : ∀ traits, 0 ≤ traits → traits ≤ 2 →
    cost formula points false base .guild traits = .ok ⌈(raw / 2 : ℚ)⌉
  of_witch_failure : ∀ traits, 0 ≤ traits → traits ≤ 2 →
    cost formula points false base .witch traits = .ok (round (raw / 3 : ℚ))
  witch_nonneg : 0 ≤ round (raw / 3 : ℚ)
  witch_le_guild : round (raw / 3 : ℚ) ≤ ⌈(raw / 2 : ℚ)⌉
  guild_le_price : ⌈(raw / 2 : ℚ)⌉ ≤ raw
  price : ∀ tradition, cost formula (max 0 points) true base tradition 0 = .ok raw
  no_debt : ∀ tradition traits, cost formula points false base tradition traits =
    cost formula (max 0 points) false base tradition traits

theorem charged_price {formula : Option String} {points base : Int} {value : Option Int}
    (hbase : 0 ≤ base) (hvalue : Formula.evaluate formula (max 0 points) = .ok value) :
    Charged formula points base (price base value) where
  of_success hpoints tradition traits hnonneg hmost := by
    have hraw := price_nonneg base value
    rw [Int.max_eq_right hpoints] at hvalue
    refine ⟨_, cost_of_success hbase ⟨hnonneg, hmost⟩ hpoints hvalue,
      discounted_successCost hraw hnonneg, ?_⟩
    intro other dearer fewer hdearer hnonneg' hfewer
    exact ⟨_, cost_of_success (hbase.trans hdearer) ⟨hnonneg', hfewer.trans hmost⟩ hpoints hvalue,
      successCost_le_successCost hraw (price_mono hdearer value) hfewer⟩
  of_guild_failure traits hnonneg hmost := by
    rw [cost_of_failure hbase ⟨hnonneg, hmost⟩ hvalue, failureShare_guild]
  of_witch_failure traits hnonneg hmost := by
    rw [cost_of_failure hbase ⟨hnonneg, hmost⟩ hvalue, failureShare_witch]
  witch_nonneg := by
    rw [← failureShare_witch]
    exact failureShare_nonneg (price_nonneg base value) .witch
  witch_le_guild := by
    rw [← failureShare_witch, ← failureShare_guild]
    exact (failureShare_le (price_nonneg base value)).1
  guild_le_price := by
    rw [← failureShare_guild]
    exact (failureShare_le (price_nonneg base value)).2
  price tradition := by
    rw [cost_of_success hbase (by decide) (Int.le_max_left 0 points) hvalue,
      successCost_zero (price_nonneg base value)]
  no_debt := cost_failure_max formula points base

/-- Every formula, missing or unusable ones included, has a price with every base, and all its
castings are charged by it, however far their checks were failed. -/
theorem castings_are_charged (formula : Option String) (points : Int) {base : Int}
    (hbase : 0 ≤ base) :
    ∃ value, Formula.evaluate formula (max 0 points) = .ok value ∧
      Charged formula points base (max 0 (base + value.getD 0)) := by
  obtain ⟨value, hvalue⟩ := Formula.exists_evaluate_eq_ok formula (max 0 points)
  exact ⟨value, hvalue, charged_price hbase hvalue⟩

/-- With no points left over a formula that divides by them is of no use, and only the base is
charged. -/
theorem castings_are_charged_without_points :
    (0 : Int) ≤ 7 ∧ Formula.evaluate (some "6/ZfP") 0 = .ok none ∧
      cost (some "6/ZfP") (-5) false 7 .guild 2 = .ok 4 ∧
      cost (some "6/ZfP") (-5) false 7 .witch 1 = .ok 2 ∧
      cost (some "6/ZfP") 0 true 7 .guild 0 = .ok 7 ∧
      ∃ charge, cost (some "6/ZfP") 0 true 7 .guild 2 = .ok charge ∧ Discounted 7 charge := by
  have hbase : (0 : Int) ≤ 7 := by decide
  have htokens : Formula.Token.ofChars "6/ZfP".toList =
      .ok [.number ['6'], .sign .slash, .points] := by
    cbv
  have htree : Formula.ofTokens [.number ['6'], .sign .slash, .points] =
      .ok (.binary .divide (.number 6) .points) := by
    cbv
  have hread : Formula.ofChars "6/ZfP".toList = .ok (.binary .divide (.number 6) .points) := by
    rw [Formula.ofChars, htokens, ok_bind, htree]
  have hnone : Formula.evaluate (some "6/ZfP") 0 = .ok none := by
    rw [Formula.evaluate, Formula.compile_some, hread]
    rfl
  obtain ⟨value, hvalue, hfailed⟩ := castings_are_charged (some "6/ZfP") (-5) hbase
  obtain ⟨value', hvalue', hpassed⟩ := castings_are_charged (some "6/ZfP") 0 hbase
  obtain rfl : none = value := Except.ok.inj (hnone.symm.trans hvalue)
  obtain rfl : none = value' := Except.ok.inj (hnone.symm.trans hvalue')
  obtain ⟨charge, hcharge, hdiscounted, -⟩ :=
    hpassed.of_success (by decide) .guild 2 (by decide) (by decide)
  refine ⟨hbase, hnone, ?_, ?_, hpassed.price .guild, charge, hcharge, hdiscounted⟩
  · rw [hfailed.of_guild_failure 2 (by decide) (by decide), ← failureShare_guild]
    rfl
  · rw [hfailed.of_witch_failure 1 (by decide) (by decide), ← failureShare_witch]
    rfl

end Aventuria.Spell
