import Mathlib.Data.List.Forall2
import Aventuria.Proofs.Check.Scoring

/-!
# Advantages

A check under better conditions never comes to less. Exchanged points and a higher rating raise the
budget, lower difficulties too, and higher attributes or lower rolls leave less to be paid from it
(`overflow_le_overflow`). Lower rolls never lose two ones and never gain two twenties, so they may
change the kind of the rolls to the better only. What both come to is said of any two verdicts
(`Verdict.mono`), and of whole checks in `better_checks_succeed`.
-/

set_option autoImplicit false
set_option relaxedAutoImplicit false

namespace Aventuria

/-! ### Critical rolls -/

namespace Critical

variable {rolls : List Int}

theorem forcesSuccess_ofRolls (hlength : rolls.length = 3) :
    (ofRolls rolls).forcesSuccess = true ↔ 2 ≤ rolls.count 1 := by
  have hones : rolls.count 1 ≤ 3 := hlength ▸ List.count_le_length
  unfold ofRolls
  split
  · next hthree => simp [forcesSuccess, hthree]
  · split
    · next htwo => simp [forcesSuccess, htwo]
    · next hthree htwo =>
      have hfew : ¬ 2 ≤ rolls.count 1 := by omega
      split
      · simp [forcesSuccess, hfew]
      · split <;> simp [forcesSuccess, hfew]

theorem forcesFailure_ofRolls (hlength : rolls.length = 3) :
    (ofRolls rolls).forcesFailure = true ↔ rolls.count 1 < 2 ∧ 2 ≤ rolls.count 20 := by
  have hones : rolls.count 1 ≤ 3 := hlength ▸ List.count_le_length
  have htwenties : rolls.count 20 ≤ 3 := hlength ▸ List.count_le_length
  unfold ofRolls
  split
  · next hthree => simp [forcesFailure, hthree]
  · split
    · next htwo => simp [forcesFailure, htwo]
    · next hthree htwo =>
      have hfew : rolls.count 1 < 2 := by omega
      split
      · next hmany => simp [forcesFailure, hfew, hmany]
      · split
        · next hmany => simp [forcesFailure, hfew, hmany]
        · have hfew' : ¬ 2 ≤ rolls.count 20 := by omega
          simp [forcesFailure, hfew']

end Critical

namespace Check

section
variable {lower rolls : List Int}

/-- The least roll stays what it is when rolls are lowered. -/
theorem count_one_le (h : List.Forall₂ (· ≤ ·) lower rolls) (hleast : ∀ roll ∈ lower, 1 ≤ roll) :
    rolls.count 1 ≤ lower.count 1 := by
  induction h with
  | nil => exact Nat.le_refl _
  | @cons low roll lower rolls hle _ ih =>
    obtain ⟨hlow, hleast⟩ := List.forall_mem_cons.mp hleast
    have hrest := ih hleast
    by_cases hone : roll = 1
    · obtain rfl : low = 1 := by omega
      rw [hone, List.count_cons_self, List.count_cons_self]
      omega
    · rw [List.count_cons_of_ne hone]
      exact hrest.trans List.count_le_count_cons

/-- The highest roll was there before rolls were lowered. -/
theorem count_twenty_le (h : List.Forall₂ (· ≤ ·) lower rolls)
    (hmost : ∀ roll ∈ rolls, roll ≤ 20) : lower.count 20 ≤ rolls.count 20 := by
  induction h with
  | nil => exact Nat.le_refl _
  | @cons low roll lower rolls hle _ ih =>
    obtain ⟨hroll, hmost⟩ := List.forall_mem_cons.mp hmost
    have hrest := ih hmost
    by_cases htwenty : low = 20
    · obtain rfl : roll = 20 := by omega
      rw [htwenty, List.count_cons_self, List.count_cons_self]
      omega
    · rw [List.count_cons_of_ne htwenty]
      exact hrest.trans List.count_le_count_cons

theorem ValidRolls.of_lower (h : ValidRolls rolls) (hlower : List.Forall₂ (· ≤ ·) lower rolls)
    (hleast : ∀ roll ∈ lower, 1 ≤ roll) : ValidRolls lower where
  length_eq := hlower.length_eq.trans h.length_eq
  range := by
    have hmost : ∀ roll ∈ rolls, roll ≤ 20 := fun roll hroll ↦ (h.range roll hroll).2
    clear h
    induction hlower with
    | nil => exact fun _ hroll ↦ absurd hroll List.not_mem_nil
    | @cons low roll lower rolls hle _ ih =>
      obtain ⟨hlow, hleast⟩ := List.forall_mem_cons.mp hleast
      obtain ⟨hroll, hmost⟩ := List.forall_mem_cons.mp hmost
      exact List.forall_mem_cons.mpr ⟨⟨hlow, hle.trans hroll⟩, ih hleast hmost⟩

end

/-! ### Budget and points due -/

/-- The points due grow with the rolls and shrink with the attributes. -/
theorem overflow_le_overflow {lower rolls attributes abilities : List Int}
    (hrolls : List.Forall₂ (· ≤ ·) lower rolls)
    (hattributes : List.Forall₂ (· ≤ ·) attributes abilities) :
    overflow lower abilities ≤ overflow rolls attributes := by
  induction hrolls generalizing attributes abilities with
  | nil => exact Int.le_refl 0
  | @cons low roll lower rolls hroll _ ih =>
    cases hattributes with
    | nil => exact Int.le_refl 0
    | @cons ability higher attributes abilities hability hrest =>
      have hdue : max 0 (low - higher) ≤ max 0 (roll - ability) := by omega
      exact Int.add_le_add hdue (ih hrest)

theorem boostedRating_zero (base : Int) : boostedRating base 0 = base := by
  unfold boostedRating
  split <;> omega

theorem boostedRating_mono (base : Int) {fewer more : Int} (h : fewer ≤ more) :
    boostedRating base fewer ≤ boostedRating base more := by
  unfold boostedRating
  split <;> omega

/-- With a budget no smaller, no more points due and no worse kind of rolls, a check succeeds
whenever it did before. Its extra points are no fewer but where the rolls before forced a failure,
which leaves none, and these do not. -/
theorem Verdict.mono {budget budget' due due' extra extra' : Int} {critical critical' : Critical}
    {success success' : Bool} (h : Verdict budget due critical success extra)
    (h' : Verdict budget' due' critical' success' extra') (hbudget : budget ≤ budget')
    (hdue : due' ≤ due) (hnonneg : 0 ≤ due)
    (hones : critical.forcesSuccess = true → critical'.forcesSuccess = true)
    (htwenties : critical'.forcesFailure = true → critical.forcesFailure = true) :
    ((critical.forcesFailure = true → critical'.forcesFailure = true) → extra ≤ extra') ∧
      (success = true → success' = true) := by
  cases h' with
  | forcedSuccess hforced' =>
    refine ⟨fun hboth ↦ ?_, fun _ ↦ rfl⟩
    cases h with
    | forcedSuccess => exact hbudget
    | forcedFailure hforced =>
      have hfailure := hboth hforced
      cases critical' <;> cases hforced' <;> cases hfailure
    | paid | unpaid => omega
  | forcedFailure hforced' =>
    have hforced := htwenties hforced'
    cases h with
    | forcedSuccess hsuccess => cases critical <;> cases hsuccess <;> cases hforced
    | forcedFailure => exact ⟨fun _ ↦ Int.le_refl 0, nofun⟩
    | paid | unpaid => cases hforced
  | paid hpaid' =>
    refine ⟨fun hboth ↦ ?_, fun _ ↦ rfl⟩
    cases h with
    | forcedSuccess hsuccess => exact nomatch hones hsuccess
    | forcedFailure hforced => exact nomatch hboth hforced
    | paid | unpaid => omega
  | unpaid hunpaid' =>
    cases h with
    | forcedSuccess hsuccess => exact nomatch hones hsuccess
    | forcedFailure hforced => exact ⟨fun hboth ↦ (nomatch hboth hforced), nofun⟩
    | paid hpaid => omega
    | unpaid => exact ⟨fun _ ↦ by omega, nofun⟩

/-- A judgement is a verdict on the kind of its rolls. -/
theorem verdict_ofRolls (skill difficulty : Int) (attributes rolls : List Int) :
    Verdict (max 0 (skill - difficulty)) (overflow rolls attributes) (Critical.ofRolls rolls)
      (judge skill difficulty attributes rolls).success
      (judge skill difficulty attributes rolls).extraPoints := by
  rw [← critical_judge skill difficulty attributes rolls]
  exact judge_verdict skill difficulty attributes rolls

/-- The same rolls, judged under better conditions. -/
theorem judge_mono {skill skill' difficulty difficulty' : Int} {attributes abilities : List Int}
    (rolls : List Int) (hskill : skill ≤ skill') (hdifficulty : difficulty' ≤ difficulty)
    (hattributes : List.Forall₂ (· ≤ ·) attributes abilities) :
    (judge skill difficulty attributes rolls).extraPoints ≤
        (judge skill' difficulty' abilities rolls).extraPoints ∧
      ((judge skill difficulty attributes rolls).success = true →
        (judge skill' difficulty' abilities rolls).success = true) := by
  have hverdict := verdict_ofRolls skill difficulty attributes rolls
  have hverdict' := verdict_ofRolls skill' difficulty' abilities rolls
  have hdue : overflow rolls abilities ≤ overflow rolls attributes :=
    overflow_le_overflow (List.forall₂_refl rolls) hattributes
  exact (hverdict.mono hverdict' (by omega) hdue (overflow_nonneg rolls attributes) id id).imp_left
    fun h ↦ h id

/-- A budget that is smaller by some points leaves at most so many points fewer. -/
theorem Verdict.extra_le_add {budget budget' due extra extra' less : Int} {critical : Critical}
    {success success' : Bool} (h : Verdict budget due critical success extra)
    (h' : Verdict budget' due critical success' extra') (hbudget : budget ≤ budget' + less)
    (hless : 0 ≤ less) : extra ≤ extra' + less := by
  cases h with
  | forcedSuccess hforced =>
    cases h' with
    | forcedSuccess => exact hbudget
    | forcedFailure hfailure => cases critical <;> cases hforced <;> cases hfailure
    | paid | unpaid => cases hforced
  | forcedFailure hforced =>
    cases h' with
    | forcedSuccess hsuccess => cases critical <;> cases hforced <;> cases hsuccess
    | forcedFailure => omega
    | paid | unpaid => cases hforced
  | paid | unpaid =>
    cases h' with
    | forcedSuccess hforced | forcedFailure hforced => cases hforced
    | paid | unpaid => omega

/-- Every point of difficulty takes at most one of the extra points. -/
theorem judge_le_add_of_harder (skill difficulty : Int) (attributes rolls : List Int) {more : Int}
    (hmore : 0 ≤ more) :
    (judge skill difficulty attributes rolls).extraPoints ≤
      (judge skill (difficulty + more) attributes rolls).extraPoints + more :=
  (verdict_ofRolls skill difficulty attributes rolls).extra_le_add
    (verdict_ofRolls skill (difficulty + more) attributes rolls) (by omega) hmore

theorem isBotched_judge (skill difficulty : Int) (attributes rolls : List Int) :
    (judge skill difficulty attributes rolls).isBotched =
      (Critical.ofRolls rolls).forcesFailure := rfl

/-- Lower rolls, judged under the same conditions. -/
theorem judge_of_lower (skill difficulty : Int) (attributes : List Int) {lower rolls : List Int}
    (hvalid : ValidRolls rolls) (hlower : List.Forall₂ (· ≤ ·) lower rolls)
    (hleast : ∀ roll ∈ lower, 1 ≤ roll) :
    ((judge skill difficulty attributes rolls).isBotched = false →
        (judge skill difficulty attributes rolls).extraPoints ≤
          (judge skill difficulty attributes lower).extraPoints) ∧
      ((judge skill difficulty attributes rolls).success = true →
        (judge skill difficulty attributes lower).success = true) := by
  have hones := count_one_le hlower hleast
  have htwenties := count_twenty_le hlower fun roll hroll ↦ (hvalid.range roll hroll).2
  have hlength := (hvalid.of_lower hlower hleast).length_eq
  have hverdict := verdict_ofRolls skill difficulty attributes rolls
  have hverdict' := verdict_ofRolls skill difficulty attributes lower
  have hdue : overflow lower attributes ≤ overflow rolls attributes :=
    overflow_le_overflow hlower (List.forall₂_refl attributes)
  have hmono := hverdict.mono hverdict' (Int.le_refl _) hdue (overflow_nonneg rolls attributes) ?_ ?_
  · rw [isBotched_judge]
    exact hmono.imp_left fun h hbotched ↦ h fun hforced ↦ nomatch hbotched.symm.trans hforced
  · rw [Critical.forcesSuccess_ofRolls hvalid.length_eq, Critical.forcesSuccess_ofRolls hlength]
    omega
  · rw [Critical.forcesFailure_ofRolls hvalid.length_eq, Critical.forcesFailure_ofRolls hlength]
    omega

/-! ### Whole checks -/

/-- A check comes to an outcome with some rolls just when it is accepted with them, and then the
outcome is judged from them. -/
theorem comesTo_iff {rating difficulty exchanged : Int} {attributes rolls : List Int}
    {outcome : Outcome} :
    ComesTo rating difficulty exchanged attributes rolls outcome ↔
      attributes.length = 3 ∧ 0 ≤ exchanged ∧ ValidRolls rolls ∧
        judge (boostedRating rating exchanged) difficulty attributes rolls = outcome := by
  constructor
  · intro h
    obtain ⟨hlength, hexchanged, others, hothers, hvalid, hjudge⟩ :=
      onTable_resolve_eq_ok_iff.mp (h (Dice.Table.fresh (.constant 1)) _ _ (.given rolls))
    cases hothers with
    | given => exact ⟨hlength, hexchanged, hvalid, hjudge⟩
  · rintro ⟨hlength, hexchanged, hvalid, rfl⟩
    exact comesTo_judge rating difficulty hlength hexchanged hvalid

/-- What a check is asked for, its rolls apart. -/
structure Challenge where
  rating : Int
  difficulty : Int
  attributes : List Int
  exchanged : Int
  deriving DecidableEq, Repr

namespace Challenge

/-- With these rolls, given or thrown, the check comes to the outcome. -/
def ComesTo (challenge : Challenge) (rolls : List Int) (outcome : Outcome) : Prop :=
  Check.ComesTo challenge.rating challenge.difficulty challenge.exchanged challenge.attributes rolls
    outcome

/-- A challenge that is no harder than another one in any respect. The rating may be a higher one
only where nothing is exchanged for it. -/
structure Eases (easy hard : Challenge) : Prop where
  difficulty_le : easy.difficulty ≤ hard.difficulty
  attributes_le : List.Forall₂ (· ≤ ·) hard.attributes easy.attributes
  exchanged_le : hard.exchanged ≤ easy.exchanged
  rating : hard.rating = easy.rating ∨
    hard.exchanged = 0 ∧ easy.exchanged = 0 ∧ hard.rating ≤ easy.rating

theorem Eases.boostedRating_le {easy hard : Challenge} (h : easy.Eases hard) :
    boostedRating hard.rating hard.exchanged ≤ boostedRating easy.rating easy.exchanged := by
  obtain hrating | ⟨hhard, heasy, hrating⟩ := h.rating
  · rw [hrating]
    exact boostedRating_mono easy.rating h.exchanged_le
  · rw [hhard, heasy, boostedRating_zero, boostedRating_zero]
    exact hrating

end Challenge

/-- A check with valid rolls comes to an outcome, and one that is no harder comes to no fewer extra
points with the same rolls; it succeeds if the other one does. With rolls none of which is higher,
the check itself succeeds again if it did before, and it comes to no fewer extra points unless two
twenties had left it with none. -/
theorem better_checks_succeed {hard : Challenge} {rolls : List Int}
    (hlength : hard.attributes.length = 3) (hexchanged : 0 ≤ hard.exchanged)
    (hvalid : ValidRolls rolls) :
    ∃ outcome, hard.ComesTo rolls outcome ∧
      (∀ easy : Challenge, easy.Eases hard → ∃ better, easy.ComesTo rolls better ∧
        outcome.extraPoints ≤ better.extraPoints ∧
        (outcome.success = true → better.success = true)) ∧
      ∀ lower : List Int, List.Forall₂ (· ≤ ·) lower rolls → (∀ roll ∈ lower, 1 ≤ roll) →
        ∃ better, hard.ComesTo lower better ∧
          (outcome.isBotched = false → outcome.extraPoints ≤ better.extraPoints) ∧
          (outcome.success = true → better.success = true) := by
  refine ⟨_, comesTo_judge hard.rating hard.difficulty hlength hexchanged hvalid,
    fun easy heases ↦ ?_, fun lower hlower hleast ↦ ?_⟩
  · have hlength' : easy.attributes.length = 3 :=
      heases.attributes_le.length_eq.symm.trans hlength
    exact ⟨_, comesTo_judge easy.rating easy.difficulty hlength'
      (hexchanged.trans heases.exchanged_le) hvalid,
      judge_mono rolls heases.boostedRating_le heases.difficulty_le heases.attributes_le⟩
  · exact ⟨_, comesTo_judge hard.rating hard.difficulty hlength hexchanged
      (hvalid.of_lower hlower hleast), judge_of_lower _ _ _ hvalid hlower hleast⟩

/-- A check that just succeeds has four points more with one more point exchanged, one point of
difficulty less and a higher attribute; with two ones it keeps its whole budget. -/
theorem better_checks_succeed_from_nothing :
    ((0 : Int) ≤ 1 ∧ ValidRolls [13, 13, 14]) ∧
      ∃ outcome, (⟨-3, -4, [12, 12, 13], 1⟩ : Challenge).ComesTo [13, 13, 14] outcome ∧
        outcome.success = true ∧ outcome.extraPoints = 0 ∧
        (∃ better, (⟨-3, -5, [12, 13, 13], 2⟩ : Challenge).ComesTo [13, 13, 14] better ∧
          better.success = true ∧ better.extraPoints = 4) ∧
        ∃ better, (⟨-3, -4, [12, 12, 13], 1⟩ : Challenge).ComesTo [1, 13, 1] better ∧
          better.success = true ∧ better.extraPoints = 3 := by
  have hexchanged : (0 : Int) ≤ 1 := by decide
  have hvalid : ValidRolls [13, 13, 14] := ⟨rfl, by decide⟩
  have heases : (⟨-3, -5, [12, 13, 13], 2⟩ : Challenge).Eases ⟨-3, -4, [12, 12, 13], 1⟩ :=
    ⟨by decide, by decide, by decide, .inl rfl⟩
  obtain ⟨outcome, hcomes, hconditions, hrolls⟩ :=
    @better_checks_succeed ⟨-3, -4, [12, 12, 13], 1⟩ [13, 13, 14] rfl hexchanged hvalid
  obtain ⟨eased, heased, -, heased'⟩ := hconditions _ heases
  obtain ⟨lowered, hlowered, -, hlowered'⟩ := hrolls [1, 13, 1] (by decide) (by decide)
  obtain rfl : judge (-1) (-4) [12, 12, 13] [13, 13, 14] = outcome := (comesTo_iff.mp hcomes).2.2.2
  obtain rfl : judge 1 (-5) [12, 13, 13] [13, 13, 14] = eased := (comesTo_iff.mp heased).2.2.2
  obtain rfl : judge (-1) (-4) [12, 12, 13] [1, 13, 1] = lowered := (comesTo_iff.mp hlowered).2.2.2
  exact ⟨⟨hexchanged, hvalid⟩, _, hcomes, rfl, rfl, ⟨_, heased, heased' rfl, rfl⟩, _, hlowered,
    hlowered' rfl, rfl⟩

end Check

end Aventuria
