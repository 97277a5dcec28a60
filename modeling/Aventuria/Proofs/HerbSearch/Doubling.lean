import Aventuria.Proofs.HerbSearch.Advantage

/-!
# Doubled searches

With the same rolls, a larger budget brings a check to no less and a smaller one to less, unless the
rolls force a failure (`Verdict.no_less_iff`). Half as much again raises a rating of at least
nothing, but it lowers a negative one, which a search has just where one of its talents is negative
(`Talents.rating_neg_iff`). So twice the time takes from a search whose rating is negative and whose
difficulty is lower still, and from no other one (`doubled_searches_find_no_less_iff`).
-/

set_option autoImplicit false
set_option relaxedAutoImplicit false

namespace Aventuria

/-- Two verdicts on the same rolls and the same points due. -/
theorem Check.Verdict.no_less_iff {budget budget' due extra extra' : Int} {critical : Critical}
    {success success' : Bool} (h : Verdict budget due critical success extra)
    (h' : Verdict budget' due critical success' extra') :
    ((success = true → success' = true) ∧ extra ≤ extra') ↔
      critical.forcesFailure = true ∨ budget ≤ budget' := by
  cases h with
  | forcedSuccess hsuccess =>
    have hnone : critical.forcesFailure = false := by
      cases critical <;> cases hsuccess <;> rfl
    cases h' with
    | forcedSuccess => simp [hnone]
    | forcedFailure hfailure => exact nomatch hnone.symm.trans hfailure
    | paid | unpaid => cases hsuccess
  | forcedFailure hfailure =>
    cases h' with
    | forcedSuccess hsuccess => cases critical <;> cases hsuccess <;> cases hfailure
    | forcedFailure => simp [hfailure]
    | paid | unpaid => cases hfailure
  | paid hdue | unpaid hdue =>
    cases h' with
    | forcedSuccess hforced | forcedFailure hforced => cases hforced
    | paid hdue' | unpaid hdue' => simp [Critical.forcesFailure] <;> omega

namespace HerbSearch

open Check (Outcome ValidRolls)

theorem Talents.rating_neg_iff {talents : Talents} :
    talents.rating < 0 ↔ talents.senses < 0 ∨ talents.wilderness < 0 ∨ talents.herbLore < 0 := by
  unfold Talents.rating
  omega

/-- Twice the lowest talent is the most that the rating can be. -/
theorem Talents.rating_le_of_neg {talents : Talents} (h : talents.rating < 0) :
    talents.rating ≤ -2 := by
  have hnegative := Talents.rating_neg_iff.mp h
  unfold Talents.rating
  omega

/-- The same search, in the usual time or in twice the time. -/
def Quest.inTime (quest : Quest) (doubled : Bool) : Quest :=
  { quest with doubled }

/-- With these rolls, the search in twice the time succeeds if the other one does, with no fewer
extra points and no fewer portions. -/
def Quest.GainsByTime (quest : Quest) (rolls : List Int) : Prop :=
  ∃ check portions better more, (quest.inTime false).ComesTo rolls check portions ∧
    (quest.inTime true).ComesTo rolls better more ∧
    ((check.success = true → better.success = true) ∧ check.extraPoints ≤ better.extraPoints) ∧
    portions ≤ more

/-- A search that has something to lose by half as much again of its rating: a talent makes the
rating negative, which all the same exceeds the difficulty, and the rolls force no failure. -/
structure Quest.Hampered (quest : Quest) (rolls : List Int) : Prop where
  negative :
    quest.talents.senses < 0 ∨ quest.talents.wilderness < 0 ∨ quest.talents.herbLore < 0
  difficulty_lt : quest.terrain.difficulty < quest.talents.rating
  unforced : (Critical.ofRolls rolls).forcesFailure = false

theorem Quest.not_hampered_iff {quest : Quest} {rolls : List Int} :
    ¬ quest.Hampered rolls ↔ (Critical.ofRolls rolls).forcesFailure = true ∨
      ¬ (quest.talents.rating < 0 ∧ quest.terrain.difficulty < quest.talents.rating) := by
  rw [← Bool.not_eq_false, ← not_and_or, not_iff_not, Talents.rating_neg_iff]
  exact ⟨fun h ↦ ⟨h.unforced, h.negative, h.difficulty_lt⟩,
    fun ⟨hunforced, hnegative, hdifficulty⟩ ↦ ⟨hnegative, hdifficulty, hunforced⟩⟩

/-- The budget shrinks just where a negative rating is above the difficulty. -/
theorem budget_le_iff {talents : Talents} {doubled : Int} (difficulty : Int)
    (h : searchRating talents true = .ok doubled) :
    max 0 (talents.rating - difficulty) ≤ max 0 (doubled - difficulty) ↔
      ¬ (talents.rating < 0 ∧ difficulty < talents.rating) := by
  rw [searchRating, if_pos rfl] at h
  by_cases hneg : talents.rating < 0
  · have hlower := Rounding.oneAndAHalf_lt (Talents.rating_le_of_neg hneg) h
    omega
  · have hhigher := Rounding.le_oneAndAHalf (Int.not_lt.mp hneg) h
    omega

/-- The portions follow the points, which are decided by two verdicts on the same rolls. -/
theorem Quest.gainsByTime_iff {quest : Quest} {rolls : List Int} {doubled : Int}
    (hlength : quest.attributes.length = 3) (hvalid : ValidRolls rolls)
    (hdoubled : searchRating quest.talents true = .ok doubled) :
    quest.GainsByTime rolls ↔ (Critical.ofRolls rolls).forcesFailure = true ∨
      max 0 (quest.talents.rating - quest.terrain.difficulty) ≤
        max 0 (doubled - quest.terrain.difficulty) := by
  have hsingle : searchRating quest.talents false = .ok quest.talents.rating := rfl
  have hverdict := Check.verdict_ofRolls quest.talents.rating quest.terrain.difficulty
    quest.attributes rolls
  have hverdict' := Check.verdict_ofRolls doubled quest.terrain.difficulty quest.attributes rolls
  rw [← hverdict.no_less_iff hverdict']
  constructor
  · rintro ⟨check, portions, better, more, hcomes, hcomes', hnoLess, -⟩
    obtain ⟨-, rating, hrating, rfl, -⟩ := Quest.comesTo_iff.mp hcomes
    obtain ⟨-, rating', hrating', rfl, -⟩ := Quest.comesTo_iff.mp hcomes'
    obtain rfl := Except.ok.inj (hsingle.symm.trans hrating)
    obtain rfl := Except.ok.inj (hdoubled.symm.trans hrating')
    exact hnoLess
  · intro hnoLess
    exact ⟨_, _, _, _, Quest.comesTo_judge hlength hvalid hsingle,
      Quest.comesTo_judge hlength hvalid hdoubled, hnoLess,
      portionsOf_mono hnoLess.1 hnoLess.2 (Int.le_refl _)⟩

/-- Twice the time brings a search to no less, whatever its rolls, unless the search is hampered by
a negative talent. -/
theorem doubled_searches_find_no_less_iff {quest : Quest} {rolls : List Int}
    (hlength : quest.attributes.length = 3) (hvalid : ValidRolls rolls)
    (hrated : (quest.inTime true).Rated) :
    quest.GainsByTime rolls ↔ ¬ quest.Hampered rolls := by
  obtain ⟨doubled, hdoubled⟩ := hrated
  have hbudget := budget_le_iff quest.terrain.difficulty hdoubled
  rw [Quest.gainsByTime_iff hlength hvalid hdoubled, Quest.not_hampered_iff]
  exact or_congr_right hbudget

/-- With a negative talent, twice the time takes from a search that pays, but not from one whose
rolls are two twenties. -/
theorem doubled_searches_find_no_less_iff_with_twenties :
    ∃ quest : Quest, quest = ⟨⟨-1, 8, 8⟩, ⟨-3, 0, false, false⟩, [12, 12, 12], false⟩ ∧
      (ValidRolls [12, 5, 5] ∧ ValidRolls [20, 20, 5] ∧ (quest.inTime true).Rated) ∧
      ¬ quest.GainsByTime [12, 5, 5] ∧ quest.GainsByTime [20, 20, 5] := by
  refine ⟨_, rfl, ?_⟩
  have hpaid : ValidRolls [12, 5, 5] := ⟨rfl, by decide⟩
  have hforced : ValidRolls [20, 20, 5] := ⟨rfl, by decide⟩
  have hrated : ((⟨⟨-1, 8, 8⟩, ⟨-3, 0, false, false⟩, [12, 12, 12], false⟩ : Quest).inTime
      true).Rated :=
    Quest.rated_of_isExact fun _ ↦ Rounding.isExact_of_le (by decide +kernel)
  refine ⟨⟨hpaid, hforced, hrated⟩, fun hgains ↦ ?_, ?_⟩
  · exact (doubled_searches_find_no_less_iff rfl hpaid hrated).mp hgains
      ⟨by decide, by decide, by decide⟩
  · refine (doubled_searches_find_no_less_iff rfl hforced hrated).mpr fun hhampered ↦ ?_
    exact absurd hhampered.unforced (by decide)

/-- A rating of minus two becomes one of minus three, and a search that just succeeded fails by a
point. -/
theorem search_fails_in_twice_the_time :
    ∃ (quest : Quest) (check better : Outcome),
      quest = ⟨⟨-1, -1, -1⟩, ⟨-3, 0, false, false⟩, [12, 12, 12], false⟩ ∧
      (quest.inTime false).ComesTo [13, 5, 5] check 1 ∧
      (check.success = true ∧ check.extraPoints = 0) ∧
      (quest.inTime true).ComesTo [13, 5, 5] better 0 ∧
      (better.success = false ∧ better.extraPoints = -1) ∧ ¬ quest.GainsByTime [13, 5, 5] := by
  have hvalid : ValidRolls [13, 5, 5] := ⟨rfl, by decide⟩
  have hsingle : searchRating ⟨-1, -1, -1⟩ false = .ok (-2) := by decide
  have hdoubled : searchRating ⟨-1, -1, -1⟩ true = .ok (-3) := by decide +kernel
  refine ⟨⟨⟨-1, -1, -1⟩, ⟨-3, 0, false, false⟩, [12, 12, 12], false⟩,
    Check.judge (-2) (-3) [12, 12, 12] [13, 5, 5], Check.judge (-3) (-3) [12, 12, 12] [13, 5, 5],
    rfl, ?usual, ⟨rfl, rfl⟩, ?twice, ⟨rfl, rfl⟩, ?noGain⟩
  case usual => exact Quest.comesTo_judge rfl hvalid hsingle
  case twice => exact Quest.comesTo_judge rfl hvalid hdoubled
  case noGain => exact mt (Iff.mp (Quest.gainsByTime_iff rfl hvalid hdoubled)) (by decide)

end HerbSearch

end Aventuria
