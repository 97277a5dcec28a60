import Aventuria.Proofs.Check.Advantage
import Aventuria.Proofs.HerbSearch.Portions
import Aventuria.Proofs.Judgement
import Aventuria.Proofs.Rounding

/-!
# Better searches

What a search comes to is decided by its check: the outcome, and after a success the portions that
the points pay for. Dice that run out while the portions are gathered are all that can keep it from
there (`Quest.comesTo_iff`). Higher talents raise the rating, also when it is rounded, and easier
conditions lower the difficulty; then the check comes to no less, and the points, which are no fewer,
pay for portions that are no dearer (`portionCount_mono`). So a search under better conditions never
finds less (`better_searches_find_more`).
-/

set_option autoImplicit false
set_option relaxedAutoImplicit false

namespace Aventuria.HerbSearch

open Check (Outcome Rolls ValidRolls judge)
open Dice (Throw Table)

/-! ### What a search comes to -/

/-- What a search is asked for, apart from its rolls and from what one portion is. -/
structure Quest where
  talents : Talents
  terrain : Terrain
  attributes : List Int
  doubled : Bool
  deriving DecidableEq, Repr

def Quest.run (quest : Quest) (description : String) (givenRolls : Option (List Int)) :
    Throw Search :=
  search quest.talents quest.terrain quest.attributes quest.doubled description givenRolls

/-- The rating of the search is no number too large to be rounded. -/
def Quest.Rated (quest : Quest) : Prop :=
  ∃ rating, searchRating quest.talents quest.doubled = .ok rating

/-- The portions that an outcome of the check yields. -/
def portionsOf (check : Outcome) (difficulty : Int) : Nat :=
  if check.success then portionCount check.extraPoints difficulty else 0

/-- How a search ends whose check has left this table: with the outcome of the check and so many
portions, unless the dice for the portions run out. -/
inductive Finds (check : Outcome) (portions : Nat) (checked : Table) :
    Except Fault Search × Table → Prop
  | found {result : Search} {left : Table} (hcheck : result.check = check)
      (hportions : result.portions = portions) : Finds check portions checked (.ok result, left)
  | ranOut {fault : Fault} {left : Table} (h : checked.RanOut fault left) :
      Finds check portions checked (.error fault, left)

/-- With these rolls of the check, given or thrown, the search comes to this outcome and so many
portions, whatever one portion is. -/
def Quest.ComesTo (quest : Quest) (rolls : List Int) (check : Outcome) (portions : Nat) : Prop :=
  ∀ table givenRolls checked description, Rolls table givenRolls rolls checked →
    Finds check portions checked ((quest.run description givenRolls).onTable table)

/-- What is left to do after the check. -/
def gatherAll (rating difficulty : Int) (time description : String) (check : Outcome) :
    Throw Search :=
  if check.success then
    let count := portionCount check.extraPoints difficulty
    if description = "" then
      pure { check, rating, difficulty, portions := count, time, items := [] }
    else do
      let portions ← gatherPortions check.extraPoints description count
      pure { check, rating, difficulty, portions := count, time, items := Harvest.merge portions }
  else pure { check, rating, difficulty, portions := 0, time, items := [] }

theorem Quest.run_eq (quest : Quest) (description : String) (givenRolls : Option (List Int)) :
    quest.run description givenRolls =
      Throw.ofExcept (searchRating quest.talents quest.doubled) >>= fun rating ↦
        Check.resolve rating quest.terrain.difficulty quest.attributes 0 givenRolls >>= fun check ↦
          gatherAll rating quest.terrain.difficulty (searchTime quest.doubled) description check :=
  rfl

theorem finds_gatherAll (rating difficulty : Int) (time description : String) (check : Outcome)
    (checked : Table) :
    Finds check (portionsOf check difficulty) checked
      ((gatherAll rating difficulty time description check).onTable checked) := by
  unfold gatherAll portionsOf
  cases check.success with
  | false => exact .found rfl rfl
  | true =>
    by_cases hdescription : description = ""
    · rw [if_pos rfl, if_pos rfl, if_pos hdescription]
      exact .found rfl rfl
    · rw [if_pos rfl, if_pos rfl, if_neg hdescription, Throw.onTable_bind]
      rcases hrun : (gatherPortions check.extraPoints description
        (portionCount check.extraPoints difficulty)).onTable checked with ⟨fault | portions, left⟩
      · exact .ranOut ((samples_gatherPortions _ _ _).failed hrun)
      · exact .found rfl rfl

theorem Quest.comesTo_judge {quest : Quest} {rolls : List Int} {rating : Int}
    (hlength : quest.attributes.length = 3) (hvalid : ValidRolls rolls)
    (hrating : searchRating quest.talents quest.doubled = .ok rating) :
    quest.ComesTo rolls (judge rating quest.terrain.difficulty quest.attributes rolls)
      (portionsOf (judge rating quest.terrain.difficulty quest.attributes rolls)
        quest.terrain.difficulty) := by
  intro table givenRolls checked description hrolls
  have hcheck := Check.comesTo_judge rating quest.terrain.difficulty hlength (Int.le_refl 0) hvalid
    table givenRolls checked hrolls
  rw [Check.boostedRating_zero] at hcheck
  rw [Quest.run_eq, hrating, Throw.onTable_bind, Throw.onTable_ofExcept]
  dsimp only
  rw [Throw.onTable_bind, hcheck]
  exact finds_gatherAll _ _ _ _ _ _

/-- A search comes to something when its check is accepted, and then to what the check yields. -/
theorem Quest.comesTo_iff {quest : Quest} {rolls : List Int} {check : Outcome} {portions : Nat} :
    quest.ComesTo rolls check portions ↔
      (quest.attributes.length = 3 ∧ ValidRolls rolls) ∧
        ∃ rating, searchRating quest.talents quest.doubled = .ok rating ∧
          judge rating quest.terrain.difficulty quest.attributes rolls = check ∧
          portionsOf check quest.terrain.difficulty = portions := by
  constructor
  · intro h
    have hfinds := h (Table.fresh (.constant 1)) _ _ "" (.given rolls)
    rcases hrun : (quest.run "" (some rolls)).onTable (Table.fresh (.constant 1)) with
      ⟨fault | result, left⟩
    · rw [hrun] at hfinds
      cases hfinds with
      | ranOut hranOut =>
        obtain ⟨_, _, hnone⟩ := hranOut
        cases hnone
    · rw [hrun] at hfinds
      obtain ⟨rating, _, hrated, hrun⟩ := Throw.onTable_bind_eq_ok_iff.mp (quest.run_eq "" _ ▸ hrun)
      obtain ⟨hrating, rfl⟩ := Throw.onTable_ofExcept_eq_ok_iff.mp hrated
      obtain ⟨outcome, checked, hcheck, hrun⟩ := Throw.onTable_bind_eq_ok_iff.mp hrun
      obtain ⟨hlength, -, others, hothers, hvalid, hjudge⟩ :=
        Check.onTable_resolve_eq_ok_iff.mp hcheck
      cases hothers with
      | given =>
        rw [Check.boostedRating_zero] at hjudge
        have hfound := finds_gatherAll rating quest.terrain.difficulty (searchTime quest.doubled) ""
          outcome (Table.fresh (.constant 1))
        rw [hrun] at hfound
        cases hfinds with
        | found hcheck hportions =>
          cases hfound with
          | found hcheck' hportions' =>
            obtain rfl : outcome = check := hcheck'.symm.trans hcheck
            exact ⟨⟨hlength, hvalid⟩, rating, hrating, hjudge, hportions'.symm.trans hportions⟩
  · rintro ⟨⟨hlength, hvalid⟩, rating, hrating, rfl, rfl⟩
    exact Quest.comesTo_judge hlength hvalid hrating

/-! ### Under better conditions -/

theorem bonus_le {known known' : Bool} {bonus : Int} (hbonus : 0 ≤ bonus)
    (h : known = true → known' = true) :
    (if known then bonus else 0) ≤ if known' then bonus else 0 := by
  cases known with
  | false =>
    rw [if_neg Bool.false_ne_true]
    split <;> omega
  | true => rw [h rfl]

/-- A search that is no harder than another one in any respect, and takes as long. -/
structure Quest.Eases (easy hard : Quest) : Prop where
  senses_le : hard.talents.senses ≤ easy.talents.senses
  wilderness_le : hard.talents.wilderness ≤ easy.talents.wilderness
  herbLore_le : hard.talents.herbLore ≤ easy.talents.herbLore
  attributes_le : List.Forall₂ (· ≤ ·) hard.attributes easy.attributes
  identification_le : easy.terrain.identification ≤ hard.terrain.identification
  occurrence_le : easy.terrain.occurrence ≤ hard.terrain.occurrence
  terrainKnown : hard.terrain.terrainKnown = true → easy.terrain.terrainKnown = true
  placeKnown : hard.terrain.placeKnown = true → easy.terrain.placeKnown = true
  doubled_eq : hard.doubled = easy.doubled

namespace Quest.Eases

variable {easy hard : Quest}

theorem rating_le (h : easy.Eases hard) : hard.talents.rating ≤ easy.talents.rating := by
  have hsenses := h.senses_le
  have hwilderness := h.wilderness_le
  have hherbLore := h.herbLore_le
  unfold Talents.rating
  omega

theorem searchRating_le (h : easy.Eases hard) {rating rating' : Int}
    (hhard : searchRating hard.talents hard.doubled = .ok rating)
    (heasy : searchRating easy.talents easy.doubled = .ok rating') : rating ≤ rating' := by
  rw [← h.doubled_eq] at heasy
  unfold searchRating at hhard heasy
  cases hdoubled : hard.doubled with
  | false =>
    rw [hdoubled, if_neg Bool.false_ne_true] at hhard heasy
    cases hhard
    cases heasy
    exact h.rating_le
  | true =>
    rw [hdoubled, if_pos rfl] at hhard heasy
    exact Rounding.oneAndAHalf_mono h.rating_le hhard heasy

theorem difficulty_le (h : easy.Eases hard) :
    easy.terrain.difficulty ≤ hard.terrain.difficulty := by
  have hidentification := h.identification_le
  have hoccurrence := h.occurrence_le
  have hterrain := bonus_le (by decide : (0 : Int) ≤ 3) h.terrainKnown
  have hplace := bonus_le (by decide : (0 : Int) ≤ 7) h.placeKnown
  unfold Terrain.difficulty
  omega

end Quest.Eases

theorem portionCost_mono {difficulty difficulty' : Int} (h : difficulty' ≤ difficulty) :
    portionCost difficulty' ≤ portionCost difficulty := by
  unfold portionCost
  omega

/-- The points pay for no fewer portions where there are more of them and each portion costs no
more. -/
theorem portionCount_mono {points points' difficulty difficulty' : Int} (hpoints : points ≤ points')
    (hdifficulty : difficulty' ≤ difficulty) :
    portionCount points difficulty ≤ portionCount points' difficulty' := by
  by_cases hneg : points < 0
  · rw [portionCount, if_pos hneg]
    exact Nat.zero_le _
  · have hnonneg : 0 ≤ points := Int.not_lt.mp hneg
    have hcost := portionCost_pos difficulty
    have hfurther : points / portionCost difficulty ≤ points' / portionCost difficulty' := by
      rw [Int.le_ediv_iff_mul_le (portionCost_pos difficulty')]
      calc
        points / portionCost difficulty * portionCost difficulty' ≤
            points / portionCost difficulty * portionCost difficulty :=
          Int.mul_le_mul_of_nonneg_left (portionCost_mono hdifficulty)
            (Int.ediv_nonneg hnonneg hcost.le)
        _ ≤ points := Int.ediv_mul_le points hcost.ne'
        _ ≤ points' := hpoints
    have hcount := portionCount_of_nonneg hnonneg difficulty
    have hcount' := portionCount_of_nonneg (hnonneg.trans hpoints) difficulty'
    omega

theorem portionsOf_mono {check better : Outcome} {difficulty difficulty' : Int}
    (hsuccess : check.success = true → better.success = true)
    (hpoints : check.extraPoints ≤ better.extraPoints) (hdifficulty : difficulty' ≤ difficulty) :
    portionsOf check difficulty ≤ portionsOf better difficulty' := by
  unfold portionsOf
  cases hcheck : check.success with
  | false =>
    rw [if_neg Bool.false_ne_true]
    exact Nat.zero_le _
  | true =>
    rw [if_pos rfl, if_pos (hsuccess hcheck)]
    exact portionCount_mono hpoints hdifficulty

/-- Talents whose rating comes out exactly with half as much again are none too large. -/
theorem Quest.rated_of_isExact {quest : Quest}
    (h : quest.doubled = true → Rounding.IsExact quest.talents.rating) : quest.Rated := by
  unfold Quest.Rated searchRating
  cases hdoubled : quest.doubled with
  | false => exact ⟨_, if_neg Bool.false_ne_true⟩
  | true => exact ⟨_, (if_pos rfl).trans (Rounding.oneAndAHalf_of_isExact (h hdoubled))⟩

/-- Two searches with the same rolls, of which one is no harder: it succeeds if the other one does,
with no fewer extra points and no fewer portions. -/
theorem better_searches_find_more {hard easy : Quest} {rolls : List Int}
    (hlength : hard.attributes.length = 3) (hvalid : ValidRolls rolls) (hhard : hard.Rated)
    (heasy : easy.Rated) (heases : easy.Eases hard) :
    ∃ check portions better more, hard.ComesTo rolls check portions ∧
      easy.ComesTo rolls better more ∧ (check.success = true → better.success = true) ∧
      check.extraPoints ≤ better.extraPoints ∧ portions ≤ more := by
  obtain ⟨rating, hrating⟩ := hhard
  obtain ⟨rating', hrating'⟩ := heasy
  have hlength' : easy.attributes.length = 3 :=
    heases.attributes_le.length_eq.symm.trans hlength
  obtain ⟨hpoints, hsuccess⟩ := Check.judge_mono rolls (heases.searchRating_le hrating hrating')
    heases.difficulty_le heases.attributes_le
  exact ⟨_, _, _, _, Quest.comesTo_judge hlength hvalid hrating,
    Quest.comesTo_judge hlength' hvalid hrating', hsuccess, hpoints,
    portionsOf_mono hsuccess hpoints heases.difficulty_le⟩

/-- A doubled search that just yields one portion yields ten when one talent and one attribute are
higher and the place is known. -/
theorem better_searches_find_more_at_known_places :
    ∃ hard easy : Quest, hard = ⟨⟨5, 5, 5⟩, ⟨6, 4, true, false⟩, [12, 12, 12], true⟩ ∧
      easy = ⟨⟨8, 5, 5⟩, ⟨6, 4, true, true⟩, [12, 13, 12], true⟩ ∧
      (ValidRolls [11, 13, 12] ∧ hard.Rated ∧ easy.Rated ∧ easy.Eases hard) ∧
      ∃ check better, hard.ComesTo [11, 13, 12] check 1 ∧ easy.ComesTo [11, 13, 12] better 10 ∧
        better.success = true ∧ check.extraPoints = 0 ∧ better.extraPoints = 9 := by
  refine ⟨_, _, rfl, rfl, ?_⟩
  have hvalid : ValidRolls [11, 13, 12] := ⟨rfl, by decide⟩
  have height : searchRating ⟨5, 5, 5⟩ true = .ok 8 := by decide +kernel
  have hnine : searchRating ⟨8, 5, 5⟩ true = .ok 9 := by decide +kernel
  have hhard : (⟨⟨5, 5, 5⟩, ⟨6, 4, true, false⟩, [12, 12, 12], true⟩ : Quest).Rated :=
    Quest.rated_of_isExact fun _ ↦ Rounding.isExact_of_le (by decide +kernel)
  have heasy : (⟨⟨8, 5, 5⟩, ⟨6, 4, true, true⟩, [12, 13, 12], true⟩ : Quest).Rated :=
    Quest.rated_of_isExact fun _ ↦ Rounding.isExact_of_le (by decide +kernel)
  have heases : (⟨⟨8, 5, 5⟩, ⟨6, 4, true, true⟩, [12, 13, 12], true⟩ : Quest).Eases
      ⟨⟨5, 5, 5⟩, ⟨6, 4, true, false⟩, [12, 12, 12], true⟩ :=
    ⟨by decide, by decide, by decide, by decide, by decide, by decide, by decide, by decide, rfl⟩
  obtain ⟨check, portions, better, more, hcomes, hcomes', hsuccess, -, -⟩ :=
    better_searches_find_more rfl hvalid hhard heasy heases
  obtain ⟨-, rating, hrating, rfl, rfl⟩ := Quest.comesTo_iff.mp hcomes
  obtain ⟨-, rating', hrating', rfl, rfl⟩ := Quest.comesTo_iff.mp hcomes'
  obtain rfl : 8 = rating := Except.ok.inj (height.symm.trans hrating)
  obtain rfl : 9 = rating' := Except.ok.inj (hnine.symm.trans hrating')
  exact ⟨⟨hvalid, hhard, heasy, heases⟩, _, _, hcomes, hcomes', hsuccess rfl, rfl, rfl⟩

end Aventuria.HerbSearch
