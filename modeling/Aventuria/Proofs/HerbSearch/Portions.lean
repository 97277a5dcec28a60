import Mathlib.Order.Bounds.Basic
import Aventuria.HerbSearch
import Aventuria.Proofs.Check.Outcome
import Aventuria.Proofs.Harvest.Merging
import Aventuria.Proofs.Harvest.Rolling

/-!
# Portions of herbs

A search is a check. After a failure nothing is found and no further die is thrown; a success yields
one portion and as many more as the points pay for, and every portion is gathered with the points
of the check on the dice that the check and the portions before it have left. What is found is all
of these portions together (`search_yields_portions`).
-/

set_option autoImplicit false
set_option relaxedAutoImplicit false

namespace Aventuria.HerbSearch

open Dice (Throw Table)
open Harvest (Item Merged)

/-! ### How many portions -/

theorem portionCost_pos (difficulty : Int) : 0 < portionCost difficulty := by
  unfold portionCost
  omega

/-- The points pay for so many further portions and for no more. -/
theorem isGreatest_furtherPortions (points difficulty : Int) :
    IsGreatest {k : Int | k * max 1 (difficulty / 2) ≤ points}
      (points / portionCost difficulty) := by
  have hcost := portionCost_pos difficulty
  constructor
  · exact Int.ediv_mul_le points hcost.ne'
  · intro k hk
    exact (Int.le_ediv_iff_mul_le hcost).mpr hk

theorem portionCount_of_nonneg {points : Int} (h : 0 ≤ points) (difficulty : Int) :
    (portionCount points difficulty : Int) = 1 + points / portionCost difficulty := by
  have hfurther : 0 ≤ points / portionCost difficulty :=
    Int.ediv_nonneg h (portionCost_pos difficulty).le
  rw [portionCount, if_neg (Int.not_lt.mpr h), Int.toNat_of_nonneg (by omega)]

/-! ### Portion after portion -/

/-- Portions that are gathered one after the other, and the table after them. -/
inductive Gathers (points : Int) (description : String) : Table → List (List Item) → Table → Prop
  | nil {table : Table} : Gathers points description table [] table
  | cons {table after left : Table} {portion : List Item} {portions : List (List Item)}
      (hfirst : (Harvest.gather (some points) description).onTable table = (.ok portion, after))
      (hrest : Gathers points description after portions left) :
      Gathers points description table (portion :: portions) left

section
variable {points : Int} {description : String} {table left : Table}
  {portions : List (List Item)}

theorem gathers_of_onTable {count : Nat}
    (h : (gatherPortions points description count).onTable table = (.ok portions, left)) :
    portions.length = count ∧ Gathers points description table portions left := by
  induction count generalizing table portions with
  | zero =>
    obtain ⟨rfl, rfl⟩ := Throw.onTable_pure_eq_ok_iff.mp h
    exact ⟨rfl, .nil⟩
  | succ count ih =>
    obtain ⟨portion, after, hfirst, h⟩ := Throw.onTable_bind_eq_ok_iff.mp h
    obtain ⟨rest, last, hrest, h⟩ := Throw.onTable_bind_eq_ok_iff.mp h
    obtain ⟨rfl, rfl⟩ := Throw.onTable_pure_eq_ok_iff.mp h
    obtain ⟨rfl, hgathers⟩ := ih hrest
    exact ⟨rfl, .cons hfirst hgathers⟩

theorem Gathers.onTable (h : Gathers points description table portions left) :
    (gatherPortions points description portions.length).onTable table = (.ok portions, left) := by
  induction h with
  | nil => rfl
  | cons hfirst _ ih =>
    refine Throw.onTable_bind_eq_ok_iff.mpr ⟨_, _, hfirst, ?_⟩
    refine Throw.onTable_bind_eq_ok_iff.mpr ⟨_, _, ih, ?_⟩
    exact Throw.onTable_pure _ _

theorem Gathers.not_isDice (h : Gathers points description table portions left) :
    ∀ portion ∈ portions, ∀ item ∈ portion, item.quantity.isDice = false := by
  induction h with
  | nil => exact fun _ hportion ↦ absurd hportion List.not_mem_nil
  | cons hfirst _ ih =>
    exact List.forall_mem_cons.mpr ⟨Harvest.not_isDice_of_gather hfirst, ih⟩

end

/-! ### Whole searches -/

/-- What a check of some difficulty yields where a description says what one portion is, and the
table after it. -/
inductive Yields (difficulty : Int) (description : String) (check : Check.Outcome) (table : Table) :
    Nat → List Item → Table → Prop
  | nothing (hfailed : check.success = false) :
      Yields difficulty description check table 0 [] table
  | undescribed {count : Nat} {further : Int} (hsuccess : check.success = true)
      (hdescription : description = "")
      (hfurther : IsGreatest {k : Int | k * max 1 (difficulty / 2) ≤ check.extraPoints} further)
      (hcount : (count : Int) = 1 + further) :
      Yields difficulty description check table count [] table
  | portions {portions : List (List Item)} {items : List Item} {left : Table} {further : Int}
      (hsuccess : check.success = true) (hdescription : description ≠ "")
      (hfurther : IsGreatest {k : Int | k * max 1 (difficulty / 2) ≤ check.extraPoints} further)
      (hcount : (portions.length : Int) = 1 + further)
      (hgathers : Gathers check.extraPoints description table portions left)
      (hrolled : ∀ portion ∈ portions, ∀ item ∈ portion, item.quantity.isDice = false)
      (hmerged : Merged portions items) :
      Yields difficulty description check table portions.length items left

theorem yields_of_gatherPortions {difficulty : Int} {description : String} {check : Check.Outcome}
    {table left : Table} {portions : List (List Item)} (hsuccess : check.success = true)
    (hpoints : 0 ≤ check.extraPoints) (hdescription : description ≠ "")
    (h : (gatherPortions check.extraPoints description
      (portionCount check.extraPoints difficulty)).onTable table = (.ok portions, left)) :
    Yields difficulty description check table (portionCount check.extraPoints difficulty)
      (Harvest.merge portions) left := by
  obtain ⟨hlength, hgathers⟩ := gathers_of_onTable h
  have hcount := portionCount_of_nonneg hpoints difficulty
  have hrolled := hgathers.not_isDice
  rw [← hlength] at hcount ⊢
  exact .portions hsuccess hdescription (isGreatest_furtherPortions _ _) hcount hgathers hrolled
    (Harvest.merged_merge hrolled)

/-- Wherever a search comes to a result, this is what its check yields. The check throws its dice
first, if its rolls are not given. -/
theorem search_yields_portions {talents : Talents} {terrain : Terrain} {attributes : List Int}
    {doubled : Bool} {description : String} {givenRolls : Option (List Int)} {table left : Table}
    {result : Search}
    (h : (search talents terrain attributes doubled description givenRolls).onTable table =
      (.ok result, left)) :
    ∃ rating checked, searchRating talents doubled = .ok rating ∧
      (Check.resolve rating terrain.difficulty attributes 0 givenRolls).onTable table =
        (.ok result.check, checked) ∧
      Check.Rolls table givenRolls result.check.rolls checked ∧
      Yields terrain.difficulty description result.check checked result.portions result.items
        left := by
  obtain ⟨rating, _, hrated, h⟩ := Throw.onTable_bind_eq_ok_iff.mp h
  obtain ⟨hrating, rfl⟩ := Throw.onTable_ofExcept_eq_ok_iff.mp hrated
  obtain ⟨check, checked, hcheck, h⟩ := Throw.onTable_bind_eq_ok_iff.mp h
  obtain ⟨-, -, rolls, hrolls, -, hjudge⟩ := Check.onTable_resolve_eq_ok_iff.mp hcheck
  obtain rfl : check.rolls = rolls := by rw [← hjudge]; rfl
  refine ⟨rating, checked, hrating, ?_⟩
  cases hsuccess : check.success with
  | false =>
    rw [hsuccess, if_neg Bool.false_ne_true] at h
    obtain ⟨rfl, rfl⟩ := Throw.onTable_pure_eq_ok_iff.mp h
    exact ⟨hcheck, hrolls, .nothing hsuccess⟩
  | true =>
    have hpoints : 0 ≤ check.extraPoints := by
      rw [← hjudge] at hsuccess ⊢
      exact (Check.judge_extraPoints_sign _ _ _ _).1 hsuccess
    rw [if_pos hsuccess] at h
    by_cases hdescription : description = ""
    · rw [if_pos hdescription] at h
      obtain ⟨rfl, rfl⟩ := Throw.onTable_pure_eq_ok_iff.mp h
      exact ⟨hcheck, hrolls, .undescribed hsuccess hdescription (isGreatest_furtherPortions _ _)
        (portionCount_of_nonneg hpoints _)⟩
    · rw [if_neg hdescription] at h
      obtain ⟨portions, last, hportions, h⟩ := Throw.onTable_bind_eq_ok_iff.mp h
      obtain ⟨rfl, rfl⟩ := Throw.onTable_pure_eq_ok_iff.mp h
      exact ⟨hcheck, hrolls, yields_of_gatherPortions hsuccess hpoints hdescription hportions⟩

/-- Four points at a difficulty of six pay for a second portion, and the two come to eight
berries. -/
theorem search_yields_portions_twice :
    ∃ result checked left, (search ⟨10, 10, 10⟩ ⟨4, 2, false, false⟩ [12, 12, 12] false "W6 Beeren"
        none).onTable (Table.fresh (Dice.Source.replay #[5, 6, 7, 3, 5])) = (.ok result, left) ∧
      left.asked = #[20, 20, 20, 6, 6] ∧
      result.items.map (fun item ↦ (item.product, item.quantity)) = [("Beeren", .fixed 8)] ∧
      Yields 6 "W6 Beeren" result.check checked 2 result.items left := by
  have hdescribes : Harvest.Describes "W6 Beeren".toList []
      (.plain "Beeren" (.dice ⟨1, 6, 0, "W6", by decide, by decide, by decide⟩)) :=
    .plain (by decide +kernel) (by decide +kernel) rfl
  have hlists : Harvest.Lists (Harvest.segments "W6 Beeren".toList)
      [⟨[], .plain "Beeren" (.dice ⟨1, 6, 0, "W6", by decide, by decide, by decide⟩), rfl⟩] := by
    have hsegments : Harvest.segments "W6 Beeren".toList = ["W6 Beeren".toList] := by
      decide +kernel
    rw [hsegments]
    exact .cons hdescribes .nil
  have hgather : Harvest.gather (some 4) "W6 Beeren" = Harvest.settleAll true
      [.plain "Beeren" (.dice ⟨1, 6, 0, "W6", by decide, by decide, by decide⟩)] := by
    rw [Harvest.gather, Harvest.read_eq_readSegments, hlists.readSegments_eq]
    rfl
  have hgathers : Gathers 4 "W6 Beeren"
      ((Table.fresh (Dice.Source.replay #[5, 6, 7, 3, 5])).askAll [20, 20, 20])
      [[⟨"Beeren", .fixed 3, none, true, some "W6", []⟩],
        [⟨"Beeren", .fixed 5, none, true, some "W6", []⟩]]
      ((Table.fresh (Dice.Source.replay #[5, 6, 7, 3, 5])).askAll [20, 20, 20, 6, 6]) :=
    .cons (by rw [hgather]; rfl) (.cons (by rw [hgather]; rfl) .nil)
  have hrun : (search ⟨10, 10, 10⟩ ⟨4, 2, false, false⟩ [12, 12, 12] false "W6 Beeren"
      none).onTable (Table.fresh (Dice.Source.replay #[5, 6, 7, 3, 5])) =
        (.ok ⟨Check.judge 10 6 [12, 12, 12] [5, 6, 7], 10, 6, 2, "1 Stunde",
          [⟨"Beeren", .fixed 8, none, true, some "W6", [3, 5]⟩]⟩,
          (Table.fresh (Dice.Source.replay #[5, 6, 7, 3, 5])).askAll [20, 20, 20, 6, 6]) := by
    refine Throw.onTable_bind_eq_ok_iff.mpr ⟨_, _, rfl, ?_⟩
    refine Throw.onTable_bind_eq_ok_iff.mpr ⟨_, _, rfl, ?_⟩
    refine Throw.onTable_bind_eq_ok_iff.mpr ⟨_, _, hgathers.onTable, ?_⟩
    rfl
  obtain ⟨-, checked, -, -, -, hyields⟩ := search_yields_portions hrun
  exact ⟨_, checked, _, hrun, rfl, rfl, hyields⟩

end Aventuria.HerbSearch
