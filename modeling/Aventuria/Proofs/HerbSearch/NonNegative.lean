import Mathlib.Algebra.Order.BigOperators.Group.List
import Mathlib.Algebra.Order.Ring.Int
import Mathlib.Data.Bool.AllAny
import Aventuria.Proofs.Harvest.Conditions
import Aventuria.Proofs.HerbSearch.Portions

/-!
# Harvests of at least nothing

A number in a description is never negative, and dice come to what they show beyond ones on top of
their minimum (`Rolled.forall₂_least`). So a harvest can come to less than nothing exactly where
dice are thrown whose minimum is negative, and a search whose portions have no such dice finds
nothing negative either (`harvests_are_nonneg_iff`).
-/

set_option autoImplicit false
set_option relaxedAutoImplicit false

namespace Aventuria.Harvest

open Dice (Throw Table)

/-- Items that are all counted by numbers of at least zero. -/
def NonNegative (items : List Item) : Prop :=
  ∀ item ∈ items, ∃ n, item.quantity = .fixed n ∧ 0 ≤ n

/-- Items none of whose dice can come to less than nothing. -/
def DiceNonNegative (items : List Item) : Prop :=
  ∀ item ∈ items, ∀ spec, item.quantity = .dice spec → 0 ≤ spec.minimum

theorem NonNegative.quantityOf_nonneg {items : List Item} (h : NonNegative items)
    (product : String) : 0 ≤ quantityOf product items := by
  rw [quantityOf]
  refine List.sum_nonneg fun n hn ↦ ?_
  obtain ⟨item, hitem, hnumber⟩ := List.mem_filterMap.mp hn
  obtain ⟨m, hquantity, hm⟩ := h item (List.mem_of_mem_filter hitem)
  rw [hquantity] at hnumber
  rwa [← Option.some.inj hnumber]

theorem nonNegative_merge {portions : List (List Item)}
    (h : ∀ portion ∈ portions, NonNegative portion) : NonNegative (merge portions) := by
  intro item hitem
  refine ⟨_, (conserved_merge portions).quantity item hitem, ?_⟩
  refine List.sum_nonneg fun n hn ↦ ?_
  obtain ⟨portion, hportion, rfl⟩ := List.mem_map.mp hn
  exact (h portion hportion).quantityOf_nonneg item.product

/-! ### Numbers -/

theorem nonneg_of_describedItem {text : List Char} {item : Item} {n : Int}
    (h : describedItem false text = pure item) (hn : item.quantity = .fixed n) : 0 ≤ n := by
  rcases describedItem_cases h with ⟨_, _, _, _, _, rfl⟩ | ⟨_, _, count, _, _, _, rfl⟩ | rfl
  · cases hn
  · obtain rfl := Quantity.fixed.inj hn
    exact Int.natCast_nonneg count
  · rw [(singleItem_unbound text).2] at hn
    obtain rfl := Quantity.fixed.inj hn
    decide

theorem Describes.nonneg {segment : List Char} {conditions : List Threshold} {item : Item}
    (h : Describes segment conditions item) {n : Int} (hn : item.quantity = .fixed n) :
    0 ≤ n := by
  induction h with
  | plain _ _ hitem => exact nonneg_of_describedItem hitem hn
  | behind _ _ _ ih => exact ih hn

/-! ### Dice -/

/-- The least that a quantity can come to, whatever its dice show. -/
def Quantity.least : Quantity → Int
  | .fixed n => n
  | .dice spec => spec.minimum

/-- What dice show beyond ones. -/
def excess (values : List Int) : Int :=
  sum values - values.length

theorem excess_nonneg {values : List Int} (h : ∀ value ∈ values, 1 ≤ value) :
    0 ≤ excess values := by
  have hsum := List.card_nsmul_le_sum values 1 h
  rw [nsmul_one] at hsum
  exact Int.sub_nonneg_of_le hsum

theorem excess_eq_zero {values : List Int} (h : ∀ value ∈ values, value = 1) :
    excess values = 0 := by
  have hsum : sum values = values.length • 1 := List.sum_eq_card_nsmul values 1 h
  rw [excess, hsum, nsmul_one]
  exact Int.sub_self _

/-- Every item is settled at its least quantity and what its dice show beyond ones. -/
theorem Rolled.forall₂_least {items rolled : List Item} {values : List Int}
    (h : Rolled items values rolled) :
    List.Forall₂ (fun item settled ↦ ∃ shown, (∀ value ∈ shown, value ∈ values) ∧
      settled.quantity = .fixed (item.quantity.least + excess shown)) items rolled := by
  induction h with
  | nil => exact .nil
  | @fixed item n items rolled values hquantity _ ih =>
    refine .cons ⟨[], fun _ hvalue ↦ absurd hvalue List.not_mem_nil, ?_⟩ ih
    rw [hquantity]
    exact congrArg Quantity.fixed (Int.add_zero n).symm
  | @dice item spec items rolled shown values hquantity hshown _ ih =>
    refine .cons ⟨shown, fun _ hvalue ↦ List.mem_append_left _ hvalue, ?_⟩ (ih.imp ?_)
    · rw [hquantity]
      refine congrArg Quantity.fixed ?_
      rw [Quantity.least, Dice.Spec.minimum, excess, hshown]
      omega
    · rintro item settled ⟨others, hothers, hsettled⟩
      exact ⟨others, fun value hvalue ↦ List.mem_append_right _ (hothers value hvalue), hsettled⟩

theorem one_le_of_mem_sizesOf {items : List Item} : ∀ sides ∈ sizesOf items, 1 ≤ sides := by
  intro sides hsides
  obtain ⟨item, -, hsides⟩ := List.mem_flatMap.mp hsides
  unfold Item.sizes at hsides
  split at hsides
  · cases hsides
  · next spec _ =>
    have hfaces := spec.two_le_sides
    obtain rfl := List.eq_of_mem_replicate hsides
    omega

/-! ### Whole harvests -/

/-- What a description says at some points, with the dice not thrown. Its numbers are not
negative. -/
theorem exists_read (points : Option Int) (text : String) :
    ∃ items, read false points text = pure items ∧ gather points text = settleAll true items ∧
      ∀ item ∈ items, ∀ n, item.quantity = .fixed n → 0 ≤ n := by
  obtain ⟨entries, hlists, hread⟩ := exists_lists_read text
  refine ⟨kept points entries, by rw [hread, settleAll_false], hread true points, ?_⟩
  intro item hitem n hn
  obtain ⟨entry, hentry, rfl⟩ := exists_entry_of_mem_kept hitem
  obtain ⟨segment, -, hdescribes⟩ := hlists.exists_segment hentry
  exact hdescribes.nonneg hn

/-- Throwing dice whose minimum is not negative yields nothing negative. -/
theorem nonNegative_of_settleAll {items rolled : List Item} {table left : Table}
    (hrange : table.source.InRange) (hleast : ∀ item ∈ items, 0 ≤ item.quantity.least)
    (h : (settleAll true items).onTable table = (.ok rolled, left)) : NonNegative rolled := by
  obtain ⟨values, hshown, rfl, hrolled⟩ := (asks_settleAll items).of_onTable h
  have hvalues : ∀ value ∈ values, 1 ≤ value :=
    Table.forall_of_shown? (fun sides hsides n value hvalue ↦
      (hrange n sides value (one_le_of_mem_sizesOf sides hsides) hvalue).1) hshown
  intro settled hsettled
  obtain ⟨item, hitem, shown, hsubset, hquantity⟩ :=
    exists_left_of_forall₂ hrolled.forall₂_least hsettled
  have hexcess := excess_nonneg fun value hvalue ↦ hvalues value (hsubset value hvalue)
  exact ⟨_, hquantity, Int.add_nonneg (hleast item hitem) hexcess⟩

theorem inRange_constant_one : (Dice.Source.constant 1).InRange := by
  rintro n sides _ hsides ⟨⟩
  exact ⟨Int.le_refl 1, hsides⟩

/-- Where all dice show ones, every item comes to its least. -/
theorem exists_settleAll_least (items : List Item) :
    ∃ rolled left, (settleAll true items).onTable (Table.fresh (.constant 1)) =
        (.ok rolled, left) ∧
      ∀ item ∈ items, ∃ settled ∈ rolled, settled.quantity = .fixed item.quantity.least := by
  have hendless : (Dice.Source.constant 1).Endless := fun _ _ ↦ ⟨1, rfl⟩
  obtain ⟨values, hshown⟩ :=
    @Table.exists_shown? (Table.fresh (.constant 1)) hendless (sizesOf items)
  obtain ⟨rolled, hrun, hrolled⟩ := onTable_settleAll hshown
  have hones : ∀ value ∈ values, value = 1 :=
    Table.forall_of_shown? (fun _ _ _ value hvalue ↦ (Option.some.inj hvalue).symm) hshown
  refine ⟨rolled, _, hrun, fun item hitem ↦ ?_⟩
  obtain ⟨settled, hsettled, shown, hsubset, hquantity⟩ :=
    exists_right_of_forall₂ hrolled.forall₂_least hitem
  rw [excess_eq_zero fun value hvalue ↦ hones value (hsubset value hvalue), Int.add_zero]
    at hquantity
  exact ⟨settled, hsettled, hquantity⟩

/-- Items without negative numbers can come to less than nothing exactly if they have dice that
can. -/
theorem nonNegative_settleAll_iff {items : List Item}
    (hnumbers : ∀ item ∈ items, ∀ n, item.quantity = .fixed n → 0 ≤ n) :
    (∀ table rolled left, table.source.InRange →
        (settleAll true items).onTable table = (.ok rolled, left) → NonNegative rolled) ↔
      DiceNonNegative items := by
  constructor
  · intro h item hitem spec hspec
    obtain ⟨rolled, left, hrun, hleast⟩ := exists_settleAll_least items
    obtain ⟨settled, hsettled, hquantity⟩ := hleast item hitem
    obtain ⟨n, hn, hnonneg⟩ := h _ _ _ inRange_constant_one hrun settled hsettled
    rw [hquantity, hspec] at hn
    rwa [← Quantity.fixed.inj hn] at hnonneg
  · intro h table rolled left hrange hrun
    refine nonNegative_of_settleAll hrange (fun item hitem ↦ ?_) hrun
    cases hquantity : item.quantity with
    | fixed n => exact hnumbers item hitem n hquantity
    | dice spec => exact h item hitem spec hquantity

/-- Gathering a harvest asks for dice and leaves their source as it is. -/
theorem source_of_gather {text : String} {points : Option Int} {table left : Table}
    {items : List Item} (h : (gather points text).onTable table = (.ok items, left)) :
    left.source = table.source := by
  obtain ⟨entries, -, hread⟩ := exists_lists_read text
  rw [gather, hread] at h
  obtain ⟨values, -, rfl, -⟩ := (asks_settleAll (kept points entries)).of_onTable h
  rfl

end Aventuria.Harvest

namespace Aventuria.HerbSearch

open Dice (Throw Table)
open Harvest (Item NonNegative DiceNonNegative)

/-- The portions of a search are gathered on the dice that are left of its check. -/
theorem items_of_search {talents : Talents} {terrain : Terrain} {attributes : List Int}
    {doubled : Bool} {description : String} {givenRolls : Option (List Int)} {table left : Table}
    {result : Search}
    (h : (search talents terrain attributes doubled description givenRolls).onTable table =
      (.ok result, left)) :
    result.items = [] ∨ ∃ checked portions, checked.source = table.source ∧
      Gathers result.check.extraPoints description checked portions left ∧
      result.items = Harvest.merge portions := by
  obtain ⟨rating, _, hrated, h⟩ := Throw.onTable_bind_eq_ok_iff.mp h
  obtain ⟨-, rfl⟩ := Throw.onTable_ofExcept_eq_ok_iff.mp hrated
  obtain ⟨check, checked, hcheck, h⟩ := Throw.onTable_bind_eq_ok_iff.mp h
  have hsource : checked.source = table.source := by
    obtain ⟨-, -, rolls, hrolls, -⟩ := Check.onTable_resolve_eq_ok_iff.mp hcheck
    cases hrolls <;> rfl
  split at h
  · split at h
    · obtain ⟨rfl, -⟩ := Throw.onTable_pure_eq_ok_iff.mp h
      exact .inl rfl
    · obtain ⟨portions, last, hportions, h⟩ := Throw.onTable_bind_eq_ok_iff.mp h
      obtain ⟨rfl, rfl⟩ := Throw.onTable_pure_eq_ok_iff.mp h
      exact .inr ⟨checked, portions, hsource, (gathers_of_onTable hportions).2, rfl⟩
  · obtain ⟨rfl, -⟩ := Throw.onTable_pure_eq_ok_iff.mp h
    exact .inl rfl

theorem Gathers.nonNegative {points : Int} {description : String} {table left : Table}
    {portions : List (List Item)} (h : Gathers points description table portions left)
    (hrange : table.source.InRange) (hportion : ∀ table rolled left, table.source.InRange →
      (Harvest.gather (some points) description).onTable table = (.ok rolled, left) →
        NonNegative rolled) :
    ∀ portion ∈ portions, NonNegative portion := by
  induction h with
  | nil => exact fun _ hmem ↦ absurd hmem List.not_mem_nil
  | cons hfirst _ ih =>
    have hafter := Harvest.source_of_gather hfirst
    exact List.forall_mem_cons.mpr ⟨hportion _ _ _ hrange hfirst, ih (hafter ▸ hrange)⟩

/-- Whatever faces the dice show, the items of a harvest are not negative exactly if no dice that the
description has at the points in question have a negative minimum. Then what a search with so many
points finds is not negative either. -/
theorem harvests_are_nonneg_iff (description : String) (points : Option Int) :
    ∃ items, Harvest.read false points description = pure items ∧
      ((∀ table rolled left, table.source.InRange →
          (Harvest.gather points description).onTable table = (.ok rolled, left) →
            NonNegative rolled) ↔ DiceNonNegative items) ∧
      (DiceNonNegative items →
        ∀ talents terrain attributes doubled givenRolls table result left,
          table.source.InRange →
          (search talents terrain attributes doubled description givenRolls).onTable table =
            (.ok result, left) →
          points = some result.check.extraPoints → NonNegative result.items) := by
  obtain ⟨items, hread, hgather, hnumbers⟩ := Harvest.exists_read points description
  have hiff := Harvest.nonNegative_settleAll_iff hnumbers
  rw [← hgather] at hiff
  refine ⟨items, hread, hiff, fun hdice talents terrain attributes doubled givenRolls table result
    left hrange hrun hpoints ↦ ?_⟩
  rcases items_of_search hrun with hnone | ⟨checked, portions, hsource, hgathers, hitems⟩
  · rw [hnone]
    exact fun _ hitem ↦ absurd hitem List.not_mem_nil
  · rw [hitems]
    rw [← hsource] at hrange
    subst hpoints
    exact Harvest.nonNegative_merge (hgathers.nonNegative hrange (hiff.mpr hdice))

/-- One leaf less ten is less than nothing. -/
theorem not_nonNegative_of_subtraction :
    (Dice.Source.replay #[1]).InRange ∧ ∃ rolled left,
      (Harvest.gather none "W6-10 Blätter").onTable (Table.fresh (.replay #[1])) =
          (.ok rolled, left) ∧
        left.asked = #[6] ∧ rolled.map (·.quantity) = [.fixed (-9)] ∧ ¬ NonNegative rolled := by
  have hrange : (Dice.Source.replay #[1]).InRange := by
    intro n sides value hsides hvalue
    cases n with
    | zero =>
      obtain rfl := Option.some.inj hvalue
      exact ⟨Int.le_refl 1, hsides⟩
    | succ n => cases hvalue
  have htrim : Text.trim "W6-10 Blätter".toList = "W6-10 Blätter".toList := by decide
  have hmarks : ∀ c ∈ Harvest.marks, c ∉ "W6-10 Blätter".toList :=
    List.all_iff_forall_prop.mp (by decide)
  have hwords : Text.words "W6-10 Blätter".toList = ["W6-10".toList, "Blätter".toList] := by
    decide +kernel
  have hhead : Harvest.headAndProduct? "W6-10 Blätter".toList =
      some ("W6-10".toList, "Blätter".toList) := by decide
  have hspec : Dice.Spec.ofChars? "W6-10".toList =
      some ⟨1, 6, -10, "W6-10", by decide, by decide, by decide⟩ := by decide +kernel
  have hread : Harvest.gather none "W6-10 Blätter" = List.singleton <$> Harvest.diceItem true
      "Blätter" ⟨1, 6, -10, "W6-10", by decide, by decide, by decide⟩ := by
    rw [Harvest.gather, Harvest.read_of_plain _ _ (by decide) hmarks (by rw [hwords]; decide)
      (by rw [hwords]; decide) (by decide), htrim, Harvest.describedItem, hhead]
    simp only [hspec, String.ofList_toList]
  have hrun : (Harvest.gather none "W6-10 Blätter").onTable (Table.fresh (.replay #[1])) =
      (.ok [⟨"Blätter", .fixed (-9), none, true, some "W6-10", []⟩],
        (Table.fresh (.replay #[1])).ask 6) := by
    rw [hread]
    rfl
  refine ⟨hrange, _, _, hrun, rfl, rfl, fun hnonneg ↦ ?_⟩
  obtain ⟨n, hn, hle⟩ := hnonneg _ List.mem_cons_self
  obtain rfl := Harvest.Quantity.fixed.inj hn
  exact absurd hle (by decide)

end Aventuria.HerbSearch
