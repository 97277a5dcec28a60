import Aventuria.Proofs.Harvest.Merging

/-!
# The parts of a merged harvest

A merged item keeps the quantities that it was put together from, portion by portion. They are the
totals of the portions where no portion has the product in more than one item; where one has, its
items are listed one by one (`individual_rolls_are_portion_totals_iff`).
-/

set_option autoImplicit false
set_option relaxedAutoImplicit false

namespace Aventuria.Harvest

/-- A portion that has some of a product, the dice for it thrown. -/
def hasProduct (product : String) (portion : List Item) : Bool :=
  portion.any fun item ↦ item.product = product && !item.quantity.isDice

/-- What each portion that has a product has of it altogether, in the order of the portions. -/
def portionTotals (product : String) (portions : List (List Item)) : List Int :=
  (portions.filter (hasProduct product)).map (quantityOf product)

theorem hasProduct_eq_false_iff {product : String} {portion : List Item} :
    hasProduct product portion = false ↔ quantities product portion = [] := by
  rw [hasProduct, List.any_eq_false, quantities, List.filterMap_eq_nil_iff]
  constructor
  · intro h item hitem
    obtain ⟨hmem, hproduct⟩ := List.mem_filter.mp hitem
    have hdice := h item hmem
    cases hquantity : item.quantity with
    | fixed n => simp [hquantity, hproduct, Quantity.isDice] at hdice
    | dice spec => rfl
  · intro h item hmem
    cases hquantity : item.quantity with
    | fixed n =>
      intro hproduct
      have hitem := h item (List.mem_filter.mpr ⟨hmem, (Bool.and_eq_true_iff.mp hproduct).1⟩)
      rw [hquantity] at hitem
      cases hitem
    | dice spec => simp [Quantity.isDice]

/-- The total of one portion, if it has any of the product. -/
theorem portionTotals_cons (product : String) (portion : List Item) (portions : List (List Item)) :
    portionTotals product (portion :: portions) =
      (if quantities product portion = [] then [] else [quantityOf product portion]) ++
        portionTotals product portions := by
  rw [portionTotals, List.filter_cons]
  cases hhas : hasProduct product portion with
  | false => rw [if_pos (hasProduct_eq_false_iff.mp hhas)]; rfl
  | true =>
    have hne : quantities product portion ≠ [] := by
      intro hnil
      rw [hasProduct_eq_false_iff.mpr hnil] at hhas
      cases hhas
    rw [if_neg hne]
    rfl

theorem length_portionTotals_le (product : String) (portions : List (List Item)) :
    (portionTotals product portions).length ≤ (portions.flatMap (quantities product)).length := by
  induction portions with
  | nil => exact Nat.le_refl 0
  | cons portion portions ih =>
    rw [portionTotals_cons, List.flatMap_cons, List.length_append, List.length_append]
    refine Nat.add_le_add ?_ ih
    split
    · exact Nat.zero_le _
    · next hne => exact List.length_pos_iff.mpr hne

/-- Each portion has one entry exactly when none has more than one item of the product. -/
theorem flatMap_quantities_eq_iff (product : String) (portions : List (List Item)) :
    portions.flatMap (quantities product) = portionTotals product portions ↔
      ∀ portion ∈ portions, (quantities product portion).length ≤ 1 := by
  induction portions with
  | nil => simp [portionTotals]
  | cons portion portions ih =>
    rw [portionTotals_cons, List.flatMap_cons, List.forall_mem_cons, ← ih]
    have hlength := length_portionTotals_le product portions
    cases hquantities : quantities product portion with
    | nil => simp
    | cons n later =>
      rw [if_neg (List.cons_ne_nil n later), quantityOf, hquantities]
      constructor
      · intro h
        have hsame := congrArg List.length h
        simp only [List.length_append, List.length_cons, List.length_nil] at hsame
        have hlater : later = [] := List.length_eq_zero_iff.mp (by omega)
        subst hlater
        exact ⟨Nat.le_refl 1, (List.cons.inj h).2⟩
      · rintro ⟨hone, htail⟩
        have hlater : later = [] := by
          rw [List.length_cons] at hone
          exact List.length_eq_zero_iff.mp (by omega)
        rw [hlater, htail, sum, List.sum_cons, List.sum_nil, Int.add_zero]

/-- A merged item lists what it was put together from, item by item and portion by portion. These
are the totals of the portions that have the product exactly when no portion has it in two items. -/
theorem individual_rolls_are_portion_totals_iff (portions : List (List Item)) :
    ∀ item ∈ merge portions,
      item.individualRolls = portions.flatMap (quantities item.product) ∧
        (item.individualRolls = portionTotals item.product portions ↔
          ∀ portion ∈ portions, (quantities item.product portion).length ≤ 1) := by
  intro item hitem
  obtain ⟨product, -, rfl⟩ := List.mem_map.mp hitem
  have hrolls : (total product (portions.flatten.filterMap counted?)).individualRolls =
      portions.flatMap (quantities product) := by
    rw [individualRolls_total, quantities_flatten]
  refine ⟨hrolls, ?_⟩
  rw [hrolls]
  exact flatMap_quantities_eq_iff product portions

/-- A portion without the product has no entry. -/
theorem individual_rolls_are_portion_totals_of_two :
    ∃ item ∈ merge [[.plain "Beeren" (.fixed 3), .plain "Blüten" (.fixed 1)],
        [.plain "Blüten" (.fixed 4)], [.plain "Beeren" (.fixed 5)]],
      item.product = "Beeren" ∧ item.individualRolls = [3, 5] := by
  obtain ⟨item, hitem, hproduct⟩ : ∃ item ∈ merge [[.plain "Beeren" (.fixed 3),
      .plain "Blüten" (.fixed 1)], [.plain "Blüten" (.fixed 4)], [.plain "Beeren" (.fixed 5)]],
      item.product = "Beeren" :=
    ⟨_, List.mem_cons_self, rfl⟩
  obtain ⟨-, hrolls⟩ := individual_rolls_are_portion_totals_iff _ item hitem
  rw [hproduct] at hrolls
  exact ⟨item, hitem, hproduct, hrolls.mpr (by decide)⟩

/-- A portion with three berries and two more of them counts as two. -/
theorem not_portionTotals_of_bonus :
    ∃ item ∈ merge [[.plain "Beeren" (.fixed 3), .plain "Beeren" (.fixed 2)]],
      item.individualRolls = [3, 2] ∧ portionTotals item.product
        [[.plain "Beeren" (.fixed 3), .plain "Beeren" (.fixed 2)]] = [5] :=
  ⟨_, List.mem_cons_self, rfl, rfl⟩

end Aventuria.Harvest
