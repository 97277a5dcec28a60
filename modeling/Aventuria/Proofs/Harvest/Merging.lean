import Mathlib.Data.List.Basic
import Mathlib.Data.List.Induction
import Aventuria.Harvest.Merge

/-!
# Merged harvests

Merging conserves a harvest (`conserved_merge`): every product that some portion has a number of is
there once, in the order in which the portions first have it, and its quantity is what they have of
it together. Where the dice of all portions are thrown, no product is lost (`merged_merge`).
-/

set_option autoImplicit false
set_option relaxedAutoImplicit false

namespace Aventuria.Harvest

/-! ### Products -/

/-- Products that were found so far, and one more unless it is among them. -/
def withProduct (found : List String) (product : String) : List String :=
  if found.contains product then found else found ++ [product]

theorem mem_withProduct {found : List String} {product other : String} :
    other ∈ withProduct found product ↔ other ∈ found ∨ other = product := by
  unfold withProduct
  split
  · next hold =>
    constructor
    · exact .inl
    · rintro (hother | rfl)
      · exact hother
      · exact List.contains_iff_mem.mp hold
  · rw [List.mem_append, List.mem_singleton]

theorem mem_foldl_withProduct {found names : List String} {other : String} :
    other ∈ names.foldl withProduct found ↔ other ∈ found ∨ other ∈ names := by
  induction names generalizing found with
  | nil => simp
  | cons product names ih => rw [List.foldl_cons, ih, mem_withProduct, List.mem_cons, or_assoc]

/-- Products are found in the order of their first occurrence. -/
theorem pairwise_foldl_withProduct (names : List String) :
    (names.foldl withProduct []).Pairwise fun product later ↦
      names.idxOf product < names.idxOf later := by
  -- the positions of the products found so far do not change when the list is continued
  induction names using List.reverseRecOn with
  | nil => exact .nil
  | append_singleton names product ih =>
    have hmem : ∀ {other}, other ∈ names.foldl withProduct [] → other ∈ names := fun hother ↦
      (mem_foldl_withProduct.mp hother).resolve_left List.not_mem_nil
    have hold : (names.foldl withProduct []).Pairwise fun product' later ↦
        (names ++ [product]).idxOf product' < (names ++ [product]).idxOf later := by
      refine ih.imp_of_mem fun hfirst hlater hlt ↦ ?_
      rwa [List.idxOf_append_of_mem (hmem hfirst), List.idxOf_append_of_mem (hmem hlater)]
    rw [List.foldl_append, List.foldl_cons, List.foldl_nil, withProduct]
    split
    · exact hold
    · next hnew =>
      have hnot : product ∉ names := fun hproduct ↦
        hnew (List.contains_iff_mem.mpr (mem_foldl_withProduct.mpr (.inr hproduct)))
      refine List.pairwise_append.mpr ⟨hold, List.pairwise_singleton _ _, ?_⟩
      intro other hother later hlater
      obtain rfl := List.mem_singleton.mp hlater
      rw [List.idxOf_append_of_mem (hmem hother), List.idxOf_append_of_notMem hnot,
        List.idxOf_cons_self, Nat.add_zero]
      exact List.idxOf_lt_length_of_mem (hmem hother)

theorem nodup_of_pairwise_idxOf {names found : List String}
    (h : found.Pairwise fun product later ↦ names.idxOf product < names.idxOf later) :
    found.Nodup :=
  h.imp fun hlt heq ↦ by
    rw [heq] at hlt
    exact Nat.lt_irrefl _ hlt

/-! ### Quantities -/

/-- What the items have of a product, item by item. -/
def quantities (product : String) (items : List Item) : List Int :=
  (items.filter (·.product = product)).filterMap (·.quantity.number?)

theorem quantities_append (product : String) (items others : List Item) :
    quantities product (items ++ others) =
      quantities product items ++ quantities product others := by
  rw [quantities, List.filter_append, List.filterMap_append]
  rfl

theorem quantities_flatten (product : String) (portions : List (List Item)) :
    quantities product portions.flatten = portions.flatMap (quantities product) := by
  induction portions with
  | nil => rfl
  | cons portion portions ih =>
    rw [List.flatten_cons, quantities_append, ih, List.flatMap_cons]

/-- How much of a product some items have. -/
def quantityOf (product : String) (items : List Item) : Int :=
  sum (quantities product items)

theorem quantityOf_append (product : String) (items others : List Item) :
    quantityOf product (items ++ others) =
      quantityOf product items + quantityOf product others := by
  simp only [quantityOf, quantities_append, List.sum_append]

theorem quantityOf_flatten (product : String) (portions : List (List Item)) :
    quantityOf product portions.flatten = sum (portions.map (quantityOf product)) := by
  induction portions with
  | nil => rfl
  | cons portion portions ih =>
    simp only [List.flatten_cons, quantityOf_append, ih, List.map_cons, List.sum_cons]

/-- The parts of the total of a product are what the items have of it. -/
theorem individualRolls_total (product : String) (items : List Item) :
    (total product (items.filterMap counted?)).individualRolls = quantities product items := by
  show ((items.filterMap counted?).filter _).map _ = _
  rw [quantities]
  induction items with
  | nil => rfl
  | cons item items ih =>
    by_cases hproduct : item.product = product <;>
      cases hquantity : item.quantity <;>
        simp [counted?, Quantity.number?, hquantity, hproduct, ih]

/-- The total of a product counts what the items have of it. -/
theorem quantity_total (product : String) (items : List Item) :
    (total product (items.filterMap counted?)).quantity = .fixed (quantityOf product items) := by
  show Quantity.fixed (sum (total product (items.filterMap counted?)).individualRolls) = _
  rw [individualRolls_total, quantityOf]

/-! ### Whole harvests -/

/-- The products that occur with a number for their quantity, as often as they do. -/
def occurring (portions : List (List Item)) : List String :=
  (portions.flatten.filter fun item ↦ !item.quantity.isDice).map Item.product

/-- Items that conserve what some portions have. No two of them have the same product: each stands
behind those whose products occur earlier. -/
structure Conserved (portions : List (List Item)) (items : List Item) : Prop where
  mem_products_iff : ∀ product, product ∈ items.map Item.product ↔
    ∃ portion ∈ portions, ∃ item ∈ portion,
      item.product = product ∧ item.quantity.isDice = false
  ordered : (items.map Item.product).Pairwise fun product later ↦
    (occurring portions).idxOf product < (occurring portions).idxOf later
  quantity : ∀ item ∈ items,
    item.quantity = .fixed (sum (portions.map (quantityOf item.product)))
  rolls : ∀ item ∈ items,
    sum item.individualRolls = sum (portions.map (quantityOf item.product))

theorem map_product_counted (items : List Item) :
    (items.filterMap counted?).map (·.1.product) =
      (items.filter fun item ↦ !item.quantity.isDice).map Item.product := by
  induction items with
  | nil => rfl
  | cons item items ih =>
    cases hquantity : item.quantity <;>
      simp [counted?, Quantity.number?, Quantity.isDice, hquantity, ih]

theorem map_product_merge (portions : List (List Item)) :
    (merge portions).map Item.product = (occurring portions).foldl withProduct [] := by
  rw [merge, List.map_map, occurring, ← map_product_counted]
  exact List.map_id _

theorem mem_occurring_iff {portions : List (List Item)} {product : String} :
    product ∈ occurring portions ↔ ∃ portion ∈ portions, ∃ item ∈ portion,
      item.product = product ∧ item.quantity.isDice = false := by
  constructor
  · intro h
    obtain ⟨item, hitem, rfl⟩ := List.mem_map.mp h
    obtain ⟨hflat, hfixed⟩ := List.mem_filter.mp hitem
    obtain ⟨portion, hportion, hmem⟩ := List.mem_flatten.mp hflat
    exact ⟨portion, hportion, item, hmem, rfl, by simpa using hfixed⟩
  · rintro ⟨portion, hportion, item, hmem, rfl, hfixed⟩
    refine List.mem_map_of_mem (List.mem_filter.mpr ⟨?_, by simpa using hfixed⟩)
    exact List.mem_flatten.mpr ⟨portion, hportion, hmem⟩

theorem conserved_merge (portions : List (List Item)) : Conserved portions (merge portions) where
  mem_products_iff product := by
    rw [map_product_merge, mem_foldl_withProduct, mem_occurring_iff]
    exact or_iff_right List.not_mem_nil
  ordered := by
    rw [map_product_merge]
    exact pairwise_foldl_withProduct _
  quantity item hitem := by
    obtain ⟨product, -, rfl⟩ := List.mem_map.mp hitem
    rw [quantity_total, quantityOf_flatten]
    rfl
  rolls item hitem := by
    obtain ⟨product, -, rfl⟩ := List.mem_map.mp hitem
    rw [individualRolls_total, ← quantityOf, quantityOf_flatten]
    rfl

/-- Items that are what some portions come to together. -/
structure Merged (portions : List (List Item)) (items : List Item) : Prop where
  nodup : (items.map Item.product).Nodup
  mem_products_iff : ∀ product, product ∈ items.map Item.product ↔
    ∃ portion ∈ portions, ∃ item ∈ portion, item.product = product
  quantity : ∀ item ∈ items,
    item.quantity = .fixed (sum (portions.map (quantityOf item.product)))

theorem merged_merge {portions : List (List Item)}
    (h : ∀ portion ∈ portions, ∀ item ∈ portion, item.quantity.isDice = false) :
    Merged portions (merge portions) where
  nodup := nodup_of_pairwise_idxOf (conserved_merge portions).ordered
  mem_products_iff product := by
    rw [(conserved_merge portions).mem_products_iff]
    constructor
    · rintro ⟨portion, hportion, item, hitem, hproduct, -⟩
      exact ⟨portion, hportion, item, hitem, hproduct⟩
    · rintro ⟨portion, hportion, item, hitem, hproduct⟩
      exact ⟨portion, hportion, item, hitem, hproduct, h portion hportion item hitem⟩
  quantity := (conserved_merge portions).quantity

end Aventuria.Harvest
