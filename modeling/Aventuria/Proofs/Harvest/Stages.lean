import Mathlib.Data.List.Nodup
import Aventuria.Proofs.Harvest.Merging

/-!
# Merging in stages

A harvest may be merged as it comes in: merging some portions, merging others and merging what both
come to yields the items that merging all portions at once does, in the same order and the same in
everything but the parts that they list (`merge_conserves_in_stages`). The condition of an item is
the one of the first portion that has the product, so what counts besides the totals of the stages
is whether a stage has any of the product (`SameTotal`).
-/

set_option autoImplicit false
set_option relaxedAutoImplicit false

namespace Aventuria.Harvest

/-! ### Products -/

theorem withProduct_of_mem {found : List String} {product : String} (h : product ∈ found) :
    withProduct found product = found :=
  if_pos (List.contains_iff_mem.mpr h)

/-- Products that occur again are found as if they occurred once. -/
theorem foldl_withProduct_foldl (found names : List String) :
    (names.foldl withProduct []).foldl withProduct found = names.foldl withProduct found := by
  induction names using List.reverseRecOn with
  | nil => rfl
  | append_singleton names product ih =>
    simp only [List.foldl_append, List.foldl_cons, List.foldl_nil]
    by_cases hold : product ∈ names
    · rw [withProduct_of_mem (mem_foldl_withProduct.mpr (.inr hold)), ih,
        withProduct_of_mem (mem_foldl_withProduct.mpr (.inr hold))]
    · have hnew : ¬(names.foldl withProduct []).contains product = true := fun hcontains ↦
        (mem_foldl_withProduct.mp (List.contains_iff_mem.mp hcontains)).elim
          (fun hnil ↦ List.not_mem_nil hnil) hold
      rw [withProduct, if_neg hnew, List.foldl_append, ih]
      rfl

/-! ### Totals -/

/-- The items of one product. -/
def ownItems (product : String) (items : List (Item × Int)) : List (Item × Int) :=
  items.filter (·.1.product = product)

theorem ownItems_append (product : String) (items more : List (Item × Int)) :
    ownItems product (items ++ more) = ownItems product items ++ ownItems product more :=
  List.filter_append items more

/-- The total of a product only depends on the items of that product. -/
theorem total_congr {product : String} {items others : List (Item × Int)}
    (h : ownItems product items = ownItems product others) :
    total product items = total product others := by
  have hown : ∀ items, total product (ownItems product items) = total product items := by
    intro items
    simp only [total, ownItems, List.filter_filter, Bool.and_self]
  rw [← hown items, h, hown]

/-- An item without the parts that it was put together from. -/
def Item.summary (item : Item) : Item :=
  { item with individualRolls := [] }

/-- Items that have some of a product if others have, and then have the same of it. -/
structure SameTotal (product : String) (items others : List (Item × Int)) : Prop where
  eq_nil_iff : ownItems product items = [] ↔ ownItems product others = []
  number : sum ((ownItems product items).map (·.2)) = sum ((ownItems product others).map (·.2))
  threshold : (total product items).threshold = (total product others).threshold
  rolled : (total product items).rolled = (total product others).rolled
  diceLabel : (total product items).diceLabel = (total product others).diceLabel

section
variable (product : String) (items more : List (Item × Int))

theorem threshold_total_append :
    (total product (items ++ more)).threshold =
      if ownItems product items = [] then (total product more).threshold
      else (total product items).threshold := by
  show (ownItems product (items ++ more)).head?.bind _ = _
  rw [ownItems_append]
  split
  · next hnil => rw [hnil]; rfl
  · next hsome => rw [List.head?_append_of_ne_nil _ hsome]; rfl

theorem rolled_total_append :
    (total product (items ++ more)).rolled =
      ((total product items).rolled || (total product more).rolled) := by
  show (ownItems product (items ++ more)).any _ = _
  rw [ownItems_append, List.any_append]
  rfl

theorem diceLabel_total_append :
    (total product (items ++ more)).diceLabel =
      (total product items).diceLabel.or (total product more).diceLabel := by
  show ((ownItems product (items ++ more)).filterMap _).find? _ = _
  rw [ownItems_append, List.filterMap_append, List.find?_append]
  rfl

end

section
variable {product : String} {items others more further : List (Item × Int)}

theorem SameTotal.of_ownItems_eq (h : ownItems product items = ownItems product others) :
    SameTotal product items others := by
  have htotal := total_congr h
  exact ⟨by rw [h], by rw [h], by rw [htotal], by rw [htotal], by rw [htotal]⟩

theorem SameTotal.append (h : SameTotal product items others)
    (hmore : SameTotal product more further) :
    SameTotal product (items ++ more) (others ++ further) where
  eq_nil_iff := by
    simp only [ownItems_append, List.append_eq_nil_iff, h.eq_nil_iff, hmore.eq_nil_iff]
  number := by
    simp only [ownItems_append, List.map_append, List.sum_append, h.number, hmore.number]
  threshold := by
    simp only [threshold_total_append, h.eq_nil_iff, h.threshold, hmore.threshold]
  rolled := by rw [rolled_total_append, rolled_total_append, h.rolled, hmore.rolled]
  diceLabel := by
    rw [diceLabel_total_append, diceLabel_total_append, h.diceLabel, hmore.diceLabel]

theorem SameTotal.summary_eq (h : SameTotal product items others) :
    (total product items).summary = (total product others).summary := by
  have hquantity : (total product items).quantity = (total product others).quantity :=
    congrArg Quantity.fixed h.number
  simp only [Item.summary, hquantity, h.threshold, h.rolled, h.diceLabel]
  rfl

end

/-! ### One stage -/

/-- The total of every product, with its number. -/
def totals (items : List (Item × Int)) : List (Item × Int) :=
  (products items).map fun product ↦
    (total product items, sum ((ownItems product items).map (·.2)))

theorem filterMap_counted?_merge (portions : List (List Item)) :
    (merge portions).filterMap counted? = totals (portions.flatten.filterMap counted?) := by
  rw [merge, List.filterMap_map]
  exact congrFun List.filterMap_eq_map _

theorem mem_products_iff {product : String} {items : List (Item × Int)} :
    product ∈ products items ↔ ownItems product items ≠ [] := by
  have hproducts : products items = (items.map (·.1.product)).foldl withProduct [] := rfl
  rw [hproducts, mem_foldl_withProduct, or_iff_right List.not_mem_nil, List.mem_map, ownItems, Ne,
    List.filter_eq_nil_iff]
  simp only [decide_eq_true_eq, not_forall, not_not, exists_prop]

/-- A stage has one item of each product that it has any of. -/
theorem ownItems_totals (product : String) (items : List (Item × Int)) :
    ownItems product (totals items) =
      if ownItems product items = [] then []
      else [(total product items, sum ((ownItems product items).map (·.2)))] := by
  have hnodup : (products items).Nodup :=
    nodup_of_pairwise_idxOf (pairwise_foldl_withProduct (items.map (·.1.product)))
  rw [ownItems, totals, List.filter_map]
  show ((products items).filter (· = product)).map _ = _
  rw [List.filter_eq, hnodup.count]
  by_cases hnil : ownItems product items = []
  · rw [if_pos hnil, if_neg fun hmem ↦ mem_products_iff.mp hmem hnil]
    rfl
  · rw [if_neg hnil, if_pos (mem_products_iff.mpr hnil)]
    rfl

theorem diceLabel_total_ne (product : String) (items : List (Item × Int)) :
    (total product items).diceLabel ≠ some "" := by
  intro hempty
  have hfound : ((ownItems product items).filterMap (·.1.diceLabel)).find? (· ≠ "") = some "" :=
    hempty
  have hne := List.find?_some hfound
  exact of_decide_eq_true hne rfl

/-- The total of a single item, which has no empty text for its dice. -/
theorem total_singleton {item : Item} (hlabel : item.diceLabel ≠ some "") (n : Int) :
    total item.product [(item, n)] =
      { item with quantity := .fixed n, individualRolls := [n] } := by
  have hown : [(item, n)].filter (·.1.product = item.product) = [(item, n)] := by simp
  have hfound : ([(item, n)].filterMap (·.1.diceLabel)).find? (· ≠ "") = item.diceLabel := by
    cases hitem : item.diceLabel with
    | none => simp [hitem]
    | some label =>
      have hne : label ≠ "" := fun hempty ↦ hlabel (by rw [hitem, hempty])
      simp [hitem, hne]
  simp only [total, hown, hfound, List.map_cons, List.map_nil, List.head?_cons, Option.bind_some,
    List.any_cons, List.any_nil, Bool.or_false, List.sum_cons, List.sum_nil,
    Int.add_zero]

/-- What a stage comes to is what it was put together from. -/
theorem sameTotal_totals (product : String) (items : List (Item × Int)) :
    SameTotal product items (totals items) := by
  have hown := ownItems_totals product items
  by_cases hnil : ownItems product items = []
  · rw [if_pos hnil, ← hnil] at hown
    exact .of_ownItems_eq hown.symm
  · rw [if_neg hnil] at hown
    have hsingle : total product (totals items) = total product
        [(total product items, sum ((ownItems product items).map (·.2)))] :=
      total_congr (hown.trans (by simp [ownItems, total]))
    have htotal := hsingle.trans (total_singleton (diceLabel_total_ne product items) _)
    refine ⟨by simp [hown, hnil], ?_, by rw [htotal], by rw [htotal], by rw [htotal]⟩
    simp only [hown, List.map_cons, List.map_nil, List.sum_cons, List.sum_nil, Int.add_zero]

/-! ### Two stages -/

theorem products_append_totals (items more : List (Item × Int)) :
    products (items ++ more) = products (totals items ++ totals more) := by
  have hnames : ∀ items, (totals items).map (·.1.product) =
      (items.map (·.1.product)).foldl withProduct [] := by
    intro items
    rw [totals, List.map_map]
    exact List.map_id _
  show ((items ++ more).map _).foldl withProduct [] =
    ((totals items ++ totals more).map _).foldl withProduct []
  simp only [List.map_append, List.foldl_append, hnames, foldl_withProduct_foldl]

theorem summary_merge_append (first second : List (List Item)) :
    (merge (first ++ second)).map Item.summary =
      (merge [merge first, merge second]).map Item.summary := by
  have hall : (first ++ second).flatten.filterMap counted? =
      first.flatten.filterMap counted? ++ second.flatten.filterMap counted? := by
    rw [List.flatten_append, List.filterMap_append]
  have hstages : [merge first, merge second].flatten.filterMap counted? =
      totals (first.flatten.filterMap counted?) ++ totals (second.flatten.filterMap counted?) := by
    simp only [List.flatten_cons, List.flatten_nil, List.append_nil, List.filterMap_append,
      filterMap_counted?_merge]
  rw [merge, merge, hall, hstages, ← products_append_totals, List.map_map, List.map_map]
  refine List.map_congr_left fun product _ ↦ ?_
  exact ((sameTotal_totals product _).append (sameTotal_totals product _)).summary_eq

/-- A merged harvest has each product that occurs with a number once, in the order in which they
first occur, with everything that the portions have of it. Merging in two stages makes no difference
but for the parts that the items list. -/
theorem merge_conserves_in_stages :
    (∀ portions : List (List Item), Conserved portions (merge portions)) ∧
      ∀ first second : List (List Item), (merge (first ++ second)).map Item.summary =
        (merge [merge first, merge second]).map Item.summary :=
  ⟨conserved_merge, summary_merge_append⟩

end Aventuria.Harvest
