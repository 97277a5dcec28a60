import Aventuria.Proofs.Dice.Notation
import Aventuria.Proofs.Harvest.Conditions
import Aventuria.Proofs.Harvest.Rolling
import Aventuria.Proofs.Harvest.Spelling

/-!
# What items are called

An item is called what stands behind its quantity in its segment, or the whole segment where that
has no quantity, or sap (`Names`). So its name is a part of its segment, if it is not sap
(`Describes.infix_or_sap`). What stands in a segment and is no part of a condition or a quantity
comes into the name, unless a comma, the word "mit" or the word for sap hides it
(`Describes.closing_mem`).
-/

set_option autoImplicit false
set_option relaxedAutoImplicit false

namespace Aventuria.Harvest

open Text (Run)

/-! ### The name that a text gives its item -/

/-- What may count a product: dice or a number. -/
def Counts (head : List Char) : Prop :=
  isQuantity head = true ∨ ∃ spec, Dice.Spec.ofChars? head = some spec

/-- The name of the item that a text without conditions and narration describes. -/
inductive Names : List Char → String → Prop
  | counted {head gap product : List Char} (hhead : Counts head) (hgap : Run Text.isBlank gap) :
      Names (head ++ (gap ++ product)) (String.ofList product)
  | single {text : List Char}
      (hsap : Text.startsWith "saft".toList (Text.lowerAll text) = false) :
      Names text (String.ofList text)
  | sap {text : List Char} (hsap : Text.startsWith "saft".toList (Text.lowerAll text) = true) :
      Names text "Saft"

theorem exists_gap_of_headAndProduct? {text head product : List Char}
    (h : headAndProduct? text = some (head, product)) :
    ∃ gap, Run Text.isBlank gap ∧ head ++ (gap ++ product) = text := by
  simp only [headAndProduct?, Option.bind_eq_bind, Option.bind_eq_some_iff] at h
  obtain ⟨rest, hrest, h⟩ := h
  split at h
  · cases h
  · obtain ⟨rfl, rfl⟩ := Prod.mk.inj (Option.some.inj h)
    obtain ⟨gap, hgap, htext, -⟩ := afterBlanks?_eq_some_iff.mp hrest
    exact ⟨gap, hgap, by rw [htext, List.takeWhile_append_dropWhile]⟩

theorem names_singleItem (text : List Char) : Names text (singleItem text).product := by
  unfold singleItem
  split
  · next hsap => exact .sap hsap
  · next hsap => exact .single (Bool.not_eq_true _ ▸ hsap)

theorem names_of_describedItem {text : List Char} {item : Item}
    (h : describedItem false text = pure item) : Names text item.product := by
  rcases describedItem_cases h with ⟨head, product, spec, hhead, hspec, rfl⟩ |
    ⟨head, product, n, hhead, hquantity, -, rfl⟩ | rfl
  · obtain ⟨gap, hgap, rfl⟩ := exists_gap_of_headAndProduct? hhead
    exact .counted (.inr ⟨spec, hspec⟩) hgap
  · obtain ⟨gap, hgap, rfl⟩ := exists_gap_of_headAndProduct? hhead
    exact .counted (.inl hquantity) hgap
  · exact names_singleItem text

theorem Names.infix_or_sap {text : List Char} {name : String} (h : Names text name) :
    name.toList <:+: text ∨ name = "Saft" := by
  cases h with
  | @counted head gap product =>
    rw [String.toList_ofList, ← List.append_assoc]
    exact .inl (List.suffix_append _ _).isInfix
  | single =>
    rw [String.toList_ofList]
    exact .inl List.infix_rfl
  | sap => exact .inr rfl

/-! ### Parentheses in names -/

theorem closing_not_mem_of_decimal {digits : List Char}
    (h : ∀ c ∈ digits, Text.isDecimal c = true) : ')' ∉ digits :=
  fun hc ↦ absurd (h ')' hc) (by decide)

theorem closing_not_mem_of_spells {text : List Char} {count sides : Nat} {modifier : Int}
    (h : Dice.Spec.Spells text count sides modifier) : ')' ∉ text := by
  obtain ⟨hcount, hmark, hsides, hmodifier⟩ := h
  next before digits after mark =>
  have hmark' : ')' ≠ mark := by rcases hmark with rfl | rfl <;> decide
  have hdigits := closing_not_mem_of_decimal (Text.run_of_decimal? hsides).all
  have hafter : ')' ∉ after := by
    cases hmodifier with
    | missing => exact List.not_mem_nil
    | plus h =>
      have hdigits := closing_not_mem_of_decimal (Text.run_of_decimal? h).all
      exact List.not_mem_cons_of_ne_of_not_mem (by decide) hdigits
    | minus h =>
      have hdigits := closing_not_mem_of_decimal (Text.run_of_decimal? h).all
      exact List.not_mem_cons_of_ne_of_not_mem (by decide) hdigits
  simp only [List.mem_append, List.mem_cons, not_or]
  exact ⟨closing_not_mem_of_decimal hcount.isDecimal, hmark', hdigits, hafter⟩

theorem Counts.closing_not_mem {head : List Char} (h : Counts head) : ')' ∉ head := by
  intro hc
  rcases h with hquantity | ⟨spec, hspec⟩
  · rcases Bool.or_eq_true_iff.mp hquantity with hdigits | hword
    · have hall := List.all_eq_true.mp (Bool.and_eq_true_iff.mp hdigits).2
      exact closing_not_mem_of_decimal hall hc
    · have hwords : ∀ word ∈ quantityWords, ')' ∉ word.toList := by decide
      refine hwords _ (List.contains_iff_mem.mp hword) ?_
      rw [String.toList_ofList]
      exact List.mem_map_of_mem (f := Text.patternLetter) hc
  · obtain ⟨count, sides, modifier, hspells⟩ :
        ∃ count sides modifier, Dice.Spec.Spells (Text.trim head) count sides modifier := by
      by_contra hnone
      rw [Dice.Spec.ofChars?_of_not_spells hnone] at hspec
      cases hspec
    exact closing_not_mem_of_spells hspells ((Text.mem_trim_iff (by decide)).mpr hc)

/-- A text in which nothing hides what else is said: it has no comma, no "mit" and no word for
sap. -/
structure Exposed (text : List Char) : Prop where
  comma : ',' ∉ text
  word : ¬ "mit".toList <:+: text
  sap : ¬ "saft".toList <:+: Text.lowerAll text

theorem Exposed.of_infix {part text : List Char} (h : Exposed text) (hpart : part <:+: text) :
    Exposed part where
  comma := fun hc ↦ h.comma (hpart.subset hc)
  word := fun hword ↦ h.word (hword.trans hpart)
  sap := fun hsap ↦ h.sap (hsap.trans (hpart.map Text.lower))

theorem Exposed.core_eq {text : List Char} (h : Exposed text) : core text = Text.trim text := by
  have hwith : afterLastWith? text = none := by
    rw [Option.eq_none_iff_forall_ne_some]
    intro body hbody
    obtain ⟨before, rest, rfl, hrest, -⟩ := exists_of_afterLastWith? hbody
    obtain ⟨front, back, -, -, rfl, -⟩ := exists_gaps_of_afterBlankWord? hrest
    exact h.word ⟨before ++ front, back ++ body, by simp only [List.append_assoc]⟩
  have hcomma : ∀ c ∈ text, decide (c ≠ ',') = true :=
    fun c hc ↦ decide_eq_true (ne_of_mem_of_not_mem hc h.comma)
  rw [core, hwith, Option.getD_none, List.takeWhile_eq_self_iff.mpr hcomma]

theorem Names.closing_mem {text : List Char} {name : String} (h : Names text name)
    (hexposed : Exposed text) (hc : ')' ∈ text) : ')' ∈ name.toList := by
  cases h with
  | @counted head gap product hhead hgap =>
    rw [String.toList_ofList]
    simp only [List.mem_append] at hc
    refine (hc.resolve_left hhead.closing_not_mem).resolve_left fun hc ↦ ?_
    exact absurd (hgap.all ')' hc) (by decide)
  | single => rwa [String.toList_ofList]
  | sap hsap => exact absurd (List.isPrefixOf_iff_prefix.mp hsap).isInfix hexposed.sap

/-! ### The name that a segment gives its item -/

theorem isInfix_core (segment : List Char) : core segment <:+: segment := by
  have hbody : (afterLastWith? segment).getD segment <:+ segment := by
    cases hlast : afterLastWith? segment with
    | none => exact List.suffix_rfl
    | some body => exact suffix_of_afterLastWith? hlast
  exact (Text.isInfix_trim _).trans ((List.takeWhile_prefix _).isInfix.trans hbody.isInfix)

theorem Describes.infix_or_sap {segment : List Char} {conditions : List Threshold} {item : Item}
    (h : Describes segment conditions item) :
    item.product.toList <:+: segment ∨ item.product = "Saft" := by
  induction h with
  | @plain segment item _ _ hitem =>
    have hcore := (isInfix_core (Text.trim segment)).trans (Text.isInfix_trim segment)
    exact (names_of_describedItem hitem).infix_or_sap.imp_left (·.trans hcore)
  | @behind segment body _ _ _ _ hread _ _ ih =>
    have hbody := (Condition.suffix_of_read? hread).isInfix.trans (Text.isInfix_trim segment)
    exact ih.imp_left (·.trans hbody)

/-- A closing parenthesis that nothing hides is part of the name. -/
theorem Describes.closing_mem {segment : List Char} {conditions : List Threshold} {item : Item}
    (h : Describes segment conditions item) (hexposed : Exposed segment) (hc : ')' ∈ segment) :
    ')' ∈ item.product.toList := by
  induction h with
  | @plain segment item _ _ hitem =>
    have hexposed' := hexposed.of_infix (Text.isInfix_trim segment)
    rw [hexposed'.core_eq, Text.trim_trim] at hitem
    exact (names_of_describedItem hitem).closing_mem hexposed'
      ((Text.mem_trim_iff (by decide)).mpr hc)
  | @behind segment body condition threshold conditions item hread _ _ ih =>
    obtain ⟨header, gap, htext, hspells, hgap, -⟩ := Condition.read?_eq_some_iff.mp hread
    have hbody := (Condition.suffix_of_read? hread).isInfix.trans (Text.isInfix_trim segment)
    refine ih (hexposed.of_infix hbody) ?_
    have hheader : ')' ∉ header := hspells.not_mem (by decide) (by decide) (by decide) (by decide)
    rw [← Text.mem_trim_iff (by decide), ← htext] at hc
    simp only [List.mem_append] at hc
    exact (hc.resolve_left hheader).resolve_left (hgap.not_mem (by decide))

/-! ### The names in a harvest -/

/-- A reading names its items like the entries that it keeps, whether or not dice are thrown. -/
theorem map_product_of_read {rolling : Bool} {points : Option Int} {text : String}
    {entries : List Entry}
    (hread : ∀ rolling points, read rolling points text = settleAll rolling (kept points entries))
    {table left : Dice.Table} {items : List Item}
    (h : (read rolling points text).onTable table = (.ok items, left)) :
    items.map Item.product = (kept points entries).map Item.product := by
  rw [hread] at h
  cases rolling with
  | false =>
    rw [settleAll_false] at h
    obtain ⟨rfl, -⟩ := Dice.Throw.onTable_pure_eq_ok_iff.mp h
    rfl
  | true =>
    obtain ⟨values, -, -, hrolled⟩ := (asks_settleAll (kept points entries)).of_onTable h
    have hproducts := congrArg (List.map Prod.fst) hrolled.map_eq
    rwa [List.map_map, List.map_map] at hproducts

/-- Every item that a reading gives has the name of an item that some segment describes. -/
theorem exists_describes_of_read {rolling : Bool} {points : Option Int} {text : String}
    {table left : Dice.Table} {items : List Item}
    (h : (read rolling points text).onTable table = (.ok items, left)) {item : Item}
    (hitem : item ∈ items) :
    ∃ segment ∈ segments text.toList, ∃ conditions described,
      Describes segment conditions described ∧ described.product = item.product := by
  obtain ⟨entries, hlists, hread⟩ := exists_lists_read text
  have hproduct := List.mem_map_of_mem (f := Item.product) hitem
  rw [map_product_of_read hread h] at hproduct
  obtain ⟨described, hdescribed, hproduct⟩ := List.mem_map.mp hproduct
  obtain ⟨entry, hentry, rfl⟩ := exists_entry_of_mem_kept hdescribed
  obtain ⟨segment, hsegment, hdescribes⟩ := hlists.exists_segment hentry
  exact ⟨segment, hsegment, _, _, hdescribes, hproduct⟩

end Aventuria.Harvest
