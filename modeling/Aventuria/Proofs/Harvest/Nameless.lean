import Aventuria.Proofs.Harvest.Naming

/-!
# Items without a name

The name of an item never has a blank at its ends (`trim_product`). It may be missing, though: a
segment with a comma where its item should be named has nothing to say, and yet it gives an item. At
some points these are the segments whose conditions are met and behind which, and behind the last
"mit", a comma comes first (`Mute`). The main result is `items_are_named_iff`.
-/

set_option autoImplicit false
set_option relaxedAutoImplicit false

namespace Aventuria.Harvest

open Dice (Throw)
open Text (EndsSolid)

/-! ### What is said in front of the narration -/

/-- What a segment without conditions says behind its last "mit", narration included. -/
def said (segment : List Char) : List Char :=
  (afterLastWith? segment).getD segment

theorem core_eq (segment : List Char) :
    core segment = Text.trim ((said segment).takeWhile (· ≠ ',')) := rfl

/-- There is always something said. -/
theorem exists_said {segment : List Char} (hne : Text.trim segment ≠ []) :
    ∃ c rest, said (Text.trim segment) = c :: rest ∧ Text.isBlank c = false := by
  unfold said
  cases hlast : afterLastWith? (Text.trim segment) with
  | none =>
    obtain ⟨c, rest, htrim⟩ := List.exists_cons_of_ne_nil hne
    exact ⟨c, rest, htrim, Text.not_isBlank_of_trim htrim⟩
  | some body =>
    obtain ⟨before, behind, -, hword, hbody, -⟩ := exists_of_afterLastWith? hlast
    obtain ⟨-, -, -, -, -, hstart⟩ := exists_gaps_of_afterBlankWord? hword
    obtain ⟨c, rest, rfl⟩ := List.exists_cons_of_ne_nil hbody
    exact ⟨c, rest, rfl, hstart c rfl⟩

/-- Only a comma leaves nothing in front of the narration. -/
theorem core_eq_nil_iff {segment : List Char} (hne : Text.trim segment ≠ []) :
    core (Text.trim segment) = [] ↔ ∃ narration, said (Text.trim segment) = ',' :: narration := by
  obtain ⟨c, rest, hsaid, hsolid⟩ := exists_said hne
  rw [core_eq, hsaid]
  by_cases hc : c = ','
  · subst hc
    exact ⟨fun _ ↦ ⟨rest, rfl⟩, fun _ ↦ rfl⟩
  · have htake : (c :: rest).takeWhile (· ≠ ',') = c :: rest.takeWhile (· ≠ ',') :=
      List.takeWhile_cons_of_pos (decide_eq_true hc)
    rw [htake, Text.trim_eq_nil_iff]
    constructor
    · intro hblanks
      rw [hblanks c List.mem_cons_self] at hsolid
      cases hsolid
    · rintro ⟨narration, hcomma⟩
      exact absurd (List.cons.inj hcomma).1 hc

/-! ### The name of one item -/

/-- A product is counted only where it has a name. -/
theorem product_facts {text head product : List Char}
    (h : headAndProduct? text = some (head, product)) :
    product ≠ [] ∧ (∀ c ∈ product.head?, Text.isBlank c = false) ∧ product <:+ text := by
  obtain ⟨gap, -, htext⟩ := exists_gap_of_headAndProduct? h
  simp only [headAndProduct?, Option.bind_eq_bind, Option.bind_eq_some_iff] at h
  obtain ⟨rest, hrest, h⟩ := h
  split at h
  · cases h
  · next hkept =>
    obtain ⟨-, rfl⟩ := Prod.mk.inj (Option.some.inj h)
    obtain ⟨-, -, -, hstart⟩ := afterBlanks?_eq_some_iff.mp hrest
    simp only [Bool.or_eq_true, List.isEmpty_iff, not_or] at hkept
    refine ⟨hkept.1, hstart, htext ▸ ?_⟩
    exact (List.suffix_append _ _).trans (List.suffix_append _ _)

theorem trim_product_of_suffix {text product : List Char} (htrim : Text.trim text = text)
    (hstart : ∀ c ∈ product.head?, Text.isBlank c = false) (hsuffix : product <:+ text) :
    Text.trim product = product := by
  have hend : EndsSolid text := htrim ▸ Text.endsSolid_trim text
  exact (hend.of_suffix hsuffix).trim_eq_self hstart

/-- An item that is counted is named after the part of its text behind the quantity. -/
theorem counted_facts {text head product : List Char} (htrim : Text.trim text = text)
    (hhead : headAndProduct? text = some (head, product)) (quantity : Quantity) :
    Text.trim (Item.plain (String.ofList product) quantity).product.toList =
        (Item.plain (String.ofList product) quantity).product.toList ∧
      ((Item.plain (String.ofList product) quantity).product = "" ↔ text = []) := by
  obtain ⟨hne, hstart, hsuffix⟩ := product_facts hhead
  have htext : text ≠ [] := by
    rintro rfl
    exact hne (List.suffix_nil.mp hsuffix)
  show Text.trim (String.ofList product).toList = (String.ofList product).toList ∧
    (String.ofList product = "" ↔ text = [])
  rw [String.toList_ofList, String.ofList_eq_empty_iff]
  exact ⟨trim_product_of_suffix htrim hstart hsuffix, iff_of_false hne htext⟩

/-- An item that is not counted is sap or named after its text. -/
theorem single_facts {text : List Char} (htrim : Text.trim text = text) :
    Text.trim (singleItem text).product.toList = (singleItem text).product.toList ∧
      ((singleItem text).product = "" ↔ text = []) := by
  unfold singleItem
  split
  · next hsap =>
    refine ⟨by decide, iff_of_false (by decide) ?_⟩
    rintro rfl
    cases hsap
  · show Text.trim (String.ofList text).toList = (String.ofList text).toList ∧
      (String.ofList text = "" ↔ text = [])
    rw [String.toList_ofList]
    exact ⟨htrim, String.ofList_eq_empty_iff⟩

theorem described_facts {text : List Char} {item : Item} (htrim : Text.trim text = text)
    (h : describedItem false text = pure item) :
    Text.trim item.product.toList = item.product.toList ∧ (item.product = "" ↔ text = []) := by
  rcases describedItem_cases h with ⟨head, product, spec, hhead, -, rfl⟩ |
    ⟨head, product, n, hhead, -, -, rfl⟩ | rfl
  · exact counted_facts htrim hhead _
  · exact counted_facts htrim hhead _
  · exact single_facts htrim

/-! ### The name that a segment gives its item -/

/-- A segment that gives an item at some points and has no name for it: its conditions are met, and
behind them and behind the last "mit" it goes on with a comma. -/
inductive Mute (points : Option Int) : List Char → Prop
  | narrated {segment narration : List Char}
      (hread : Condition.read? (Text.trim segment) = none)
      (hcomma : said (Text.trim segment) = ',' :: narration) : Mute points segment
  | behind {segment body : List Char} {condition : Condition} {threshold : Threshold}
      (hread : Condition.read? (Text.trim segment) = some (condition, body))
      (hthreshold : condition.threshold = .ok threshold)
      (hopen : threshold.isOpen points = true) (hbody : Mute points body) : Mute points segment

theorem Describes.trim_product {segment : List Char} {conditions : List Threshold} {item : Item}
    (h : Describes segment conditions item) :
    Text.trim item.product.toList = item.product.toList := by
  induction h with
  | plain _ _ hitem => exact (described_facts (Text.trim_trim _) hitem).1
  | behind _ _ _ ih => exact ih

theorem Describes.mute_iff {segment : List Char} {conditions : List Threshold} {item : Item}
    (h : Describes segment conditions item) (points : Option Int) :
    Mute points segment ↔ conditions.all (·.isOpen points) = true ∧ item.product = "" := by
  induction h with
  | @plain segment item hne hread hitem =>
    have hname : item.product = "" ↔ ∃ narration, said (Text.trim segment) = ',' :: narration :=
      (described_facts (Text.trim_trim _) hitem).2.trans (core_eq_nil_iff hne)
    rw [hname]
    constructor
    · intro hmute
      cases hmute with
      | narrated _ hcomma => exact ⟨rfl, _, hcomma⟩
      | behind hread' => cases hread.symm.trans hread'
    · rintro ⟨-, narration, hcomma⟩
      exact .narrated hread hcomma
  | @behind segment body condition threshold conditions item hread hthreshold _ ih =>
    rw [List.all_cons, Bool.and_eq_true, and_assoc]
    show _ ↔ _ ∧ _ ∧ item.product = ""
    rw [← ih]
    constructor
    · intro hmute
      cases hmute with
      | narrated hread' _ => cases hread.symm.trans hread'
      | behind hread' hthreshold' hopen hbody =>
        obtain ⟨rfl, rfl⟩ := Prod.mk.inj (Option.some.inj (hread.symm.trans hread'))
        obtain rfl := Except.ok.inj (hthreshold.symm.trans hthreshold')
        exact ⟨hopen, hbody⟩
    · rintro ⟨hopen, hbody⟩
      exact .behind hread hthreshold hopen hbody

/-! ### The names in a harvest -/

theorem Lists.exists_mute_iff {segments : List (List Char)} {entries : List Entry}
    (h : Lists segments entries) (points : Option Int) :
    "" ∈ (kept points entries).map Item.product ↔ ∃ segment ∈ segments, Mute points segment := by
  constructor
  · intro hempty
    obtain ⟨item, hitem, hname⟩ := List.mem_map.mp hempty
    obtain ⟨entry, hentry, rfl⟩ := List.mem_map.mp hitem
    obtain ⟨hentry, hopen⟩ := List.mem_filter.mp hentry
    obtain ⟨segment, hsegment, hdescribes⟩ := h.exists_segment hentry
    exact ⟨segment, hsegment, (hdescribes.mute_iff points).mpr ⟨hopen, hname⟩⟩
  · rintro ⟨segment, hsegment, hmute⟩
    obtain ⟨entry, hentry, hdescribes⟩ := h.exists_entry hsegment
    obtain ⟨hopen, hname⟩ := (hdescribes.mute_iff points).mp hmute
    refine List.mem_map.mpr ⟨entry.item, ?_, hname⟩
    exact List.mem_map_of_mem (List.mem_filter.mpr ⟨hentry, hopen⟩)

/-- Every item that a reading at some points gives has a name, without blanks at its ends. -/
def NamesItems (points : Option Int) (text : String) : Prop :=
  ∀ rolling table items left, (read rolling points text).onTable table = (.ok items, left) →
    ∀ item ∈ items,
      item.product ≠ "" ∧ Text.trim item.product.toList = item.product.toList

section
variable {rolling : Bool} {points : Option Int} {text : String} {table left : Dice.Table}
  {items : List Item}

theorem trim_product_of_read (h : (read rolling points text).onTable table = (.ok items, left)) :
    ∀ item ∈ items, Text.trim item.product.toList = item.product.toList := by
  intro item hitem
  obtain ⟨segment, -, conditions, described, hdescribes, hproduct⟩ := exists_describes_of_read h hitem
  rw [← hproduct]
  exact hdescribes.trim_product

theorem exists_nameless_iff (h : (read rolling points text).onTable table = (.ok items, left)) :
    (∃ item ∈ items, item.product = "") ↔
      ∃ segment ∈ segments text.toList, Mute points segment := by
  obtain ⟨entries, hlists, hread⟩ := exists_lists_read text
  rw [← hlists.exists_mute_iff, ← map_product_of_read hread h, List.mem_map]

theorem namesItems_iff (points : Option Int) (text : String) :
    NamesItems points text ↔ ∀ segment ∈ segments text.toList, ¬ Mute points segment := by
  constructor
  · intro hnames segment hsegment hmute
    obtain ⟨entries, -, hread⟩ := exists_lists_read text
    have hrun : (read false points text).onTable (Dice.Table.fresh .highest) =
        (.ok (kept points entries), Dice.Table.fresh .highest) := by
      rw [hread, settleAll_false, Throw.onTable_pure]
    obtain ⟨item, hitem, hname⟩ := (exists_nameless_iff hrun).mpr ⟨segment, hsegment, hmute⟩
    exact (hnames _ _ _ _ hrun item hitem).1 hname
  · intro hmute rolling table items left hrun item hitem
    refine ⟨fun hname ↦ ?_, trim_product_of_read hrun item hitem⟩
    obtain ⟨segment, hsegment, hsays⟩ := (exists_nameless_iff hrun).mp ⟨item, hitem, hname⟩
    exact hmute segment hsegment hsays

end

/-- No name has a blank at its ends. A reading gives an item without a name just where a segment
whose conditions are met begins with a comma behind them and behind its last "mit", so all items are
named where there is no such segment. -/
theorem items_are_named_iff (points : Option Int) (text : String) :
    (∀ rolling table items left, (read rolling points text).onTable table = (.ok items, left) →
      (∀ item ∈ items, Text.trim item.product.toList = item.product.toList) ∧
      ((∃ item ∈ items, item.product = "") ↔
        ∃ segment ∈ segments text.toList, Mute points segment)) ∧
    (NamesItems points text ↔ ∀ segment ∈ segments text.toList, ¬ Mute points segment) :=
  ⟨fun _ _ _ _ hrun ↦ ⟨trim_product_of_read hrun, exists_nameless_iff hrun⟩,
    namesItems_iff points text⟩

/-- A segment that is all narration gives an item without a name. -/
theorem not_namesItems_of_narration : ¬ NamesItems none ", nur Text" := by
  have hsegments : segments ", nur Text".toList = [", nur Text".toList] := by cbv
  have hmute : Mute none ", nur Text".toList := .narrated (by decide) rfl
  rw [namesItems_iff, hsegments]
  exact fun hnames ↦ hnames _ List.mem_cons_self hmute

end Aventuria.Harvest
