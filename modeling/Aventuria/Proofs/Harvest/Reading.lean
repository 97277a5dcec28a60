import Aventuria.Proofs.Dice.Table
import Aventuria.Proofs.Harvest.Segments
import Aventuria.Proofs.Text.Character
import Mathlib.Data.List.Forall2

/-!
# What a description says

Reading a description mixes three things: taking its segments apart, judging conditions and
throwing dice. Here they are separated. A segment describes one item behind some conditions,
whatever the points and whether or not dice are thrown (`Describes`). A reading keeps the items
whose conditions are all met, and settles them one after the other (`exists_lists_read`).
-/

set_option autoImplicit false
set_option relaxedAutoImplicit false

namespace Aventuria.Harvest

open Dice (Throw)

/-! ### Numbers and conditions are readable -/

theorem not_allDigits_of_quantityWord {word : List Char}
    (h : String.ofList (word.map Text.patternLetter) ∈ quantityWords) :
    Text.allDigits word = false := by
  have hwords : ∀ w ∈ quantityWords, Text.allDigits w.toList = false := by decide
  rw [← Bool.not_eq_true]
  intro hdigits
  have hall : ∀ c ∈ word, Text.isDigitLike c = true := by
    unfold Text.allDigits at hdigits
    simpa using (Bool.and_eq_true_iff.mp hdigits).2
  have hself : word.map Text.patternLetter = word.map id :=
    List.map_congr_left fun c hc ↦ Text.patternLetter_of_isDigitLike (hall c hc)
  have hword := hwords _ h
  rw [hself, List.map_id, String.toList_ofList, hdigits] at hword
  cases hword

theorem numberOfDigits_of_decimal {digits : List Char} (hne : digits ≠ [])
    (hall : ∀ c ∈ digits, Text.isDecimal c = true) :
    numberOfDigits digits = .ok (Text.value digits) := by
  rw [numberOfDigits, Text.decimal?_eq_some_iff.mpr ⟨⟨hne, hall⟩, rfl⟩]

/-- What stands in front of a product as its quantity is a number. -/
theorem exists_numberOfWord {word : List Char} (h : isQuantity word = true) :
    ∃ n, numberOfWord word = .ok n := by
  unfold numberOfWord
  split
  · next n _ => exact ⟨n, rfl⟩
  · by_cases hdigits : Text.allDigits word = true
    · rw [if_pos hdigits]
      unfold isQuantity at h
      rcases Bool.or_eq_true_iff.mp h with hdecimal | hword
      · obtain ⟨hne, hall⟩ : word ≠ [] ∧ ∀ c ∈ word, Text.isDecimal c = true := by
          simpa using hdecimal
        exact ⟨Text.value word, numberOfDigits_of_decimal hne hall⟩
      · rw [not_allDigits_of_quantityWord (List.contains_iff_mem.mp hword)] at hdigits
        cases hdigits
    · exact ⟨1, if_neg hdigits⟩

theorem exists_comparator {text rest : List Char} {symbol : String}
    (h : symbol? text = some (symbol, rest)) :
    ∃ comparator, Comparator.ofSymbol symbol = .ok comparator := by
  rw [symbol?.eq_def] at h
  split at h <;> simp only [Option.some.injEq, Prod.mk.injEq, reduceCtorEq] at h <;>
    rw [← h.1] <;> exact ⟨_, rfl⟩

/-- A condition as written demands something, and there is something behind it. -/
theorem Condition.demands_of_read? {text body : List Char} {condition : Condition}
    (h : read? text = some (condition, body)) :
    (∃ threshold, condition.threshold = .ok threshold) ∧ Text.trim body ≠ [] := by
  simp only [read?, Option.bind_eq_bind, Option.bind_eq_some_iff] at h
  obtain ⟨_, _, _, _, _, _, ⟨symbol, rest⟩, hsymbol, h⟩ := h
  obtain ⟨comparator, hcomparator⟩ := exists_comparator hsymbol
  split at h
  · cases h
  · next hdigits =>
    split at h
    · next behind _ =>
      split at h
      · cases h
      · next hbody =>
        obtain ⟨rfl, rfl⟩ := Prod.mk.inj (Option.some.inj h)
        constructor
        · have hnumber := numberOfDigits_of_decimal (by simpa using hdigits)
            fun c hc ↦ List.all_eq_true.mp List.all_takeWhile c hc
          exact ⟨_, by rw [threshold, hcomparator, ok_bind, hnumber, ok_bind]⟩
        · refine Text.trim_trimLeft_ne_nil fun hnil ↦ hbody ?_
          rw [hnil]
          rfl
    · cases h

/-! ### Items that are settled -/

/-- An item whose dice are thrown now. An item without dice stays as it is. -/
def Item.roll (item : Item) : Throw Item :=
  match item.quantity with
  | .fixed _ => pure item
  | .dice spec => do
    let roll ← spec.roll ("Harvest: " ++ item.product)
    pure { Item.thrown item.product spec roll with threshold := item.threshold }

/-- An item is settled by throwing its dice if so wanted. -/
def Item.settle (rolling : Bool) (item : Item) : Throw Item :=
  if rolling then item.roll else pure item

def Item.withThreshold (threshold : Threshold) (item : Item) : Item :=
  { item with threshold := some threshold }

/-- An item without dice is settled already. -/
theorem Item.settle_of_fixed {item : Item} {n : Int} (h : item.quantity = .fixed n)
    (rolling : Bool) : item.settle rolling = pure item := by
  unfold settle roll
  rw [h]
  exact ite_self _

theorem Item.settle_withThreshold (rolling : Bool) (threshold : Threshold) (item : Item) :
    (item.withThreshold threshold).settle rolling =
      withThreshold threshold <$> item.settle rolling := by
  cases hquantity : item.quantity with
  | fixed n =>
    have hbound : (item.withThreshold threshold).quantity = .fixed n := hquantity
    rw [settle_of_fixed hquantity, settle_of_fixed hbound, map_pure]
  | dice spec =>
    cases rolling with
    | false => exact (map_pure _ _).symm
    | true =>
      simp only [settle, roll, withThreshold, hquantity, if_true, map_bind, map_pure]

theorem singleItem_unbound (text : List Char) :
    (singleItem text).threshold = none ∧ (singleItem text).quantity = .fixed 1 := by
  unfold singleItem
  split <;> exact ⟨rfl, rfl⟩

/-- A text describes one item, and the dice of that item are all that a reading may throw. -/
theorem exists_describedItem (text : List Char) :
    ∃ item : Item, item.threshold = none ∧
      ∀ rolling, describedItem rolling text = item.settle rolling := by
  obtain ⟨hthreshold, hquantity⟩ := singleItem_unbound text
  have hsingle := fun rolling ↦ (Item.settle_of_fixed hquantity rolling).symm
  unfold describedItem
  split
  · next head product _ =>
    split
    · next spec _ =>
      exact ⟨Item.plain (String.ofList product) (.dice spec), rfl, fun _ ↦ rfl⟩
    · by_cases hnumber : isQuantity head = true
      · obtain ⟨n, hn⟩ := exists_numberOfWord hnumber
        refine ⟨Item.plain (String.ofList product) (.fixed n), rfl, fun rolling ↦ ?_⟩
        rw [if_pos hnumber, hn, Item.settle_of_fixed rfl]
        rfl
      · refine ⟨singleItem text, hthreshold, fun rolling ↦ ?_⟩
        rw [if_neg hnumber, hsingle]
  · exact ⟨singleItem text, hthreshold, hsingle⟩

/-- The item is counted by dice or by a number in front of its product, or it is a single one. -/
theorem describedItem_cases {text : List Char} {item : Item}
    (h : describedItem false text = pure item) :
    (∃ head product spec, headAndProduct? text = some (head, product) ∧
      Dice.Spec.ofChars? head = some spec ∧
        item = .plain (String.ofList product) (.dice spec)) ∨
    (∃ head product n, headAndProduct? text = some (head, product) ∧ isQuantity head = true ∧
      numberOfWord head = .ok n ∧ item = .plain (String.ofList product) (.fixed n)) ∨
    item = singleItem text := by
  unfold describedItem at h
  split at h
  · next head product hhead =>
    split at h
    · next spec hspec =>
      exact .inl ⟨head, product, spec, hhead, hspec, (Throw.pure_inj h).symm⟩
    · split at h
      · next hquantity =>
        obtain ⟨n, hn⟩ := exists_numberOfWord hquantity
        rw [hn] at h
        exact .inr (.inl ⟨head, product, n, hhead, hquantity, hn, (Throw.pure_inj h).symm⟩)
      · exact .inr (.inr (Throw.pure_inj h).symm)
  · exact .inr (.inr (Throw.pure_inj h).symm)

/-! ### What a segment describes -/

/-- What a segment says, whatever the points: the conditions it stands behind, the outermost first,
and its item with no dice thrown. Of several conditions the item keeps the outermost. -/
inductive Describes : List Char → List Threshold → Item → Prop
  | plain {segment : List Char} {item : Item} (hne : Text.trim segment ≠ [])
      (hread : Condition.read? (Text.trim segment) = none)
      (hitem : describedItem false (core (Text.trim segment)) = pure item) :
      Describes segment [] item
  | behind {segment body : List Char} {condition : Condition} {threshold : Threshold}
      {conditions : List Threshold} {item : Item}
      (hread : Condition.read? (Text.trim segment) = some (condition, body))
      (hthreshold : condition.threshold = .ok threshold)
      (hbody : Describes body conditions item) :
      Describes segment (threshold :: conditions) (item.withThreshold threshold)

/-- Every segment describes something. -/
theorem exists_describes (segment : List Char) (hne : Text.trim segment ≠ []) :
    ∃ conditions item, Describes segment conditions item := by
  cases hread : Condition.read? (Text.trim segment) with
  | none =>
    obtain ⟨item, -, hitem⟩ := exists_describedItem (core (Text.trim segment))
    exact ⟨[], item, .plain hne hread (hitem false)⟩
  | some found =>
    obtain ⟨condition, body⟩ := found
    obtain ⟨⟨threshold, hthreshold⟩, hbody⟩ := Condition.demands_of_read? hread
    have : body.length < segment.length :=
      Nat.lt_of_lt_of_le (Condition.length_of_read? hread) (Text.length_trim_le segment)
    obtain ⟨conditions, item, hdescribes⟩ := exists_describes body hbody
    exact ⟨threshold :: conditions, item.withThreshold threshold,
      .behind hread hthreshold hdescribes⟩
termination_by segment.length

/-- A segment describes only one thing. -/
theorem Describes.unique {segment : List Char} {conditions others : List Threshold}
    {item other : Item} (h : Describes segment conditions item)
    (hother : Describes segment others other) : conditions = others ∧ item = other := by
  induction h generalizing others other with
  | plain _ hread hitem =>
    cases hother with
    | plain _ _ hitem' => exact ⟨rfl, Throw.pure_inj (hitem.symm.trans hitem')⟩
    | behind hread' _ _ =>
      rw [hread] at hread'
      cases hread'
  | behind hread hthreshold _ ih =>
    cases hother with
    | plain _ hread' _ =>
      rw [hread] at hread'
      cases hread'
    | behind hread' hthreshold' hbody' =>
      rw [hread] at hread'
      obtain ⟨rfl, rfl⟩ := Prod.mk.inj (Option.some.inj hread')
      rw [hthreshold] at hthreshold'
      obtain rfl := Except.ok.inj hthreshold'
      obtain ⟨rfl, rfl⟩ := ih hbody'
      exact ⟨rfl, rfl⟩

/-- The condition that an item names is the outermost one. -/
theorem Describes.threshold_eq {segment : List Char} {conditions : List Threshold} {item : Item}
    (h : Describes segment conditions item) : item.threshold = conditions.head? := by
  cases h with
  | plain _ _ hitem =>
    obtain ⟨item', hthreshold, hitem'⟩ := exists_describedItem (core (Text.trim segment))
    rw [Throw.pure_inj (hitem.symm.trans (hitem' false)), hthreshold]
    rfl
  | behind _ _ _ => rfl

/-! ### What a reading makes of it -/

section
variable (rolling : Bool) (points : Option Int)

theorem readSegment_plain {segment : List Char} (hne : Text.trim segment ≠ [])
    (hread : Condition.read? (Text.trim segment) = none) :
    readSegment rolling points segment =
      some <$> describedItem rolling (core (Text.trim segment)) := by
  rw [readSegment]
  simp only [List.isEmpty_iff, if_neg hne]
  split
  · next hsome =>
    rw [hread] at hsome
    cases hsome
  · rfl

theorem readSegment_behind {segment body : List Char} {condition : Condition}
    {threshold : Threshold} (hread : Condition.read? (Text.trim segment) = some (condition, body))
    (hthreshold : condition.threshold = .ok threshold) :
    readSegment rolling points segment =
      if threshold.isOpen points then
        Option.map (Item.withThreshold threshold) <$> readSegment rolling points body
      else pure none := by
  have hne : Text.trim segment ≠ [] := by
    intro hnil
    rw [hnil] at hread
    cases hread
  rw [readSegment]
  simp only [List.isEmpty_iff, if_neg hne]
  split
  · next hsome =>
    rw [hread] at hsome
    obtain ⟨rfl, rfl⟩ := Prod.mk.inj (Option.some.inj hsome)
    rw [hthreshold]
    rfl
  · next hnone =>
    rw [hread] at hnone
    cases hnone

/-- All conditions of a segment decide together whether its item is kept; then it is settled. -/
theorem Describes.readSegment_eq {segment : List Char} {conditions : List Threshold} {item : Item}
    (h : Describes segment conditions item) :
    readSegment rolling points segment =
      if conditions.all (·.isOpen points) then some <$> item.settle rolling else pure none := by
  induction h with
  | @plain segment item hne hread hitem =>
    obtain ⟨item', -, hitem'⟩ := exists_describedItem (core (Text.trim segment))
    obtain rfl := Throw.pure_inj (hitem.symm.trans (hitem' false))
    rw [readSegment_plain rolling points hne hread, hitem']
    rfl
  | @behind _ _ _ threshold conditions item hread hthreshold _ ih =>
    rw [readSegment_behind rolling points hread hthreshold, ih, List.all_cons]
    by_cases hopen : threshold.isOpen points = true
    · by_cases hinner : conditions.all (·.isOpen points) = true
      · simp [hopen, hinner, Item.settle_withThreshold]
      · simp [hopen, hinner]
    · simp [hopen]

end

/-! ### Whole descriptions -/

/-- What one segment of a description says. -/
structure Entry where
  conditions : List Threshold
  item : Item
  threshold_eq : item.threshold = conditions.head?

def Entry.isOpen (entry : Entry) (points : Option Int) : Bool :=
  entry.conditions.all (·.isOpen points)

/-- The items whose conditions are all met. -/
def kept (points : Option Int) (entries : List Entry) : List Item :=
  (entries.filter (·.isOpen points)).map Entry.item

theorem kept_cons (points : Option Int) (entry : Entry) (entries : List Entry) :
    kept points (entry :: entries) =
      if entry.isOpen points then entry.item :: kept points entries else kept points entries := by
  unfold kept
  rw [List.filter_cons]
  split <;> rfl

/-- The entries say one by one what the segments describe. -/
def Lists (segments : List (List Char)) (entries : List Entry) : Prop :=
  List.Forall₂ (fun segment entry ↦ Describes segment entry.conditions entry.item) segments entries

def settleAll (rolling : Bool) (items : List Item) : Throw (List Item) :=
  items.mapM (Item.settle rolling)

theorem exists_lists {segments : List (List Char)} (h : ∀ s ∈ segments, Text.trim s ≠ []) :
    ∃ entries, Lists segments entries := by
  induction segments with
  | nil => exact ⟨[], .nil⟩
  | cons segment segments ih =>
    rw [List.forall_mem_cons] at h
    obtain ⟨conditions, item, hdescribes⟩ := exists_describes segment h.1
    obtain ⟨entries, hlists⟩ := ih h.2
    exact ⟨⟨conditions, item, hdescribes.threshold_eq⟩ :: entries, .cons hdescribes hlists⟩

theorem Lists.readSegments_eq {segments : List (List Char)} {entries : List Entry}
    (h : Lists segments entries) (rolling : Bool) (points : Option Int) :
    readSegments rolling points segments = settleAll rolling (kept points entries) := by
  induction h with
  | nil => rfl
  | @cons segment entry segments entries hdescribes _ ih =>
    have hentry : readSegment rolling points segment =
        if entry.isOpen points then some <$> entry.item.settle rolling else pure none :=
      hdescribes.readSegment_eq rolling points
    rw [readSegments, hentry, ih, kept_cons]
    by_cases hopen : entry.isOpen points = true
    · simp [hopen, settleAll]
    · simp [hopen]

theorem read_eq_readSegments (rolling : Bool) (points : Option Int) (text : String) :
    read rolling points text = readSegments rolling points (segments text.toList) := by
  unfold read
  split
  · next hempty =>
    rw [segments_of_blanks (Text.trim_eq_nil_iff.mp (List.isEmpty_iff.mp hempty))]
    rfl
  · rfl

/-- A description that nothing takes apart is the text of one item. -/
theorem read_of_plain (rolling : Bool) (points : Option Int) {text : String}
    (hne : Text.trim text.toList ≠ []) (hmarks : ∀ c ∈ marks, c ∉ text.toList)
    (hund : "und".toList ∉ Text.words text.toList) (hmit : "mit".toList ∉ Text.words text.toList)
    (hread : Condition.read? (Text.trim text.toList) = none) :
    read rolling points text =
      List.singleton <$> describedItem rolling (Text.trim text.toList) := by
  have hsegments : segments text.toList = [Text.trim text.toList] :=
    segments_of_plain hne (hmarks '(' (by decide)) (hmarks ';' (by decide)) hund
  have hcore : core (Text.trim text.toList) = Text.trim text.toList := by
    rw [core_of_plain, Text.trim_trim]
    · exact fun hc ↦ hmarks ',' (by decide) (Text.trim_subset _ hc)
    · rwa [Text.words_trim]
  rw [← Text.trim_trim] at hne hread
  rw [read_eq_readSegments, hsegments, readSegments, readSegment_plain rolling points hne hread,
    Text.trim_trim, hcore]
  simp only [readSegments, bind_map_left, pure_bind]
  rfl

/-- A description lists its entries once and for all; a reading keeps the open ones and settles
them in their order. -/
theorem exists_lists_read (text : String) :
    ∃ entries, Lists (segments text.toList) entries ∧ ∀ rolling points,
      read rolling points text = settleAll rolling (kept points entries) := by
  obtain ⟨entries, hlists⟩ := exists_lists fun _ h ↦ trim_ne_nil_of_mem_segments h
  refine ⟨entries, hlists, fun rolling points ↦ ?_⟩
  rw [read_eq_readSegments, hlists.readSegments_eq]

/-- A reading that throws no dice has its items at once. -/
theorem settleAll_false (items : List Item) : settleAll false items = pure items := by
  rw [settleAll, show Item.settle false = fun item ↦ pure (id item) from rfl, List.mapM_pure,
    List.map_id]

end Aventuria.Harvest
