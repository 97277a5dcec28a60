import Aventuria.Proofs.Harvest.Reading

/-!
# Conditions on a harvest

Items may be left out while a description is read, or afterwards by the condition that each of them
names. An item names its outermost condition only, so leaving out afterwards may keep more: the two
agree exactly when no condition that is met hides one that is not
(`read_filters_afterwards_iff`).
-/

set_option autoImplicit false
set_option relaxedAutoImplicit false

namespace Aventuria.Harvest

open Dice (Throw)

/-- Whether an item may be kept as far as the condition that it names is concerned. -/
def Item.isFor (points : Int) (item : Item) : Bool :=
  item.threshold.all (·.isMet points)

/-- Leaving items out while reading leaves out those that name a condition which is not met. -/
def FiltersAfterwards (text : String) (points : Int) : Prop :=
  ∀ table, ∃ items, (read false none text).onTable table = (.ok items, table) ∧
    (read false (some points) text).onTable table = (.ok (items.filter (·.isFor points)), table)

theorem Entry.isFor_item (entry : Entry) (points : Int) :
    entry.item.isFor points = entry.conditions.head?.all (·.isMet points) := by
  rw [Item.isFor, entry.threshold_eq]

theorem Entry.isOpen_none (entry : Entry) : entry.isOpen none = true :=
  List.all_eq_true.mpr fun _ _ ↦ rfl

theorem Entry.isOpen_some (entry : Entry) (points : Int) :
    entry.isOpen (some points) = entry.conditions.all (·.isMet points) := rfl

theorem kept_none (entries : List Entry) : kept none entries = entries.map Entry.item := by
  rw [kept, List.filter_eq_self.mpr fun entry _ ↦ entry.isOpen_none]

theorem Entry.isFor_of_isOpen {entry : Entry} {points : Int}
    (h : entry.isOpen (some points) = true) : entry.item.isFor points = true := by
  rw [isFor_item]
  cases hconditions : entry.conditions with
  | nil => rfl
  | cons outer inner =>
    rw [isOpen_some, hconditions, List.all_cons, Bool.and_eq_true] at h
    exact h.1

theorem filter_kept_none (points : Int) (entries : List Entry) :
    (kept none entries).filter (·.isFor points) =
      (entries.filter (·.item.isFor points)).map Entry.item := by
  rw [kept_none, List.filter_map]
  rfl

theorem filter_isOpen_sublist (points : Int) (entries : List Entry) :
    List.Sublist (entries.filter (·.isOpen (some points))) (entries.filter (·.item.isFor points)) :=
  List.monotone_filter_right entries fun _ h ↦ Entry.isFor_of_isOpen h

/-- Reading with points never keeps more than leaving out afterwards does. -/
theorem kept_some_sublist (points : Int) (entries : List Entry) :
    List.Sublist (kept (some points) entries) ((kept none entries).filter (·.isFor points)) := by
  rw [filter_kept_none, kept]
  exact (filter_isOpen_sublist points entries).map Entry.item

theorem kept_some_eq_iff (points : Int) (entries : List Entry) :
    kept (some points) entries = (kept none entries).filter (·.isFor points) ↔
      ∀ entry ∈ entries, entry.item.isFor points = true → entry.isOpen (some points) = true := by
  rw [filter_kept_none, kept]
  constructor
  · intro h entry hentry hfor
    -- The items may repeat, so it is the number of entries that is compared.
    have hlength := congrArg List.length h
    rw [List.length_map, List.length_map] at hlength
    have hsame := (filter_isOpen_sublist points entries).eq_of_length hlength
    have hmem : entry ∈ entries.filter (·.item.isFor points) :=
      List.mem_filter.mpr ⟨hentry, hfor⟩
    rw [← hsame] at hmem
    exact (List.mem_filter.mp hmem).2
  · intro h
    have hsame : entries.filter (·.isOpen (some points)) =
        entries.filter (·.item.isFor points) := by
      refine List.filter_congr fun entry hentry ↦ ?_
      rw [Bool.eq_iff_iff]
      exact ⟨Entry.isFor_of_isOpen, h entry hentry⟩
    rw [hsame]

/-! ### From entries to segments -/

section
variable {α β : Type} {R : α → β → Prop} {as : List α} {bs : List β}

theorem exists_right_of_forall₂ (h : List.Forall₂ R as bs) {a : α} (ha : a ∈ as) :
    ∃ b ∈ bs, R a b := by
  induction h with
  | nil => cases ha
  | @cons other b as bs hfirst _ ih =>
    rcases List.mem_cons.mp ha with rfl | ha
    · exact ⟨b, List.mem_cons_self, hfirst⟩
    · obtain ⟨b, hb, hfound⟩ := ih ha
      exact ⟨b, List.mem_cons_of_mem _ hb, hfound⟩

theorem exists_left_of_forall₂ (h : List.Forall₂ R as bs) {b : β} (hb : b ∈ bs) :
    ∃ a ∈ as, R a b :=
  exists_right_of_forall₂ (R := flip R) h.flip hb

end

theorem Lists.exists_entry {segments : List (List Char)} {entries : List Entry}
    (h : Lists segments entries) {segment : List Char} (hmem : segment ∈ segments) :
    ∃ entry ∈ entries, Describes segment entry.conditions entry.item :=
  exists_right_of_forall₂ h hmem

theorem Lists.exists_segment {segments : List (List Char)} {entries : List Entry}
    (h : Lists segments entries) {entry : Entry} (hmem : entry ∈ entries) :
    ∃ segment ∈ segments, Describes segment entry.conditions entry.item :=
  exists_left_of_forall₂ h hmem

theorem exists_entry_of_mem_kept {points : Option Int} {entries : List Entry} {item : Item}
    (h : item ∈ kept points entries) : ∃ entry ∈ entries, entry.item = item := by
  obtain ⟨entry, hentry, hitem⟩ := List.mem_map.mp h
  exact ⟨entry, (List.mem_filter.mp hentry).1, hitem⟩

/-- Some condition of a segment that is met hides one that is not. -/
def Hides (points : Int) (segment : List Char) : Prop :=
  ∃ outer inner item, Describes segment (outer :: inner) item ∧ outer.isMet points = true ∧
    ∃ condition ∈ inner, condition.isMet points = false

theorem Describes.hides_iff {segment : List Char} {entry : Entry}
    (h : Describes segment entry.conditions entry.item) (points : Int) :
    Hides points segment ↔
      entry.item.isFor points = true ∧ ¬ entry.isOpen (some points) = true := by
  rw [entry.isFor_item, entry.isOpen_some]
  constructor
  · rintro ⟨outer, inner, item, hdescribes, houter, condition, hmem, hunmet⟩
    obtain ⟨hconditions, -⟩ := h.unique hdescribes
    rw [hconditions]
    refine ⟨houter, fun hall ↦ ?_⟩
    have hmet := List.all_eq_true.mp hall condition (List.mem_cons_of_mem _ hmem)
    rw [hunmet] at hmet
    cases hmet
  · rintro ⟨houter, hclosed⟩
    cases hconditions : entry.conditions with
    | nil =>
      rw [hconditions] at hclosed
      exact absurd rfl hclosed
    | cons outer inner =>
      rw [hconditions] at h houter hclosed
      have houter : outer.isMet points = true := houter
      rw [List.all_cons, houter, Bool.true_and, Bool.not_eq_true, List.all_eq_false] at hclosed
      obtain ⟨condition, hmem, hunmet⟩ := hclosed
      exact ⟨outer, inner, entry.item, h, houter, condition, hmem, by simpa using hunmet⟩

theorem filtersAfterwards_iff_kept {text : String} {entries : List Entry}
    (h : ∀ rolling points, read rolling points text = settleAll rolling (kept points entries))
    (points : Int) :
    FiltersAfterwards text points ↔
      kept (some points) entries = (kept none entries).filter (·.isFor points) := by
  unfold FiltersAfterwards
  simp only [h, settleAll_false, Throw.onTable_pure]
  constructor
  · intro hfilters
    obtain ⟨items, hall, hkept⟩ := hfilters (Dice.Table.fresh Dice.Source.highest)
    obtain rfl := Except.ok.inj (Prod.mk.inj hall).1
    exact Except.ok.inj (Prod.mk.inj hkept).1
  · intro hkept table
    exact ⟨kept none entries, rfl, by rw [hkept]⟩

theorem filtersAfterwards_iff (text : String) (points : Int) :
    FiltersAfterwards text points ↔
      ∀ segment ∈ segments text.toList, ¬ Hides points segment := by
  obtain ⟨entries, hlists, hread⟩ := exists_lists_read text
  rw [filtersAfterwards_iff_kept hread, kept_some_eq_iff]
  constructor
  · intro h segment hsegment hhides
    obtain ⟨entry, hentry, hdescribes⟩ := hlists.exists_entry hsegment
    obtain ⟨hfor, hclosed⟩ := (hdescribes.hides_iff points).mp hhides
    exact hclosed (h entry hentry hfor)
  · intro h entry hentry hfor
    obtain ⟨segment, hsegment, hdescribes⟩ := hlists.exists_segment hentry
    by_contra hclosed
    exact h segment hsegment ((hdescribes.hides_iff points).mpr ⟨hfor, hclosed⟩)

/-- Reading with points keeps some of the items that leaving out afterwards keeps, in their order,
and it keeps all of them exactly when no segment hides a condition that is not met behind one that
is. -/
theorem read_filters_afterwards_iff (text : String) (points : Int) :
    (∃ items sublist, (∀ table, (read false none text).onTable table = (.ok items, table)) ∧
      (∀ table, (read false (some points) text).onTable table = (.ok sublist, table)) ∧
      List.Sublist sublist (items.filter (·.isFor points))) ∧
    (FiltersAfterwards text points ↔
      ∀ segment ∈ segments text.toList, ¬ Hides points segment) := by
  refine ⟨?_, filtersAfterwards_iff text points⟩
  obtain ⟨entries, -, hread⟩ := exists_lists_read text
  refine ⟨kept none entries, kept (some points) entries, fun table ↦ ?_, fun table ↦ ?_,
    kept_some_sublist points entries⟩
  · rw [hread, settleAll_false, Throw.onTable_pure]
  · rw [hread, settleAll_false, Throw.onTable_pure]

/-- Five points meet the outer of two conditions and not the inner one. -/
theorem not_filtersAfterwards_nested :
    ¬ FiltersAfterwards "IF TaP*>=3: IF TaP*>=7: W6 Beeren" 5 := by
  obtain ⟨item, -, hitem⟩ := exists_describedItem (core (Text.trim "W6 Beeren".toList))
  have hplain : Describes "W6 Beeren".toList [] item := .plain (by decide) (by decide) (hitem false)
  have hinner : Condition.read? (Text.trim "IF TaP*>=7: W6 Beeren".toList) =
      some (⟨">=", ['7']⟩, "W6 Beeren".toList) := by decide
  have houter : Condition.read? (Text.trim "IF TaP*>=3: IF TaP*>=7: W6 Beeren".toList) =
      some (⟨">=", ['3']⟩, "IF TaP*>=7: W6 Beeren".toList) := by decide
  have hdescribes := Describes.behind houter rfl (.behind hinner rfl hplain)
  have hsegments : segments "IF TaP*>=3: IF TaP*>=7: W6 Beeren".toList =
      ["IF TaP*>=3: IF TaP*>=7: W6 Beeren".toList] := by cbv
  rw [filtersAfterwards_iff, hsegments]
  intro h
  exact h _ List.mem_cons_self ⟨_, _, _, hdescribes, by decide, _, List.mem_cons_self, by decide⟩

end Aventuria.Harvest
