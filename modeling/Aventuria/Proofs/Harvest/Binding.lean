import Aventuria.Proofs.Harvest.Narration
import Aventuria.Proofs.Text.Numeral

/-!
# Segments bound to a condition

A condition that is written in front of a segment is read as the same condition again
(`threshold_written`), and what it is written in front of as the same segment (`read?_binding`). A
segment that is bound so is left out where the condition is not met; otherwise it is read as before,
and its item names the new condition (`readSegment_binding`). A segment may be bound to several
conditions, since a bound segment is a segment again (`readSegment_bindingAll`). The main result is
`bound_segments_are_read`.
-/

set_option autoImplicit false
set_option relaxedAutoImplicit false

namespace Aventuria.Harvest

open Dice (Throw)

/-! ### Written conditions -/

theorem Comparator.ofSymbol_symbol (comparator : Comparator) :
    ofSymbol comparator.symbol = .ok comparator := by
  cases comparator <;> rfl

theorem Comparator.symbol_mem_symbols (comparator : Comparator) : comparator.symbol ∈ symbols := by
  cases comparator <;> decide

namespace Threshold

/-- The symbol and the digits in which a condition is written. -/
def written (threshold : Threshold) : Condition :=
  ⟨threshold.comparator.symbol, Text.numeral threshold.value.toNat⟩

/-- The text that binds a segment to a condition. -/
def binding (threshold : Threshold) (segment : String) : String :=
  s!"IF {threshold.describe}: {segment}"

/-- What stands in front of a bound segment. -/
def header (threshold : Threshold) : List Char :=
  "IF ".toList ++ (threshold.describe.toList ++ [':'])

theorem toList_binding (threshold : Threshold) (segment : String) :
    (threshold.binding segment).toList = threshold.header ++ ' ' :: segment.toList := by
  simp only [binding, header, String.toList_append, List.append_assoc]
  rfl

section
variable {threshold : Threshold} (hvalue : 0 ≤ threshold.value)
include hvalue

/-- What a written condition demands is what the condition did. -/
theorem threshold_written : threshold.written.threshold = .ok threshold := by
  have hdigits := numberOfDigits_of_decimal (Text.numeral_ne_nil threshold.value.toNat)
    fun _ ↦ Text.isDecimal_of_mem_numeral
  rw [Text.value_numeral] at hdigits
  rw [Condition.threshold, written, Comparator.ofSymbol_symbol, ok_bind, hdigits, ok_bind,
    Int.toNat_of_nonneg hvalue]

theorem header_eq :
    threshold.header = "IF".toList ++ ([' '] ++ ("TaP*".toList ++ ([] ++
      (threshold.comparator.symbol.toList ++ ([] ++ (Text.numeral threshold.value.toNat ++
        ([] ++ [':']))))))) := by
  obtain ⟨comparator, value⟩ := threshold
  obtain ⟨n, rfl⟩ := Int.eq_ofNat_of_zero_le hvalue
  simp only [header, describe, String.toList_append, List.append_assoc]
  rfl

theorem spells_header : threshold.written.Spells threshold.header := by
  rw [header_eq hvalue]
  exact .intro (by decide) Text.run_space (by decide) Text.blanks_nil
    threshold.comparator.symbol_mem_symbols Text.blanks_nil
    ⟨Text.numeral_ne_nil _, fun _ ↦ Text.isDecimal_of_mem_numeral⟩ Text.blanks_nil

end

/-- Only the right end of a bound segment can have blanks to trim. -/
theorem trim_binding (threshold : Threshold) {segment : String}
    (hne : Text.trim segment.toList ≠ []) :
    Text.trim (threshold.binding segment).toList =
      threshold.header ++ ' ' :: Text.trimRight segment.toList := by
  have hright : Text.trimRight segment.toList ≠ [] := by
    intro hnil
    rw [← Text.trimLeft_trimRight, hnil] at hne
    exact hne rfl
  have hleft : Text.trimLeft (threshold.binding segment).toList =
      (threshold.binding segment).toList := by
    rw [toList_binding]
    exact Text.trimLeft_cons (by decide) _
  rw [Text.trim, hleft, toList_binding, List.append_cons, Text.trimRight_append_of_ne_nil hright,
    ← List.append_cons]

theorem trim_binding_ne_nil (threshold : Threshold) {segment : String}
    (hne : Text.trim segment.toList ≠ []) : Text.trim (threshold.binding segment).toList ≠ [] := by
  rw [threshold.trim_binding hne]
  exact List.append_ne_nil_of_right_ne_nil _ (List.cons_ne_nil _ _)

/-- A bound segment is read as its condition and the segment. -/
theorem read?_binding {threshold : Threshold} (hvalue : 0 ≤ threshold.value) {segment : String}
    (hne : Text.trim segment.toList ≠ []) (hline : '\n' ∉ segment.toList) :
    Condition.read? (Text.trim (threshold.binding segment).toList) =
      some (threshold.written, Text.trim segment.toList) := by
  obtain ⟨blanks, hblanks, hsegment⟩ := Text.exists_blanks_trimLeft (Text.trimRight segment.toList)
  rw [Text.trimLeft_trimRight] at hsegment
  have hstart : ∀ c ∈ (Text.trim segment.toList).head?, Text.isBlank c = false := by
    rw [← Text.trimLeft_trimRight]
    exact fun _ ↦ Text.head?_dropWhile
  have hread := Condition.read?_of_spells (spells_header hvalue)
    (Text.blanks_append Text.run_space.all hblanks) hne hstart
    fun hc ↦ hline (Text.trim_subset _ hc)
  rwa [threshold.trim_binding hne, ← hsegment, ← List.singleton_append, ← List.append_assoc [' ']]

theorem line_not_mem_binding {threshold : Threshold} (hvalue : 0 ≤ threshold.value)
    {segment : String} (hline : '\n' ∉ segment.toList) :
    '\n' ∉ (threshold.binding segment).toList := by
  have hsymbols : ∀ symbol ∈ symbols, '\n' ∉ symbol.toList := by decide
  have hnumeral : '\n' ∉ Text.numeral threshold.value.toNat :=
    fun hc ↦ absurd (Text.isDecimal_of_mem_numeral hc) (by decide)
  rw [toList_binding, header_eq hvalue]
  simp only [List.mem_append, List.mem_cons, not_or]
  exact ⟨⟨by decide, by decide, by decide, by decide,
    hsymbols _ threshold.comparator.symbol_mem_symbols, by decide, hnumeral, by decide, by decide,
    by decide⟩, by decide, hline⟩

end Threshold

/-! ### Bound segments -/

theorem readSegment_trim (rolling : Bool) (points : Option Int) {segment : List Char}
    (hne : Text.trim segment ≠ []) :
    readSegment rolling points (Text.trim segment) = readSegment rolling points segment := by
  obtain ⟨conditions, item, hdescribes⟩ := exists_describes segment hne
  have htrimmed := hdescribes.of_trim_eq (Text.trim_trim segment).symm
  rw [hdescribes.readSegment_eq, htrimmed.readSegment_eq]

section
variable (rolling : Bool) (points : Option Int)

theorem readSegment_binding {threshold : Threshold} (hvalue : 0 ≤ threshold.value)
    {segment : String} (hne : Text.trim segment.toList ≠ []) (hline : '\n' ∉ segment.toList) :
    readSegment rolling points (threshold.binding segment).toList =
      if threshold.isOpen points then
        Option.map (Item.withThreshold threshold) <$> readSegment rolling points segment.toList
      else pure none := by
  rw [readSegment_behind rolling points (Threshold.read?_binding hvalue hne hline)
    (Threshold.threshold_written hvalue), readSegment_trim rolling points hne]

/-- A segment that is bound to some conditions, the first of them outermost. -/
def bindingAll (thresholds : List Threshold) (segment : String) : String :=
  thresholds.foldr Threshold.binding segment

/-- The item of a segment that is bound to some conditions names the outermost of them. -/
def Item.withOutermost (thresholds : List Threshold) (item : Item) : Item :=
  thresholds.head?.elim item item.withThreshold

/-- A bound segment is a segment on one line again. -/
theorem bindingAll_facts {thresholds : List Threshold}
    (hvalues : ∀ threshold ∈ thresholds, 0 ≤ threshold.value) {segment : String}
    (hne : Text.trim segment.toList ≠ []) (hline : '\n' ∉ segment.toList) :
    Text.trim (bindingAll thresholds segment).toList ≠ [] ∧
      '\n' ∉ (bindingAll thresholds segment).toList := by
  induction thresholds with
  | nil => exact ⟨hne, hline⟩
  | cons threshold thresholds ih =>
    obtain ⟨hvalue, hvalues⟩ := List.forall_mem_cons.mp hvalues
    obtain ⟨hne', hline'⟩ := ih hvalues
    exact ⟨threshold.trim_binding_ne_nil hne', Threshold.line_not_mem_binding hvalue hline'⟩

/-- All conditions that a segment is bound to must be met. -/
theorem readSegment_bindingAll {thresholds : List Threshold}
    (hvalues : ∀ threshold ∈ thresholds, 0 ≤ threshold.value) {segment : String}
    (hne : Text.trim segment.toList ≠ []) (hline : '\n' ∉ segment.toList) :
    readSegment rolling points (bindingAll thresholds segment).toList =
      if thresholds.all (·.isOpen points) then
        Option.map (Item.withOutermost thresholds) <$> readSegment rolling points segment.toList
      else pure none := by
  induction thresholds with
  | nil =>
    have hsame : Option.map (Item.withOutermost []) = id := Option.map_id
    rw [hsame, id_map]
    rfl
  | cons threshold thresholds ih =>
    obtain ⟨hvalue, hvalues⟩ := List.forall_mem_cons.mp hvalues
    obtain ⟨hne', hline'⟩ := bindingAll_facts hvalues hne hline
    -- The outer condition replaces the one that the inner ones have left.
    have houter : Option.map (Item.withThreshold threshold) ∘
        Option.map (Item.withOutermost thresholds) =
          Option.map (Item.withOutermost (threshold :: thresholds)) := by
      funext item
      rw [Function.comp_apply, Option.map_map]
      cases thresholds <;> rfl
    have hbound := readSegment_binding rolling points hvalue hne' hline'
    rw [ih hvalues] at hbound
    rw [List.all_cons]
    refine hbound.trans ?_
    by_cases hopen : threshold.isOpen points = true
    · by_cases hinner : thresholds.all (·.isOpen points) = true
      · simp only [hopen, hinner, Bool.and_self, if_true, ← comp_map, houter]
      · simp [hopen, hinner]
    · simp [hopen]

/-- A segment that is bound to a condition is read without throwing a die, and without an item, where
the points do not meet the condition. Otherwise it is read like the segment itself, with the same
dice, and the item that it may give names the condition. Conditions nest: a segment that is bound to
several of them is read where all are met, and its item names the outermost one. -/
theorem bound_segments_are_read {threshold : Threshold} (hvalue : 0 ≤ threshold.value)
    {segment : String} (hne : Text.trim segment.toList ≠ []) (hline : '\n' ∉ segment.toList) :
    ((∃ p, points = some p ∧ threshold.isMet p = false) → ∀ table,
      (readSegment rolling points (threshold.binding segment).toList).onTable table =
        (.ok none, table)) ∧
    ((∀ p, points = some p → threshold.isMet p = true) → ∀ table,
      (readSegment rolling points (threshold.binding segment).toList).onTable table =
        (((readSegment rolling points segment.toList).onTable table).1.map
            (Option.map (Item.withThreshold threshold)),
          ((readSegment rolling points segment.toList).onTable table).2)) ∧
    ∀ thresholds : List Threshold, (∀ threshold ∈ thresholds, 0 ≤ threshold.value) →
      readSegment rolling points (bindingAll thresholds segment).toList =
        if thresholds.all (·.isOpen points) then
          Option.map (Item.withOutermost thresholds) <$> readSegment rolling points segment.toList
        else pure none := by
  rw [readSegment_binding rolling points hvalue hne hline]
  refine ⟨?_, ?_, fun _ hvalues ↦ readSegment_bindingAll rolling points hvalues hne hline⟩
  · rintro ⟨p, rfl, hunmet⟩ table
    have hclosed : ¬ threshold.isOpen (some p) = true := by
      rw [Threshold.isOpen, Option.all_some, hunmet]
      exact Bool.false_ne_true
    rw [if_neg hclosed, Throw.onTable_pure]
  · intro hmet table
    have hopen : threshold.isOpen points = true := by
      rw [Threshold.isOpen, Option.all_eq_true]
      exact hmet
    rw [if_pos hopen, Throw.onTable_map]

end

/-- Five points do not meet the outer of two conditions; for seven points it takes the place of the
inner one. Thirteen points meet both, but not a third one around them. -/
theorem bound_segments_are_read_behind_condition :
    (0 : Int) ≤ 7 ∧ Text.trim "IF TaP*>=3: W6 Beeren".toList ≠ [] ∧
      '\n' ∉ "IF TaP*>=3: W6 Beeren".toList ∧
      (∀ table, (readSegment true (some 5)
        "IF TaP*>=7: IF TaP*>=3: W6 Beeren".toList).onTable table = (.ok none, table)) ∧
      (∀ table, (readSegment true (some 7)
          "IF TaP*>=7: IF TaP*>=3: W6 Beeren".toList).onTable table =
        (((readSegment true (some 7) "IF TaP*>=3: W6 Beeren".toList).onTable table).1.map
            (Option.map (Item.withThreshold ⟨.atLeast, 7⟩)),
          ((readSegment true (some 7) "IF TaP*>=3: W6 Beeren".toList).onTable table).2)) ∧
      readSegment true (some 13)
        "IF TaP*<=12: IF TaP*>=7: IF TaP*>=3: W6 Beeren".toList = pure none := by
  have hvalue : (0 : Int) ≤ 7 := by decide
  have hne : Text.trim "IF TaP*>=3: W6 Beeren".toList ≠ [] := by decide
  have hline : '\n' ∉ "IF TaP*>=3: W6 Beeren".toList := by decide
  have htext : (Threshold.binding ⟨.atLeast, 7⟩ "IF TaP*>=3: W6 Beeren").toList =
      "IF TaP*>=7: IF TaP*>=3: W6 Beeren".toList := by decide
  have hnested : (bindingAll [⟨.atMost, 12⟩, ⟨.atLeast, 7⟩] "IF TaP*>=3: W6 Beeren").toList =
      "IF TaP*<=12: IF TaP*>=7: IF TaP*>=3: W6 Beeren".toList := by decide
  have hthreshold : 0 ≤ Threshold.value ⟨.atLeast, 7⟩ := hvalue
  have hunmet := (bound_segments_are_read true (some 5) hthreshold hne hline).1
  have hmet := (bound_segments_are_read true (some 7) hthreshold hne hline).2.1
  have hall := (bound_segments_are_read true (some 13) hthreshold hne hline).2.2
    [⟨.atMost, 12⟩, ⟨.atLeast, 7⟩] (by decide)
  rw [htext] at hunmet hmet
  rw [hnested] at hall
  refine ⟨hvalue, hne, hline, hunmet ⟨5, rfl, by decide⟩, hmet ?_, hall⟩
  rintro p ⟨⟩
  decide

end Aventuria.Harvest
