import Aventuria.Proofs.Harvest.Naming
import Aventuria.Proofs.Text.Cut
import Aventuria.Proofs.Text.Parentheses

/-!
# Asides

What a description says in parentheses is no part of its items. A balanced text, with parentheses
inside parentheses or without, leaves one text behind when its outermost parts in parentheses are
taken away (`Text.Sheds`). The reading takes an aside to end at the first closing parenthesis, so it
leaves out just these parts where none of them has parentheses inside (`erase_eq_of_sheds`). Where
one has, a closing parenthesis stays in some segment (`closing_of_not_flat`,
`exists_segment_of_closing`) and comes into the name of its item if nothing hides it. The main result
is `asides_are_left_out_iff_flat`.
-/

set_option autoImplicit false
set_option relaxedAutoImplicit false

namespace Aventuria.Harvest

open Text (Balanced Blanks Flat Plain Sheds closes closes_append)

/-! ### What the reading of a description leaves out -/

theorem afterAside?_of_blanks {front inner : List Char} (hfront : Blanks front)
    (hinner : ')' ∉ inner) (rest : List Char) :
    afterAside? (front ++ '(' :: (inner ++ ')' :: rest)) = some rest := by
  rw [afterAside?, Text.trimLeft_append hfront, Text.trimLeft_cons (by decide)]
  simp only [(Text.run_append_stop hinner rest).2]

theorem afterAside?_of_not_blanks {front : List Char} (hfront : ¬ Blanks front)
    (hopen : '(' ∉ front) (more : List Char) : afterAside? (front ++ more) = none := by
  obtain ⟨blanks, hblanks, htext⟩ := Text.exists_blanks_trimLeft front
  have hne : Text.trimLeft front ≠ [] := by
    intro hnil
    rw [hnil, List.append_nil] at htext
    exact hfront (htext ▸ hblanks)
  rw [afterAside?, Text.trimLeft_append_of_ne_nil hne]
  obtain ⟨c, kept, hkept⟩ := List.exists_cons_of_ne_nil hne
  have hc : c ≠ '(' := by
    rintro rfl
    exact hopen (htext ▸ List.mem_append_right _ (hkept ▸ List.mem_cons_self))
  rw [hkept, List.cons_append]
  simp [hc]

theorem erase_aside_of_afterAside? {text rest : List Char} (h : afterAside? text = some rest) :
    Text.erase aside text = Text.erase aside rest := by
  have hsome : aside text = some ⟨rest, length_of_afterAside? text rest h⟩ :=
    Text.Separator.ofReader_eq_some_iff.mpr h
  exact Text.erase_of_some hsome

/-- An aside goes from the first opening parenthesis to the first closing one behind it, and the
blanks in front of it go with it. -/
theorem erase_aside_append {front inner : List Char} (hfront : '(' ∉ front) (hinner : ')' ∉ inner)
    (rest : List Char) :
    Text.erase aside (front ++ '(' :: (inner ++ ')' :: rest)) =
      Text.trimRight front ++ Text.erase aside rest := by
  induction front with
  | nil =>
    exact erase_aside_of_afterAside? (afterAside?_of_blanks Text.blanks_nil hinner rest)
  | cons c front ih =>
    by_cases hblanks : Blanks (c :: front)
    · rw [Text.trimRight_eq_nil_iff.mpr hblanks]
      exact erase_aside_of_afterAside? (afterAside?_of_blanks hblanks hinner rest)
    · have hnone := afterAside?_of_not_blanks hblanks hfront ('(' :: (inner ++ ')' :: rest))
      have hkept : Text.trimRight (c :: front) = c :: Text.trimRight front := by
        cases hc : Text.isBlank c with
        | false => exact Text.trimRight_cons_of_not_blank hc front
        | true =>
          refine Text.trimRight_cons_of_ne_nil (fun hnil ↦ hblanks ?_) c
          exact Text.blanks_cons.mpr ⟨hc, Text.trimRight_eq_nil_iff.mp hnil⟩
      rw [List.cons_append] at hnone ⊢
      have herase : Text.erase aside (c :: _) = c :: Text.erase aside _ :=
        Text.erase_cons_of_none (Text.Separator.ofReader_eq_none hnone)
      rw [herase, ih fun hc ↦ hfront (List.mem_cons_of_mem c hc), hkept, List.cons_append]

/-- Asides without parentheses inside are left out, and nothing else is. -/
theorem erase_eq_of_sheds {text kept : List Char} (h : Sheds Plain text kept) :
    Text.erase aside text = kept := by
  induction h with
  | plain hplain => exact erase_aside_eq_self hplain.1
  | enclosed hfront hinner _ ih => rw [erase_aside_append hfront.1 hinner.2, ih]

theorem count_trimRight (text : List Char) : (Text.trimRight text).count ')' = text.count ')' := by
  obtain ⟨blanks, hblanks, htext⟩ := Text.exists_blanks_trimRight text
  have hnone : blanks.count ')' = 0 :=
    List.count_eq_zero.mpr (hblanks.not_mem (by decide))
  conv_rhs => rw [← htext, List.count_append, hnone, Nat.add_zero]

/-- The opening parentheses of a text that closes them all go, and the closing parentheses of those
that were open before stay. Where no other one stays, no aside has parentheses inside. -/
theorem erase_aside_of_closes {depth : Nat} (text : List Char) (h : closes depth text = true) :
    '(' ∉ Text.erase aside text ∧ depth ≤ (Text.erase aside text).count ')' ∧
      ((Text.erase aside text).count ')' = 0 → Flat text) := by
  by_cases hopen : '(' ∈ text
  · obtain ⟨front, more, rfl, hfront⟩ := List.eq_append_cons_of_mem hopen
    obtain ⟨left, hleft, hmore⟩ := closes_append h
    rw [Text.closes_opening] at hmore
    have hclose : ')' ∈ more := by
      rw [← List.count_pos_iff, Text.count_of_closes hmore]
      omega
    obtain ⟨inner, rest, rfl, hinner⟩ := List.eq_append_cons_of_mem hclose
    obtain ⟨within, hwithin, hrest⟩ := closes_append hmore
    rw [List.count_eq_zero.mpr hfront] at hleft
    rw [List.count_eq_zero.mpr hinner] at hwithin
    obtain ⟨after, rfl⟩ : ∃ after, within = after + 1 := ⟨within - 1, by omega⟩
    rw [Text.closes_closing] at hrest
    have : rest.length < (front ++ '(' :: (inner ++ ')' :: rest)).length := by
      simp only [List.length_append, List.length_cons]
      omega
    obtain ⟨hopen', hcount, hflat⟩ := erase_aside_of_closes rest hrest
    rw [erase_aside_append hfront hinner, List.mem_append, not_or, List.count_append,
      count_trimRight]
    refine ⟨⟨fun hc ↦ hfront (Text.trimRight_subset _ hc), hopen'⟩, by omega, fun hnone ↦ ?_⟩
    have hfront' : ')' ∉ front := List.count_eq_zero.mp (by omega)
    have hinner' : '(' ∉ inner := List.count_eq_zero.mp (by omega)
    obtain ⟨kept, hkept⟩ := hflat (by omega)
    exact ⟨_, .enclosed ⟨hfront, hfront'⟩ ⟨hinner', hinner⟩ hkept⟩
  · have hcount := Text.count_of_closes h
    rw [List.count_eq_zero.mpr hopen] at hcount
    rw [erase_aside_eq_self hopen]
    exact ⟨hopen, by omega, fun hnone ↦ ⟨text, .plain ⟨hopen, List.count_eq_zero.mp hnone⟩⟩⟩
termination_by text.length

theorem closing_of_not_flat {text : List Char} (h : Balanced text) (hflat : ¬ Flat text) :
    ')' ∈ Text.erase aside text := by
  by_contra hclose
  exact hflat ((erase_aside_of_closes text h).2.2 (List.count_eq_zero.mpr hclose))

/-! ### The segments that are left -/

/-- What a separator takes away between segments is a semicolon, or a word and the blanks around
it. -/
theorem gap_of_semicolon {text : List Char} {rest : Text.Rest text}
    (h : semicolon text = some rest) : [';'] ++ rest.val = text := by
  have hread := Text.Separator.ofReader_eq_some_iff.mp h
  rw [afterSemicolon?.eq_def] at hread
  split at hread
  · rw [← Option.some.inj hread]
    rfl
  · cases hread

theorem gap_of_connective {text : List Char} {rest : Text.Rest text}
    (h : connective text = some rest) :
    ∃ front back, Blanks front ∧ Blanks back ∧
      front ++ ("und".toList ++ back) ++ rest.val = text := by
  obtain ⟨front, back, hfront, hback, htext, -⟩ :=
    exists_gaps_of_afterBlankWord? (Text.Separator.ofReader_eq_some_iff.mp h)
  exact ⟨front, back, hfront.all, hback.all, by simpa only [List.append_assoc] using htext⟩

theorem infix_of_mem_segments {text segment : List Char} (h : segment ∈ segments text) :
    segment <:+: Text.erase aside text := by
  obtain ⟨part, hpart, rfl⟩ := List.mem_map.mp (List.mem_filter.mp h).1
  refine (Text.isInfix_trim part).trans (List.IsInfix.trans ?_ (Text.isInfix_trim _))
  split at hpart
  · exact Text.infix_of_mem_cut (fun text rest hrest ↦ ⟨_, gap_of_semicolon hrest⟩) hpart
  · refine Text.infix_of_mem_cut (fun text rest hrest ↦ ?_) hpart
    obtain ⟨front, back, -, -, htext⟩ := gap_of_connective hrest
    exact ⟨_, htext⟩

/-- A closing parenthesis that no aside takes with it stands in some segment. -/
theorem exists_segment_of_closing {text : List Char} (h : ')' ∈ Text.erase aside text) :
    ∃ segment ∈ segments text, ')' ∈ segment := by
  have hblank : Text.isBlank ')' = false := by decide
  rw [← Text.mem_trim_iff hblank] at h
  obtain ⟨part, hpart, hc⟩ : ∃ part ∈ Text.cut
      (if (Text.trim (Text.erase aside text)).contains ';' then semicolon else connective)
      (Text.trim (Text.erase aside text)), ')' ∈ part := by
    split
    · refine List.mem_flatten.mp (Text.mem_erase (fun text rest hrest ↦ ?_) h)
      exact ⟨_, gap_of_semicolon hrest, by decide⟩
    · refine List.mem_flatten.mp (Text.mem_erase (fun text rest hrest ↦ ?_) h)
      obtain ⟨front, back, hfront, hback, htext⟩ := gap_of_connective hrest
      refine ⟨_, htext, ?_⟩
      simp only [List.mem_append, not_or]
      exact ⟨hfront.not_mem hblank, by decide, hback.not_mem hblank⟩
  have hc' : ')' ∈ Text.trim part := (Text.mem_trim_iff hblank).mpr hc
  refine ⟨Text.trim part, List.mem_filter.mpr ⟨List.mem_map_of_mem hpart, ?_⟩, hc'⟩
  cases htrim : Text.trim part with
  | nil =>
    rw [htrim] at hc'
    cases hc'
  | cons => rfl

/-! ### Whole descriptions -/

/-- Two descriptions that are read alike, whatever the points and whether or not dice are thrown. -/
def ReadAlike (text other : String) : Prop :=
  ∀ rolling points, read rolling points text = read rolling points other

theorem readAlike_of_erase_eq {text other : String}
    (h : Text.erase aside text.toList = Text.erase aside other.toList) : ReadAlike text other := by
  intro rolling points
  have hsegments : segments text.toList = segments other.toList := by simp only [segments, h]
  rw [read_eq_readSegments, read_eq_readSegments, hsegments]

theorem readAlike_of_sheds {text kept : String} (h : Sheds Plain text.toList kept.toList) :
    ReadAlike text kept :=
  readAlike_of_erase_eq (by rw [erase_eq_of_sheds h, erase_aside_eq_self h.plain_kept.1])

/-- No name has a character that the segments do not have, but those of sap. -/
theorem not_mem_product_of_read {rolling : Bool} {points : Option Int} {text : String}
    {table left : Dice.Table} {items : List Item}
    (h : (read rolling points text).onTable table = (.ok items, left)) {c : Char}
    (hc : c ∉ Text.erase aside text.toList) (hsap : c ∉ "Saft".toList) :
    ∀ item ∈ items, c ∉ item.product.toList := by
  intro item hitem
  obtain ⟨segment, hsegment, conditions, described, hdescribes, hproduct⟩ :=
    exists_describes_of_read h hitem
  rw [← hproduct]
  rcases hdescribes.infix_or_sap with hpart | hname
  · exact fun hmem ↦ hc ((infix_of_mem_segments hsegment).subset (hpart.subset hmem))
  · rwa [hname]

/-- A closing parenthesis that is left over comes into a name if nothing hides it. -/
theorem exists_name_of_closing {text : String} (hclose : ')' ∈ Text.erase aside text.toList)
    (hexposed : Exposed (Text.erase aside text.toList)) :
    ∃ items, read false none text = pure items ∧ ∃ item ∈ items, ')' ∈ item.product.toList := by
  obtain ⟨entries, hlists, hread⟩ := exists_lists_read text
  obtain ⟨segment, hsegment, hc⟩ := exists_segment_of_closing hclose
  obtain ⟨entry, hentry, hdescribes⟩ := hlists.exists_entry hsegment
  refine ⟨kept none entries, by rw [hread, settleAll_false], entry.item, ?_, ?_⟩
  · rw [kept_none]
    exact List.mem_map_of_mem hentry
  · exact hdescribes.closing_mem (hexposed.of_infix (infix_of_mem_segments hsegment)) hc

/-- A description is not read alike with one that has no parentheses. -/
theorem not_readAlike_of_closing {text kept : String} (hkept : Plain kept.toList)
    (hclose : ')' ∈ Text.erase aside text.toList)
    (hexposed : Exposed (Text.erase aside text.toList)) : ¬ ReadAlike text kept := by
  intro halike
  obtain ⟨items, hread, item, hitem, hc⟩ := exists_name_of_closing hclose hexposed
  rw [halike] at hread
  have hrun : (read false none kept).onTable (Dice.Table.fresh Dice.Source.highest) =
      (.ok items, Dice.Table.fresh Dice.Source.highest) := by
    rw [hread, Dice.Throw.onTable_pure]
  refine not_mem_product_of_read hrun ?_ (by decide) item hitem hc
  rw [erase_aside_eq_self hkept.1]
  exact hkept.2

/-- There is just one text that is left of a balanced description without its asides, and the
description is read as that text where no aside has parentheses inside. Where one has, a closing
parenthesis is left over, so the segments differ; it is part of what some item is called unless a
comma, the word "mit" or the word for sap hides it. No name ever has an opening parenthesis. -/
theorem asides_are_left_out_iff_flat {text : String} (h : Balanced text.toList) :
    ∃ kept : String, (∀ other : String, Sheds Balanced text.toList other.toList ↔ other = kept) ∧
      (Flat text.toList → ReadAlike text kept) ∧
      (segments text.toList = segments kept.toList ↔ Flat text.toList) ∧
      (Exposed (Text.erase aside text.toList) → (ReadAlike text kept ↔ Flat text.toList)) ∧
      ∀ rolling points table items left,
        (read rolling points text).onTable table = (.ok items, left) → ∀ item ∈ items,
          '(' ∉ item.product.toList ∧ (Flat text.toList → ')' ∉ item.product.toList) := by
  obtain ⟨kept, hkept⟩ := Text.exists_sheds text.toList h
  rw [← String.toList_ofList (l := kept)] at hkept
  generalize String.ofList kept = kept at hkept
  have hplain : Text.erase aside kept.toList = kept.toList :=
    erase_aside_eq_self hkept.plain_kept.1
  have hflat : Flat text.toList → Sheds Plain text.toList kept.toList := by
    rintro ⟨other, hother⟩
    rwa [hkept.unique (hother.mono fun _ hinner ↦ hinner.balanced)]
  refine ⟨kept, fun other ↦ ⟨fun hother ↦ ?_, ?_⟩, fun hf ↦ readAlike_of_sheds (hflat hf), ?_,
    fun hexposed ↦ ⟨fun halike ↦ ?_, fun hf ↦ readAlike_of_sheds (hflat hf)⟩,
    fun rolling points table items left hrun item hitem ↦ ⟨?_, fun hf ↦ ?_⟩⟩
  · exact String.toList_injective (hother.unique hkept)
  · rintro rfl
    exact hkept
  · constructor
    · intro hsegments
      by_contra hnot
      obtain ⟨segment, hsegment, hc⟩ := exists_segment_of_closing (closing_of_not_flat h hnot)
      rw [hsegments] at hsegment
      have hc' := (infix_of_mem_segments hsegment).subset hc
      rw [hplain] at hc'
      exact hkept.plain_kept.2 hc'
    · intro hf
      simp only [segments, erase_eq_of_sheds (hflat hf), hplain]
  · by_contra hnot
    exact not_readAlike_of_closing hkept.plain_kept (closing_of_not_flat h hnot) hexposed halike
  · exact not_mem_product_of_read hrun (erase_aside_of_closes _ h).1 (by decide) item hitem
  · refine not_mem_product_of_read hrun ?_ (by decide) item hitem
    rw [erase_eq_of_sheds (hflat hf)]
    exact hkept.plain_kept.2

/-- The word and the semicolon of an aside go with it. -/
theorem asides_are_left_out_with_separators :
    Balanced "2W6 Knospen (klein und grün; selten) und W3 Blätter".toList ∧
      ReadAlike "2W6 Knospen (klein und grün; selten) und W3 Blätter"
        "2W6 Knospen und W3 Blätter" := by
  have hsheds : Sheds Plain "2W6 Knospen (klein und grün; selten) und W3 Blätter".toList
      "2W6 Knospen und W3 Blätter".toList := by
    have htext : "2W6 Knospen (klein und grün; selten) und W3 Blätter".toList =
        "2W6 Knospen ".toList ++ '(' :: ("klein und grün; selten".toList ++ ')' ::
          " und W3 Blätter".toList) := by decide
    have hkept : "2W6 Knospen und W3 Blätter".toList =
        Text.trimRight "2W6 Knospen ".toList ++ " und W3 Blätter".toList := by decide
    rw [htext, hkept]
    exact .enclosed (by decide) (by decide) (.plain (by decide))
  have hbalanced : Balanced "2W6 Knospen (klein und grün; selten) und W3 Blätter".toList := by
    decide
  obtain ⟨kept, honly, halike, -⟩ := asides_are_left_out_iff_flat hbalanced
  rw [← (honly _).mp (hsheds.mono fun _ hinner ↦ hinner.balanced)] at halike
  exact ⟨hbalanced, halike ⟨_, hsheds⟩⟩

/-- The first closing parenthesis ends an aside even if it belongs to one inside; the rest of the
outer aside is taken for a part of the name. -/
theorem not_readAlike_nested :
    Sheds Balanced "2W6 Knospen (nur (wenige) ernten)".toList "2W6 Knospen".toList ∧
      ¬ ReadAlike "2W6 Knospen (nur (wenige) ernten)" "2W6 Knospen" := by
  have hsheds : Sheds Balanced "2W6 Knospen (nur (wenige) ernten)".toList
      "2W6 Knospen".toList := by
    have htext : "2W6 Knospen (nur (wenige) ernten)".toList =
        "2W6 Knospen ".toList ++ '(' :: ("nur (wenige) ernten".toList ++ ')' :: []) := by decide
    have hkept : "2W6 Knospen".toList = Text.trimRight "2W6 Knospen ".toList ++ [] := by decide
    rw [htext, hkept]
    exact .enclosed (by decide) (by decide) (.plain (by decide))
  have hleft : Text.erase aside "2W6 Knospen (nur (wenige) ernten)".toList =
      "2W6 Knospen ernten)".toList := by
    have htext : "2W6 Knospen (nur (wenige) ernten)".toList =
        "2W6 Knospen ".toList ++ '(' :: ("nur (wenige".toList ++ ')' :: " ernten)".toList) := by
      decide
    rw [htext, erase_aside_append (by decide) (by decide), erase_aside_eq_self (by decide)]
    decide
  have hexposed : Exposed "2W6 Knospen ernten)".toList := ⟨by decide, by decide, by decide⟩
  rw [← hleft] at hexposed
  exact ⟨hsheds, not_readAlike_of_closing (by decide) (by rw [hleft]; decide) hexposed⟩

end Aventuria.Harvest
