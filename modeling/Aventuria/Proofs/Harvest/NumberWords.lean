import Mathlib.Data.Bool.AllAny
import Aventuria.Proofs.Dice.Notation
import Aventuria.Proofs.Harvest.Reading

/-!
# Number words

A number word in front of a product is its quantity, however its letters are written, and the rest
of the text is the product. The forms of the word for one that only its other cases have stand for
one as well, but not in front of a product: there they are part of its name
(`number_word_counts_iff`).
-/

set_option autoImplicit false
set_option relaxedAutoImplicit false

namespace Aventuria.Harvest

open Dice (Throw)
open Text (Run Solid lowerAll words)

/-- A number word and a product behind a space are read as so many of the product, and as nothing
else. -/
def CountsAs (word product : String) (n : Nat) : Prop :=
  ∀ rolling points, read rolling points (word ++ " " ++ product) =
    pure [Item.plain (String.ofList (Text.trim product.toList)) (.fixed n)]

/-- The number words that may not stand in front of a product: the word for one in some of its
cases. -/
def inflectedOnes : List String := ["einer", "einem", "einen"]

/-! ### The letters of a number word -/

theorem mem_numberWords {word : List Char} {n : Nat} (h : numberWord? word = some n) :
    (String.ofList (lowerAll word), n) ∈ numberWords := by
  obtain ⟨before, after, hwords, -⟩ := List.lookup_eq_some_iff.mp h
  rw [hwords]
  exact List.mem_append_right _ List.mem_cons_self

/-- What is true of the small letters of all number words. -/
theorem of_numberWords {p : List Char → Prop} (hall : ∀ entry ∈ numberWords, p entry.1.toList)
    {word : List Char} {n : Nat} (h : numberWord? word = some n) : p (lowerAll word) := by
  have hword := hall _ (mem_numberWords h)
  rwa [String.toList_ofList] at hword

/-- The letters that number words are made of. -/
def letters : List Char := "abcdefhilmnrstuvwzöü".toList

theorem lower_mem_letters {word : List Char} {n : Nat} (h : numberWord? word = some n) :
    ∀ c ∈ word, Text.lower c ∈ letters := by
  have hletters := of_numberWords (p := (· ⊆ letters)) (by decide) h
  exact fun c hc ↦ hletters (List.mem_map_of_mem hc)

/-- A character that no number word has: a blank, a digit or a mark. -/
def isForeign (c : Char) : Bool :=
  Text.isBlank c || Text.isDigitLike c || marks.contains c

theorem patternLetter_of_isForeign {c : Char} (h : isForeign c = true) :
    Text.patternLetter c = c := by
  simp only [isForeign, Bool.or_eq_true, List.contains_iff_mem] at h
  rcases h with (hblank | hdigit) | hmark
  · exact Text.patternLetter_of_isBlank hblank
  · exact Text.patternLetter_of_isDigitLike hdigit
  · have hmarks : ∀ c ∈ marks, Text.patternLetter c = c :=
      List.all_iff_forall_prop.mp (by decide)
    exact hmarks c hmark

section
variable {word : List Char} {n : Nat} (h : numberWord? word = some n)
include h

theorem patternLetter_of_numberWord : ∀ c ∈ word, Text.patternLetter c = Text.lower c := by
  have hplain : ∀ l ∈ letters, l ∉ Text.patternOnlyLetters :=
    List.all_iff_forall_prop.mp (by decide)
  exact fun c hc ↦ Text.patternLetter_eq_lower (hplain _ (lower_mem_letters h c hc))

theorem ne_nil_of_numberWord : word ≠ [] := by
  rintro rfl
  have hne := of_numberWords (p := (· ≠ [])) (by decide) h
  exact hne rfl

theorem not_isForeign_of_numberWord : ∀ c ∈ word, isForeign c = false := by
  have hletters : ∀ l ∈ letters, isForeign l = false := List.all_iff_forall_prop.mp (by decide)
  intro c hc
  rw [← Bool.not_eq_true]
  intro hforeign
  have hself : Text.lower c = c :=
    (patternLetter_of_numberWord h c hc).symm.trans (patternLetter_of_isForeign hforeign)
  have hlower := hletters _ (lower_mem_letters h c hc)
  rw [hself, hforeign] at hlower
  cases hlower

theorem solid_of_numberWord : Solid word := by
  intro c hc
  have hforeign := not_isForeign_of_numberWord h c hc
  simp only [isForeign, Bool.or_eq_false_iff] at hforeign
  exact hforeign.1.1

theorem not_isDecimal_of_numberWord : ∀ c ∈ word, Text.isDecimal c = false := by
  intro c hc
  have hforeign := not_isForeign_of_numberWord h c hc
  simp only [isForeign, Text.isDigitLike, Bool.or_eq_false_iff] at hforeign
  exact hforeign.1.2.1

theorem not_mem_marks_of_numberWord : ∀ c ∈ word, c ∉ marks := by
  intro c hc
  have hforeign := not_isForeign_of_numberWord h c hc
  simp only [isForeign, Bool.or_eq_false_iff] at hforeign
  simpa using hforeign.2

/-- A number word starts with a letter that starts neither a condition nor the mark of dice. -/
theorem exists_head_of_numberWord :
    ∃ c rest, word = c :: rest ∧ Text.patternLetter c ≠ 'i' ∧ c ≠ 'W' ∧ c ≠ 'w' := by
  have hstart := of_numberWords (p := fun name ↦ name.head?.any fun l ↦ l ≠ 'i' ∧ l ≠ 'w')
    (by decide) h
  obtain ⟨l, hl, hiw⟩ := (Option.any_eq_true _ _).mp hstart
  obtain ⟨hi, hw⟩ := of_decide_eq_true hiw
  cases word with
  | nil => cases hl
  | cons c rest =>
    obtain rfl := Option.some.inj hl
    refine ⟨c, rest, rfl, ?_, ?_, ?_⟩
    · rwa [patternLetter_of_numberWord h c List.mem_cons_self]
    · rintro rfl
      exact hw (by decide)
    · rintro rfl
      exact hw (by decide)

/-- A number word is no word for a part of a description. -/
theorem not_separator_of_numberWord : word ≠ "und".toList ∧ word ≠ "mit".toList := by
  have hother := of_numberWords
    (p := fun name ↦ name ≠ lowerAll "und".toList ∧ name ≠ lowerAll "mit".toList)
    (by decide) h
  exact ⟨fun hword ↦ hother.1 (congrArg lowerAll hword),
    fun hword ↦ hother.2 (congrArg lowerAll hword)⟩

/-! ### A number word in front of a product -/

theorem isQuantity_iff_of_numberWord :
    isQuantity word = true ↔ String.ofList (lowerAll word) ∉ inflectedOnes := by
  have htable : ∀ entry ∈ numberWords,
      quantityWords.contains entry.1 = !inflectedOnes.contains entry.1 := by decide
  obtain ⟨c, rest, rfl, -⟩ := exists_head_of_numberWord h
  have hc := not_isDecimal_of_numberWord h c List.mem_cons_self
  have hsame : (c :: rest).map Text.patternLetter = lowerAll (c :: rest) :=
    List.map_congr_left (patternLetter_of_numberWord h)
  rw [isQuantity, hsame, htable _ (mem_numberWords h), List.all_cons, hc]
  simp

theorem not_spells_of_numberWord :
    ¬ ∃ count sides modifier, Dice.Spec.Spells (Text.trim word) count sides modifier := by
  rintro ⟨count, sides, modifier, hspells⟩
  rw [Text.trim_of_solid (solid_of_numberWord h)] at hspells
  obtain ⟨c, rest, rfl, -, hcapital, hsmall⟩ := exists_head_of_numberWord h
  rcases hspells.head?_decimal_or_mark c rfl with hdecimal | hmark | hmark
  · rw [not_isDecimal_of_numberWord h c List.mem_cons_self] at hdecimal
    cases hdecimal
  · exact hcapital hmark
  · exact hsmall hmark

theorem condition_read?_of_numberWord (text : List Char) :
    Condition.read? (word ++ text) = none := by
  obtain ⟨c, rest, rfl, hi, -⟩ := exists_head_of_numberWord h
  rw [List.cons_append, Condition.read?, Text.afterWord?, if_neg hi]
  rfl

end

theorem headAndProduct?_of_gap {head gap product : List Char} (hhead : Solid head)
    (hgap : Run Text.isBlank gap) (hproduct : product ≠ [])
    (hstart : ∀ c ∈ product.head?, Text.isBlank c = false) (hline : '\n' ∉ product) :
    headAndProduct? (head ++ (gap ++ product)) = some (head, product) := by
  obtain ⟨blank, blanks, rfl⟩ := List.exists_cons_of_ne_nil hgap.ne_nil
  have hsolid : ∀ c ∈ head, (!Text.isBlank c) = true := fun c hc ↦ by rw [hhead c hc]; rfl
  have hblank : ∀ c ∈ (blank :: blanks ++ product).head?, (!Text.isBlank c) = false := by
    rintro c ⟨⟩
    rw [hgap.all blank List.mem_cons_self]
    rfl
  obtain ⟨htake, hdrop⟩ := Text.run_append hsolid hblank
  have hafter : afterBlanks? (blank :: blanks ++ product) = some product :=
    afterBlanks?_eq_some_iff.mpr ⟨_, hgap, rfl, hstart⟩
  rw [headAndProduct?, htake, hdrop, hafter]
  simp [hproduct, hline]

/-- What a number word makes of a product behind it; `rest` is the product with the blanks before
it. -/
def counted (word : List Char) (n : Nat) (rest product : List Char) : Item :=
  if String.ofList (lowerAll word) ∈ inflectedOnes then
    Item.plain (String.ofList (word ++ rest)) (.fixed 1)
  else Item.plain (String.ofList product) (.fixed n)

theorem singleItem_of_inflected {word : List Char}
    (h : String.ofList (lowerAll word) ∈ inflectedOnes) (rest : List Char) :
    singleItem (word ++ rest) = Item.plain (String.ofList (word ++ rest)) (.fixed 1) := by
  have hstart : ∀ name ∈ inflectedOnes, name.toList.head? = some 'e' := by decide
  have hhead := hstart _ h
  rw [String.toList_ofList] at hhead
  obtain ⟨letters, hletters⟩ := List.head?_eq_some_iff.mp hhead
  have hsap : Text.startsWith "saft".toList (lowerAll (word ++ rest)) = false := by
    rw [Text.lowerAll_append, hletters]
    rfl
  rw [singleItem, hsap]
  rfl

theorem describedItem_of_numberWord {word : List Char} {n : Nat} (h : numberWord? word = some n)
    {gap product : List Char} (hgap : Run Text.isBlank gap) (hproduct : product ≠ [])
    (hstart : ∀ c ∈ product.head?, Text.isBlank c = false) (hline : '\n' ∉ product)
    (rolling : Bool) :
    describedItem rolling (word ++ (gap ++ product)) =
      pure (counted word n (gap ++ product) product) := by
  have hdice := Dice.Spec.ofChars?_of_not_spells (not_spells_of_numberWord h)
  rw [describedItem, headAndProduct?_of_gap (solid_of_numberWord h) hgap hproduct hstart hline]
  simp only [hdice]
  by_cases hinflected : String.ofList (lowerAll word) ∈ inflectedOnes
  · have hquantity : ¬ isQuantity word = true := fun hword ↦
      (isQuantity_iff_of_numberWord h).mp hword hinflected
    rw [if_neg hquantity, counted, if_pos hinflected, singleItem_of_inflected hinflected]
  · rw [if_pos ((isQuantity_iff_of_numberWord h).mpr hinflected), counted, if_neg hinflected,
      numberOfWord, h]
    rfl

/-! ### Whole descriptions -/

/-- A product does not become its own name by what stands before it. -/
theorem ne_trim_of_append_cons (word product : List Char) (c : Char) :
    word ++ c :: Text.trimRight product ≠ Text.trim product := by
  intro h
  have hlength := congrArg List.length h
  have htrim := Text.length_trimLeft_le (Text.trimRight product)
  rw [Text.trimLeft_trimRight, ← hlength, List.length_append, List.length_cons] at htrim
  omega

theorem toList_append_space_append (word product : String) :
    (word ++ " " ++ product).toList = word.toList ++ ' ' :: product.toList := by
  rw [String.toList_append, String.toList_append, List.append_assoc]
  rfl

section
variable {word product : String} {n : Nat} (hword : numberWord? word.toList = some n)
  (hne : Text.trim product.toList ≠ []) (hmarks : ∀ c ∈ marks, c ∉ product.toList)
include hword hmarks

theorem not_mem_of_mem_marks : ∀ c ∈ marks, c ∉ (word ++ " " ++ product).toList := by
  intro c hc hmem
  rw [toList_append_space_append] at hmem
  rcases List.mem_append.mp hmem with hmem | hmem
  · exact not_mem_marks_of_numberWord hword c hmem hc
  · rcases List.mem_cons.mp hmem with rfl | hmem
    · exact absurd hc (by decide)
    · exact hmarks c hc hmem

include hne

theorem describedItem_word_product (rolling : Bool) :
    describedItem rolling (word.toList ++ ' ' :: Text.trimRight product.toList) =
      pure (counted word.toList n (' ' :: Text.trimRight product.toList)
        (Text.trim product.toList)) := by
  obtain ⟨blanks, hblanks, hproduct⟩ :=
    Text.exists_blanks_trimLeft (Text.trimRight product.toList)
  rw [Text.trimLeft_trimRight] at hproduct
  have hgap : Run Text.isBlank (' ' :: blanks) :=
    ⟨List.cons_ne_nil _ _, List.forall_mem_cons.mpr ⟨by decide, hblanks⟩⟩
  have hstart : ∀ c ∈ (Text.trim product.toList).head?, Text.isBlank c = false := by
    intro c hc
    obtain ⟨rest, hrest⟩ := List.head?_eq_some_iff.mp hc
    exact Text.not_isBlank_of_trim hrest
  have hline : '\n' ∉ Text.trim product.toList :=
    fun hc ↦ hmarks '\n' (by decide) (Text.trim_subset _ hc)
  rw [← hproduct]
  exact describedItem_of_numberWord hword hgap hne hstart hline rolling

/-- A number word and a product are one segment, which has neither a condition nor narration. -/
theorem read_word_product (hund : "und".toList ∉ words product.toList)
    (hmit : "mit".toList ∉ words product.toList) (rolling : Bool) (points : Option Int) :
    read rolling points (word ++ " " ++ product) =
      pure [counted word.toList n (' ' :: Text.trimRight product.toList)
        (Text.trim product.toList)] := by
  have hletters := ne_nil_of_numberWord hword
  have hsolid := solid_of_numberWord hword
  have htrim := Text.trim_solid_append_cons hletters hsolid hne ' '
  have hspace : Text.isBlank ' ' = true := by decide
  have hwords := Text.words_word_append hletters hsolid hspace product.toList
  rw [← toList_append_space_append] at htrim hwords
  obtain ⟨hund', hmit'⟩ := not_separator_of_numberWord hword
  rw [read_of_plain, htrim, describedItem_word_product hword hne hmarks]
  · rfl
  · rw [htrim]
    exact List.append_ne_nil_of_left_ne_nil hletters _
  · exact not_mem_of_mem_marks hword hmarks
  · rw [hwords, List.mem_cons, not_or]
    exact ⟨hund'.symm, hund⟩
  · rw [hwords, List.mem_cons, not_or]
    exact ⟨hmit'.symm, hmit⟩
  · rw [htrim, condition_read?_of_numberWord hword]

end

/-- A number word in front of a product counts it unless it is the word for one in a case of its
own; then it is part of what the product is called. -/
theorem number_word_counts_iff {word product : String} {n : Nat}
    (hword : numberWord? word.toList = some n) (hne : Text.trim product.toList ≠ [])
    (hmarks : ∀ c ∈ marks, c ∉ product.toList) (hund : "und".toList ∉ words product.toList)
    (hmit : "mit".toList ∉ words product.toList) :
    (CountsAs word product n ↔ String.ofList (lowerAll word.toList) ∉ inflectedOnes) ∧
    (¬ CountsAs word product n → ∀ rolling points,
      read rolling points (word ++ " " ++ product) =
        pure [Item.plain (word ++ " " ++ String.ofList (Text.trimRight product.toList))
          (.fixed 1)]) := by
  have hread := read_word_product hword hne hmarks hund hmit
  by_cases hinflected : String.ofList (lowerAll word.toList) ∈ inflectedOnes
  · simp only [counted, if_pos hinflected] at hread
    have hnot : ¬ CountsAs word product n := by
      intro hcounts
      have hitems := Throw.pure_inj ((hread false none).symm.trans (hcounts false none))
      have hname := congrArg Item.product (List.cons.inj hitems).1
      exact ne_trim_of_append_cons _ _ ' ' (String.ofList_injective hname)
    refine ⟨⟨fun hcounts ↦ absurd hcounts hnot, fun h ↦ absurd hinflected h⟩,
      fun _ rolling points ↦ ?_⟩
    have hname := toList_append_space_append word (String.ofList (Text.trimRight product.toList))
    rw [String.toList_ofList] at hname
    rw [hread, ← hname, String.ofList_toList]
  · simp only [counted, if_neg hinflected] at hread
    exact ⟨⟨fun _ ↦ hinflected, fun _ ↦ hread⟩, fun hnot ↦ absurd hread hnot⟩

/-- The letters of a number word may be large or small. -/
theorem number_word_counts_in_capitals : CountsAs "FÜNF" "Beeren" 5 := by
  have hwords : words "Beeren".toList = ["Beeren".toList] :=
    Text.words_of_solid (by decide) (by decide)
  have hmarks : ∀ c ∈ marks, c ∉ "Beeren".toList := List.all_iff_forall_prop.mp (by decide)
  exact (number_word_counts_iff (by decide) (by decide) hmarks (by rw [hwords]; decide)
    (by rw [hwords]; decide)).1.mpr (by decide)

/-- The dative of the word for one does not count a plant. -/
theorem not_countsAs_einer : ¬ CountsAs "einer" "Pflanze" 1 := by
  have hwords : words "Pflanze".toList = ["Pflanze".toList] :=
    Text.words_of_solid (by decide) (by decide)
  have heiner : numberWord? "einer".toList = some 1 := by decide
  have hplant : Text.trim "Pflanze".toList ≠ [] := by decide
  have hmarks : ∀ c ∈ marks, c ∉ "Pflanze".toList := List.all_iff_forall_prop.mp (by decide)
  have hread := read_word_product heiner hplant hmarks (by rw [hwords]; decide)
    (by rw [hwords]; decide) false none
  intro h
  exact absurd (Throw.pure_inj (hread.symm.trans (h false none))) (by decide)

end Aventuria.Harvest
