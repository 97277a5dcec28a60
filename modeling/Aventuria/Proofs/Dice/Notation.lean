import Aventuria.Dice.Spec
import Aventuria.Proofs.Text.Numeral
import Aventuria.Proofs.Text.Words

/-!
# Dice notation

A dice expression is written as a count that may be missing, the mark, the size of the dice and a
modifier that may be missing (`Spec.Spells`). A text is read as an expression when it is spelled so
and the numbers are within their bounds, and otherwise it is refused for what is wrong first
(`Spec.Refuses`). What an expression is written as, in full or as it was typed, is read as the same
expression (`notation_is_read`).
-/

set_option autoImplicit false
set_option relaxedAutoImplicit false

namespace Aventuria.Dice.Spec

open Text (Solid numeral)

/-! ### The notation -/

/-- How many dice digits in front of the mark stand for; one where there are none. -/
inductive SpellsCount : List Char → Nat → Prop
  | missing : SpellsCount [] 1
  | written {digits : List Char} {n : Nat} (h : Text.decimal? digits = some n) :
      SpellsCount digits n

/-- The modifier that a sign and digits behind the dice stand for; zero where there are none. -/
inductive SpellsModifier : List Char → Int → Prop
  | missing : SpellsModifier [] 0
  | plus {digits : List Char} {n : Nat} (h : Text.decimal? digits = some n) :
      SpellsModifier ('+' :: digits) n
  | minus {digits : List Char} {n : Nat} (h : Text.decimal? digits = some n) :
      SpellsModifier ('-' :: digits) (-n)

/-- The numbers that a text without blanks around it spells: count, sides and modifier. -/
inductive Spells : List Char → Nat → Nat → Int → Prop
  | intro {before digits after : List Char} {mark : Char} {count sides : Nat} {modifier : Int}
      (hcount : SpellsCount before count) (hmark : mark = 'W' ∨ mark = 'w')
      (hsides : Text.decimal? digits = some sides) (hmodifier : SpellsModifier after modifier) :
      Spells (before ++ mark :: (digits ++ after)) count sides modifier

theorem Spells.ne_nil {text : List Char} {count sides : Nat} {modifier : Int}
    (h : Spells text count sides modifier) : text ≠ [] := by
  cases h with
  | intro => exact List.append_ne_nil_of_right_ne_nil _ (List.cons_ne_nil _ _)

/-- An expression starts with a digit or with the mark. -/
theorem Spells.head?_decimal_or_mark {text : List Char} {count sides : Nat} {modifier : Int}
    (h : Spells text count sides modifier) :
    ∀ c ∈ text.head?, Text.isDecimal c = true ∨ c = 'W' ∨ c = 'w' := by
  obtain ⟨hcount, hmark, -, -⟩ := h
  cases hcount with
  | missing =>
    rintro c ⟨⟩
    exact .inr hmark
  | written hdigits =>
    obtain ⟨hne, hall⟩ := Text.run_of_decimal? hdigits
    obtain ⟨d, digits, rfl⟩ := List.exists_cons_of_ne_nil hne
    rintro c ⟨⟩
    exact .inl (hall d List.mem_cons_self)

/-- Why a text is refused. The number of dice is judged before their size. -/
inductive Refuses (text : String) : Fault → Prop
  | notDice
      (h : ¬ ∃ count sides modifier, Spells (Text.trim text.toList) count sides modifier) :
      Refuses text (.notDice (some text))
  | tooFewDice {sides : Nat} {modifier : Int}
      (h : Spells (Text.trim text.toList) 0 sides modifier) : Refuses text (.tooFewDice 0)
  | tooManyDice {count sides : Nat} {modifier : Int}
      (h : Spells (Text.trim text.toList) count sides modifier) (hmany : mostDice < count) :
      Refuses text (.tooManyDice count)
  | dieTooSmall {count sides : Nat} {modifier : Int}
      (h : Spells (Text.trim text.toList) count sides modifier) (hpos : 0 < count)
      (hmost : count ≤ mostDice) (hsmall : sides < 2) : Refuses text (.dieTooSmall sides)

/-! ### Reading the numbers -/

theorem readModifier?_eq_some_iff {text : List Char} {modifier : Int} :
    readModifier? text = some modifier ↔ SpellsModifier text modifier := by
  constructor
  · intro h
    rw [readModifier?.eq_def] at h
    split at h
    · cases h
      exact .missing
    · next digits =>
      cases hdigits : Text.decimal? digits with
      | none =>
        rw [hdigits] at h
        cases h
      | some n =>
        rw [hdigits] at h
        cases h
        exact .plus hdigits
    · next digits =>
      cases hdigits : Text.decimal? digits with
      | none =>
        rw [hdigits] at h
        cases h
      | some n =>
        rw [hdigits] at h
        cases h
        exact .minus hdigits
    · cases h
  · intro h
    cases h with
    | missing => rfl
    | plus h =>
      rw [readModifier?, h]
      rfl
    | minus h =>
      rw [readModifier?, h]
      rfl

theorem SpellsModifier.head?_not_isDecimal {text : List Char} {modifier : Int}
    (h : SpellsModifier text modifier) : ∀ c ∈ text.head?, Text.isDecimal c = false := by
  cases h with
  | missing => exact nofun
  | plus =>
    rintro c ⟨⟩
    decide
  | minus =>
    rintro c ⟨⟩
    decide

theorem SpellsCount.isDecimal {digits : List Char} {count : Nat} (h : SpellsCount digits count) :
    ∀ c ∈ digits, Text.isDecimal c = true := by
  cases h with
  | missing => exact nofun
  | written h => exact (Text.run_of_decimal? h).all

theorem spellsCount_iff {digits : List Char} (h : ∀ c ∈ digits, Text.isDecimal c = true)
    {count : Nat} :
    SpellsCount digits count ↔ (if digits.isEmpty then 1 else Text.value digits) = count := by
  constructor
  · intro hcount
    cases hcount with
    | missing => rfl
    | written hn =>
      obtain ⟨⟨hne, -⟩, rfl⟩ := Text.decimal?_eq_some_iff.mp hn
      rw [List.isEmpty_eq_false_iff.mpr hne]
      rfl
  · rintro rfl
    cases digits with
    | nil => exact .missing
    | cons c digits => exact .written (Text.decimal?_of_run ⟨List.cons_ne_nil _ _, h⟩)

theorem readNumbers?_eq_some_iff {text : List Char} {count sides : Nat} {modifier : Int} :
    readNumbers? text = some (count, sides, modifier) ↔ Spells text count sides modifier := by
  constructor
  · intro h
    rw [readNumbers?] at h
    have htext := List.takeWhile_append_dropWhile (p := Text.isDecimal) (l := text)
    have hrun : ∀ c ∈ text.takeWhile Text.isDecimal, Text.isDecimal c = true :=
      fun _ ↦ List.mem_takeWhile_imp
    split at h
    · next mark rest hrest =>
      split at h
      · next hmark =>
        simp only [Option.bind_eq_bind, Option.bind_eq_some_iff, Option.some.injEq,
          Prod.mk.injEq] at h
        obtain ⟨sides, hsides, modifier, hmodifier, hcount, rfl, rfl⟩ := h
        rw [← htext, hrest, ← List.takeWhile_append_dropWhile (p := Text.isDecimal) (l := rest)]
        exact .intro ((spellsCount_iff hrun).mpr hcount) hmark hsides
          (readModifier?_eq_some_iff.mp hmodifier)
      · cases h
    · cases h
  · rintro ⟨hcount, hmark, hsides, hmodifier⟩
    next before digits after mark =>
    have hstop : ∀ c ∈ (mark :: (digits ++ after)).head?, Text.isDecimal c = false := by
      rintro c ⟨⟩
      rcases hmark with rfl | rfl <;> decide
    obtain ⟨hbefore, hrest⟩ := Text.run_append hcount.isDecimal hstop
    obtain ⟨hdigits, hafter⟩ :=
      Text.run_append (Text.run_of_decimal? hsides).all hmodifier.head?_not_isDecimal
    rw [readNumbers?, hbefore, hrest]
    simp only [if_pos hmark, hdigits, hafter, hsides, readModifier?_eq_some_iff.mpr hmodifier,
      (spellsCount_iff hcount.isDecimal).mp hcount, Option.bind_eq_bind, Option.bind_some]

/-! ### Characters and small letters -/

/-- The characters that numbers and dice are written with. -/
def isNotation (c : Char) : Bool :=
  Text.isDecimal c || ['W', 'w', '+', '-'].contains c

theorem isNotation_iff {c : Char} :
    isNotation c = true ↔ Text.isDecimal c = true ∨ c ∈ ['W', 'w', '+', '-'] := by
  rw [isNotation, Bool.or_eq_true, List.contains_iff_mem]

theorem isNotation_of_decimal? {digits : List Char} {n : Nat} (h : Text.decimal? digits = some n) :
    ∀ c ∈ digits, isNotation c = true :=
  fun c hc ↦ isNotation_iff.mpr (.inl ((Text.run_of_decimal? h).all c hc))

theorem not_isBlank_of_isNotation {c : Char} (h : isNotation c = true) :
    Text.isBlank c = false := by
  rcases isNotation_iff.mp h with hdecimal | hsign
  · exact Text.not_isBlank_of_isDecimal hdecimal
  · have hsigns : ['W', 'w', '+', '-'].any Text.isBlank = false := by decide
    exact Bool.eq_false_iff.mpr (List.any_eq_false.mp hsigns c hsign)

theorem isNotation_lower {c : Char} (h : isNotation c = true) :
    isNotation (Text.lower c) = true := by
  rcases isNotation_iff.mp h with hdecimal | hsign
  · rwa [Text.lower_of_isDecimal hdecimal]
  · have hsigns : (['W', 'w', '+', '-'].all fun c ↦ isNotation (Text.lower c)) = true := by decide
    exact List.all_eq_true.mp hsigns c hsign

theorem SpellsModifier.isNotation {text : List Char} {modifier : Int}
    (h : SpellsModifier text modifier) : ∀ c ∈ text, isNotation c = true := by
  cases h with
  | missing => exact nofun
  | plus h | minus h => exact List.forall_mem_cons.mpr ⟨by decide, isNotation_of_decimal? h⟩

/-- A sign and digits have no small letters. -/
theorem SpellsModifier.lowerAll_eq {text : List Char} {modifier : Int}
    (h : SpellsModifier text modifier) : Text.lowerAll text = text := by
  cases h with
  | missing => rfl
  | plus h | minus h =>
    rw [Text.lowerAll_cons, Text.lowerAll_of_isDecimal (Text.run_of_decimal? h).all]
    rfl

section
variable {text : List Char} {count sides : Nat} {modifier : Int}

theorem Spells.isNotation (h : Spells text count sides modifier) :
    ∀ c ∈ text, isNotation c = true := by
  obtain ⟨hcount, hmark, hsides, hmodifier⟩ := h
  refine List.forall_mem_append.mpr ⟨fun c hc ↦ ?_, List.forall_mem_cons.mpr ⟨?_,
    List.forall_mem_append.mpr ⟨isNotation_of_decimal? hsides, hmodifier.isNotation⟩⟩⟩
  · exact isNotation_iff.mpr (.inl (hcount.isDecimal c hc))
  · rcases hmark with rfl | rfl <;> decide

theorem Spells.solid (h : Spells text count sides modifier) : Solid text :=
  fun c hc ↦ not_isBlank_of_isNotation (h.isNotation c hc)

/-- A small mark spells the same numbers. -/
theorem Spells.lowerAll (h : Spells text count sides modifier) :
    Spells (Text.lowerAll text) count sides modifier := by
  obtain ⟨hcount, hmark, hsides, hmodifier⟩ := h
  have hsmall : ∀ mark, mark = 'W' ∨ mark = 'w' →
      Text.lower mark = 'W' ∨ Text.lower mark = 'w' := by
    rintro _ (rfl | rfl) <;> decide
  rw [Text.lowerAll_append, Text.lowerAll_cons, Text.lowerAll_append,
    Text.lowerAll_of_isDecimal hcount.isDecimal,
    Text.lowerAll_of_isDecimal (Text.run_of_decimal? hsides).all, hmodifier.lowerAll_eq]
  exact .intro hcount (hsmall _ hmark) hsides hmodifier

/-- The mark tells dice from a number. -/
theorem Spells.allDigits_eq_false (h : Spells text count sides modifier) :
    Text.allDigits text = false := by
  obtain ⟨-, hmark, -, -⟩ := h
  next before digits after mark =>
  have hmem : mark ∈ before ++ mark :: (digits ++ after) :=
    List.mem_append_right _ List.mem_cons_self
  have hother : Text.isDigitLike mark = false := by
    rcases hmark with rfl | rfl <;> decide
  rw [Text.allDigits, List.all_eq_false.mpr ⟨mark, hmem, by simp [hother]⟩, Bool.and_false]

end

/-! ### Building -/

theorem build_eq_ok_iff {count sides : Nat} {modifier : Int} {written : String} {spec : Spec} :
    build count sides modifier written = .ok spec ↔
      ∃ hpos hmost hsize, spec = ⟨count, sides, modifier, written, hpos, hmost, hsize⟩ := by
  unfold build
  split_ifs with few many small
  · simp
    omega
  · simp
    omega
  · simp
    omega
  · constructor
    · intro h
      cases h
      exact ⟨by omega, by omega, by omega, rfl⟩
    · rintro ⟨hpos, hmost, hsize, rfl⟩
      rfl

theorem build_eq_error_iff {count sides : Nat} {modifier : Int} {written : String}
    {fault : Fault} :
    build count sides modifier written = .error fault ↔
      count = 0 ∧ fault = .tooFewDice 0 ∨
      mostDice < count ∧ fault = .tooManyDice count ∨
      (0 < count ∧ count ≤ mostDice) ∧ sides < 2 ∧ fault = .dieTooSmall sides := by
  unfold build
  split_ifs with few many small
  · obtain rfl : count = 0 := by omega
    simp [mostDice, eq_comm]
  · simp only [Except.error.injEq]
    constructor
    · rintro rfl
      exact .inr (.inl ⟨by omega, rfl⟩)
    · rintro (⟨rfl, -⟩ | ⟨-, rfl⟩ | ⟨⟨-, hmost⟩, -⟩)
      · exact absurd few (by decide)
      · rfl
      · omega
  · simp only [Except.error.injEq]
    constructor
    · rintro rfl
      exact .inr (.inr ⟨⟨by omega, by omega⟩, by omega, rfl⟩)
    · rintro (⟨rfl, -⟩ | ⟨hmany, -⟩ | ⟨-, -, rfl⟩)
      · exact absurd few (by decide)
      · omega
      · rfl
  · simp only [false_iff]
    omega

theorem ofChars_of_spells {text : List Char} {count sides : Nat} {modifier : Int}
    (h : Spells (Text.trim text) count sides modifier) :
    ofChars text = build count sides modifier (String.ofList (Text.trim text)) := by
  rw [ofChars, readNumbers?_eq_some_iff.mpr h]

/-- No blanks stand around what spells an expression. -/
theorem Spells.ofChars_eq {text : List Char} {count sides : Nat} {modifier : Int}
    (h : Spells text count sides modifier) :
    ofChars text = build count sides modifier (String.ofList text) := by
  have htrim := Text.trim_of_solid h.solid
  rw [ofChars_of_spells (htrim.symm ▸ h), htrim]

theorem ofText_of_spells {text : String} {count sides : Nat} {modifier : Int}
    (h : Spells (Text.trim text.toList) count sides modifier) :
    ofText text = build count sides modifier (String.ofList (Text.trim text.toList)) :=
  ofChars_of_spells h

theorem ofText_of_not_spells {text : String}
    (h : ¬ ∃ count sides modifier, Spells (Text.trim text.toList) count sides modifier) :
    ofText text = .error (.notDice (some text)) := by
  rw [ofText, ofChars]
  cases hread : readNumbers? (Text.trim text.toList) with
  | some numbers => exact (h ⟨_, _, _, readNumbers?_eq_some_iff.mp hread⟩).elim
  | none => rw [String.ofList_toList]

theorem ofText_eq_ok_iff {text : String} {spec : Spec} :
    ofText text = .ok spec ↔
      Spells (Text.trim text.toList) spec.count spec.sides spec.modifier ∧
        spec.written = String.ofList (Text.trim text.toList) := by
  constructor
  · intro h
    by_cases hspells : ∃ count sides modifier, Spells (Text.trim text.toList) count sides modifier
    · obtain ⟨count, sides, modifier, hspells⟩ := hspells
      rw [ofText_of_spells hspells] at h
      obtain ⟨_, _, _, rfl⟩ := build_eq_ok_iff.mp h
      exact ⟨hspells, rfl⟩
    · rw [ofText_of_not_spells hspells] at h
      cases h
  · rintro ⟨hspells, hwritten⟩
    rw [ofText_of_spells hspells]
    obtain ⟨count, sides, modifier, written, hpos, hmost, hsize⟩ := spec
    exact build_eq_ok_iff.mpr ⟨hpos, hmost, hsize, by rw [← hwritten]⟩

theorem spells_of_ofChars {text : List Char} {spec : Spec} (h : ofChars text = .ok spec) :
    Spells (Text.trim text) spec.count spec.sides spec.modifier := by
  rw [← String.toList_ofList (l := text)] at h ⊢
  exact (ofText_eq_ok_iff.mp h).1

theorem ofText_eq_error_iff {text : String} {fault : Fault} :
    ofText text = .error fault ↔ Refuses text fault := by
  constructor
  · intro h
    by_cases hspells : ∃ count sides modifier, Spells (Text.trim text.toList) count sides modifier
    · obtain ⟨count, sides, modifier, hspells⟩ := hspells
      rw [ofText_of_spells hspells] at h
      rcases build_eq_error_iff.mp h with ⟨rfl, rfl⟩ | ⟨hmany, rfl⟩ | ⟨⟨hpos, hmost⟩, hsmall, rfl⟩
      · exact .tooFewDice hspells
      · exact .tooManyDice hspells hmany
      · exact .dieTooSmall hspells hpos hmost hsmall
    · rw [ofText_of_not_spells hspells] at h
      cases h
      exact .notDice hspells
  · intro h
    cases h with
    | notDice h => exact ofText_of_not_spells h
    | tooFewDice h =>
      rw [ofText_of_spells h]
      exact build_eq_error_iff.mpr (.inl ⟨rfl, rfl⟩)
    | tooManyDice h hmany =>
      rw [ofText_of_spells h]
      exact build_eq_error_iff.mpr (.inr (.inl ⟨hmany, rfl⟩))
    | dieTooSmall h hpos hmost hsmall =>
      rw [ofText_of_spells h]
      exact build_eq_error_iff.mpr (.inr (.inr ⟨⟨hpos, hmost⟩, hsmall, rfl⟩))

/-! ### Writing -/

/-- How an expression is written in full: the digits of its numbers around the mark, and a modifier
unless it is zero. -/
theorem exists_modifier_canonical (spec : Spec) :
    ∃ after, SpellsModifier after spec.modifier ∧ Solid after ∧
      spec.canonical.toList = numeral spec.count ++ 'W' :: (numeral spec.sides ++ after) := by
  have hdice : s!"{spec.count}W{spec.sides}".toList =
      numeral spec.count ++ 'W' :: numeral spec.sides := by
    rw [String.toList_append, String.toList_append, List.append_assoc]
    rfl
  rcases hmodifier : spec.modifier with (_ | n) | n
  · refine ⟨[], .missing, nofun, ?_⟩
    rw [canonical, hmodifier]
    simpa using hdice
  · refine ⟨'+' :: numeral (n + 1), .plus (Text.decimal?_numeral _),
      Text.solid_cons.mpr ⟨rfl, Text.solid_numeral _⟩, ?_⟩
    have hpos : spec.modifier > 0 := hmodifier ▸ Int.natCast_pos.mpr n.succ_pos
    rw [canonical, if_pos hpos, String.toList_append, hdice, hmodifier, String.toList_append,
      List.append_assoc]
    rfl
  · refine ⟨'-' :: numeral (n + 1), .minus (Text.decimal?_numeral _),
      Text.solid_cons.mpr ⟨rfl, Text.solid_numeral _⟩, ?_⟩
    have hneg : spec.modifier < 0 := hmodifier ▸ Int.negSucc_lt_zero n
    rw [canonical, if_neg (Int.lt_asymm hneg), if_pos hneg, String.toList_append, hdice, hmodifier,
      Text.toList_toString_negSucc, List.append_assoc]
    rfl

theorem ofText_canonical (spec : Spec) :
    ofText spec.canonical = .ok { spec with written := spec.canonical } := by
  obtain ⟨after, hmodifier, hsolid, htext⟩ := exists_modifier_canonical spec
  have hall : Solid spec.canonical.toList := by
    rw [htext]
    exact List.forall_mem_append.mpr ⟨Text.solid_numeral _, Text.solid_cons.mpr
      ⟨by decide, List.forall_mem_append.mpr ⟨Text.solid_numeral _, hsolid⟩⟩⟩
  have htrim : Text.trim spec.canonical.toList = spec.canonical.toList := Text.trim_of_solid hall
  refine ofText_eq_ok_iff.mpr ⟨?_, ?_⟩
  · rw [htrim, htext]
    exact .intro (.written (Text.decimal?_numeral _)) (.inl rfl) (Text.decimal?_numeral _) hmodifier
  · rw [htrim, String.ofList_toList]

/-- An expression that was read is written as it was typed, without the blanks around it. -/
theorem ofText_label {text : String} {spec : Spec} (h : ofText text = .ok spec) :
    ofText spec.label = .ok spec := by
  obtain ⟨hspells, hwritten⟩ := ofText_eq_ok_iff.mp h
  have hne : spec.written ≠ "" := by
    rw [hwritten, Ne, String.ofList_eq_empty_iff]
    exact hspells.ne_nil
  rw [label, if_neg hne]
  refine ofText_eq_ok_iff.mpr ?_
  rw [hwritten, String.toList_ofList, Text.trim_trim]
  exact ⟨hspells, rfl⟩

theorem ofText?_eq_some_iff {text : String} {spec : Spec} :
    ofText? text = some spec ↔ ofText text = .ok spec := by
  rw [ofText?]
  cases ofText text <;> simp [Except.toOption]

theorem ofText?_eq_none_iff {text : String} :
    ofText? text = none ↔ ∃ fault, ofText text = .error fault := by
  rw [ofText?]
  cases ofText text <;> simp [Except.toOption]

theorem ofChars?_of_not_spells {text : List Char}
    (h : ¬ ∃ count sides modifier, Spells (Text.trim text) count sides modifier) :
    ofChars? text = none := by
  rw [← String.toList_ofList (l := text)] at h ⊢
  exact ofText?_eq_none_iff.mpr ⟨_, ofText_of_not_spells h⟩

/-- A text is read exactly where it spells an expression within the bounds, as the numbers that it
spells, and refused otherwise; and an expression is read back from either of the two forms in which
it is written. Only the text as written tells an expression from the one it is read back as. -/
theorem notation_is_read :
    (∀ text count sides modifier,
      (∃ spec, ofText text = .ok spec ∧ spec.written = String.ofList (Text.trim text.toList) ∧
        spec.count = count ∧ spec.sides = sides ∧ spec.modifier = modifier) ↔
      Spells (Text.trim text.toList) count sides modifier ∧
        (1 ≤ count ∧ count ≤ mostDice) ∧ 2 ≤ sides) ∧
    (∀ text fault, ofText text = .error fault ↔ Refuses text fault) ∧
    (∀ text spec, ofText? text = some spec ↔ ofText text = .ok spec) ∧
    (∀ text, ofText? text = none ↔ ∃ fault, Refuses text fault) ∧
    (∀ spec : Spec, ofText spec.canonical = .ok { spec with written := spec.canonical }) ∧
    ∀ text spec, ofText text = .ok spec → ofText spec.label = .ok spec := by
  refine ⟨fun text count sides modifier ↦ ⟨?_, ?_⟩, fun _ _ ↦ ofText_eq_error_iff,
    fun _ _ ↦ ofText?_eq_some_iff, fun _ ↦ ?_, ofText_canonical, fun _ _ ↦ ofText_label⟩
  · rintro ⟨spec, hread, -, rfl, rfl, rfl⟩
    exact ⟨(ofText_eq_ok_iff.mp hread).1, ⟨spec.count_pos, spec.count_le⟩, spec.two_le_sides⟩
  · rintro ⟨hspells, ⟨hpos, hmost⟩, hsize⟩
    refine ⟨⟨count, sides, modifier, String.ofList (Text.trim text.toList), hpos, hmost, hsize⟩,
      ofText_eq_ok_iff.mpr ⟨hspells, rfl⟩, rfl, rfl, rfl, rfl⟩
  · simp only [ofText?_eq_none_iff, ofText_eq_error_iff]

/-- A count that is missing, a small mark and a zero in front stay as they were typed. -/
theorem notation_is_read_as_typed :
    (⟨1, 6, -3, "w6-03", by decide, by decide, by decide⟩ : Spec).label = "w6-03" ∧
      ofText (⟨1, 6, -3, "w6-03", by decide, by decide, by decide⟩ : Spec).label =
        .ok ⟨1, 6, -3, "w6-03", by decide, by decide, by decide⟩ :=
  ⟨rfl, notation_is_read.2.2.2.2.2 "\tw6-03 " _ (by decide)⟩

end Aventuria.Dice.Spec
