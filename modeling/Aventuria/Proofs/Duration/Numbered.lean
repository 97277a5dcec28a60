import Aventuria.Proofs.Duration.Faults

/-!
# Numbers of days

A number with a unit behind it is a shelf life of so many days, whatever the case of the unit, and no
die is thrown for it (`resolve?_of_numbered`). An effect that was evaluated is written so
(`Effect.resolve?_text`).
-/

set_option autoImplicit false
set_option relaxedAutoImplicit false

namespace Aventuria.Duration

open Dice (Throw Table)
open Text (Solid numeral)

/-! ### Units -/

/-- The words for units have no z, which tells them from the word for an unlimited shelf life. -/
theorem unitWord_facts {word : String × Nat} (h : word ∈ unitWords) :
    wordDays? word.1.toList = some word.2 ∧ word.1.toList ≠ [] ∧ Solid word.1.toList ∧
      'z' ∉ word.1.toList := by
  have hall : unitWords.all fun word ↦ wordDays? word.1.toList = some word.2 ∧
      word.1.toList ≠ [] ∧ Solid word.1.toList ∧ 'z' ∉ word.1.toList := by
    decide
  simpa using List.all_eq_true.mp hall word h

theorem ne_nil_of_wordDays? {unit : List Char} {days : Nat} (h : wordDays? unit = some days) :
    unit ≠ [] := by
  rintro rfl
  have hnone : wordDays? [] = none := by decide
  cases hnone.symm.trans h

/-- A unit in small letters is the same unit. -/
theorem exists_unitWord {unit : List Char} {days : Nat} (hsolid : Solid unit)
    (h : wordDays? unit = some days) :
    ∃ word ∈ unitWords, Text.lowerAll unit = word.1.toList ∧ word.2 = days := by
  obtain ⟨before, after, hwords, -⟩ := List.lookup_eq_some_iff.mp h
  refine ⟨_, hwords ▸ List.mem_append_right _ List.mem_cons_self, ?_, rfl⟩
  rw [Text.trim_of_solid hsolid, String.toList_ofList]

/-! ### Shelf lives -/

theorem not_isUnlimited {amount unit : List Char} (hamount : 'z' ∉ amount) (hunit : 'z' ∉ unit) :
    ShelfLife.isUnlimited (amount ++ ' ' :: unit) = false := by
  have hz : 'z' ∉ amount ++ ' ' :: unit := by simp [hamount, hunit]
  have hspace : ' ' ∈ amount ++ ' ' :: unit := by simp
  have hcontains : Text.contains "unbegrenzt".toList (amount ++ ' ' :: unit) = false := by
    rw [← Bool.not_eq_true]
    intro h
    exact hz (Text.subset_of_contains h (by decide))
  have hewig : amount ++ ' ' :: unit ≠ "ewig".toList := by
    intro h
    rw [h] at hspace
    exact absurd hspace (by decide)
  have hunendlich : amount ++ ' ' :: unit ≠ "unendlich".toList := by
    intro h
    rw [h] at hspace
    exact absurd hspace (by decide)
  simp only [ShelfLife.isUnlimited, hcontains, beq_eq_false_iff_ne.mpr hewig,
    beq_eq_false_iff_ne.mpr hunendlich, Bool.or_false]

/-- A number or dice in front of a unit are read as the amount that they are in small letters. -/
theorem ShelfLife.ofChars_of_isNotation {word unit : List Char} {days : Nat} (hne : word ≠ [])
    (hword : ∀ c ∈ word, Dice.Spec.isNotation c = true) (hsolid : Solid unit)
    (hunit : wordDays? unit = some days) :
    ofChars (word ++ ' ' :: unit) =
      (Amount.ofWord (Text.lowerAll word)).map fun amount? ↦ amount?.map (limited · days) := by
  obtain ⟨name, hname, hlower, hsame⟩ := exists_unitWord hsolid hunit
  obtain ⟨hdays, hname_ne, hname_solid, hz⟩ := unitWord_facts hname
  have hsmall : ∀ c ∈ Text.lowerAll word, Dice.Spec.isNotation c = true :=
    List.forall_mem_map.mpr fun c hc ↦ Dice.Spec.isNotation_lower (hword c hc)
  have hsmall_ne : Text.lowerAll word ≠ [] := mt List.map_eq_nil_iff.mp hne
  have hplain : plain (word ++ ' ' :: unit) = Text.lowerAll word ++ ' ' :: name.1.toList := by
    rw [List.append_cons, List.append_assoc, plain, Text.trim_of_ends hne
      (fun c hc ↦ Dice.Spec.not_isBlank_of_isNotation (hword c hc)) (ne_nil_of_wordDays? hunit)
      hsolid, Text.lowerAll_append, Text.lowerAll_append, hlower]
    rfl
  have hlimited : isUnlimited (plain (word ++ ' ' :: unit)) = false := by
    rw [hplain]
    exact not_isUnlimited (fun hmem ↦ absurd (hsmall _ hmem) (by decide)) hz
  have hexact : exactWords (Text.words (plain (word ++ ' ' :: unit))) =
      [Text.lowerAll word, name.1.toList] := by
    rw [hplain, Text.words_word_append hsmall_ne
      (fun c hc ↦ Dice.Spec.not_isBlank_of_isNotation (hsmall c hc)) rfl,
      Text.words_of_solid hname_ne hname_solid, exactWords,
      Amount.approximations_contains_of_isNotation hsmall]
    rfl
  exact ofChars_of_hasWords ⟨hlimited, hexact⟩ (hsame ▸ hdays)

theorem resolve?_of_numbered {text : String} {n days : Nat} {unit : List Char}
    (htext : text.toList = numeral n ++ ' ' :: unit) (hsolid : Solid unit)
    (hunit : wordDays? unit = some days) :
    resolve? text = pure (some (.days (n * days))) := by
  have hnumeral := Text.decimal?_numeral n
  rw [resolve?, ShelfLife.ofText, htext, ShelfLife.ofChars_of_isNotation (Text.numeral_ne_nil n)
    (Dice.Spec.isNotation_of_decimal? hnumeral) hsolid hunit,
    Text.lowerAll_of_isDecimal fun _ ↦ Text.isDecimal_of_mem_numeral,
    Amount.ofWord_eq_ok_some_iff.mpr (.number hnumeral)]
  rfl

/-! ### Effects -/

namespace Effect

/-- The unit of an effect that was evaluated is a known one. -/
theorem unit_facts {specification : String} {points : Int} {table left : Table} {effect : Effect}
    (h : (evaluate? specification points).onTable table = (.ok (some effect), left)) :
    Solid effect.unit.toList ∧ ∃ days, unitDays? effect.unit = some days := by
  have hjudged := judged_evaluate? specification points
  generalize evaluate? specification points = procedure at h hjudged
  cases hjudged with
  | @evaluated e unit hspecifies =>
    obtain ⟨body, hunit, -⟩ := hspecifies
    rw [Throw.onTable_bind] at h
    rcases hvalue : (e.throwValue points).onTable table with ⟨fault | amount, after⟩
    · rw [hvalue] at h
      cases h
    · rw [hvalue] at h
      have hamount : ofAmount? amount unit = some effect := Except.ok.inj (Prod.mk.inj h).1
      rw [ofAmount?] at hamount
      split at hamount
      · cases hamount
        rw [unitDays?, String.toList_ofList]
        exact ⟨hunit.solid, Option.isSome_iff_exists.mp hunit.known⟩
      · cases hamount
  | @misnumbered digits thrown =>
    rw [Throw.onTable_bind] at h
    rcases hthrown : (Dice.Spec.throwAll thrown).onTable table with ⟨fault | _, after⟩ <;>
      · rw [hthrown] at h
        cases h
  | refused thrown =>
    rw [Throw.onTable_bind] at h
    rcases hthrown : (Dice.Spec.throwAll thrown).onTable table with ⟨fault | _, after⟩ <;>
      · rw [hthrown] at h
        cases h

/-- An effect is as long as it says, and its text has no dice in it. -/
theorem resolve?_text {effect : Effect} {days : Nat} (hsolid : Solid effect.unit.toList)
    (hunit : unitDays? effect.unit = some days) :
    resolve? effect.text = pure (some (.days (effect.amount * days))) :=
  resolve?_of_numbered effect.toList_text hsolid hunit

end Effect

end Aventuria.Duration
