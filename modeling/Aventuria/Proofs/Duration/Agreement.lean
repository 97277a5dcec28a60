import Aventuria.Proofs.Duration.Numbered

/-!
# Where shelf lives and effects agree

A number or dice with a unit behind is both a shelf life and an effect. The one is read in small
letters and as a whole, the other character by character. But both find the same amount and throw
the same dice for it, and an amount of nothing or less is a shelf life of no days and no effect at
all. Dice whose numbers are out of bounds are neither (`amounts_are_read_alike`).
-/

set_option autoImplicit false
set_option relaxedAutoImplicit false

namespace Aventuria.Duration

open Dice (Throw Table)
open Dice.Spec (Spells SpellsCount)
open Text (Solid)

/-- The amounts that both languages have words for: numbers and dice. -/
inductive Amount.Common : List Char → Amount → Prop
  | number {word : List Char} {n : Nat} (h : Text.decimal? word = some n) : Common word (.fixed n)
  | dice {word : List Char} {spec : Dice.Spec} (h : Dice.Spec.ofChars word = .ok spec) :
      Common word (.rolled spec)

/-- Numbers of dice, or of their faces, that no dice have. -/
def OutOfBounds (count sides : Nat) : Prop :=
  count = 0 ∨ 100 < count ∨ sides < 2

theorem OutOfBounds.not_ok {count sides : Nat} (h : OutOfBounds count sides) {modifier : Int}
    {written : String} {spec : Dice.Spec} :
    Dice.Spec.build count sides modifier written ≠ .ok spec := by
  intro hbuild
  obtain ⟨hpos, hmost, hsize, -⟩ := Dice.Spec.build_eq_ok_iff.mp hbuild
  unfold Dice.mostDice at hmost
  rcases h with h | h | h <;> omega

/-! ### As expressions -/

namespace Expression

theorem counts_of_spellsCount {digits : List Char} {n : Nat} (h : SpellsCount digits n) :
    Counts digits n := by
  cases h with
  | missing => exact .inl ⟨rfl, rfl⟩
  | written h => exact .inr h

/-- A number throws no dice. -/
theorem Yields.of_modified {operation : Operation} {spec : Dice.Spec} {m : Nat} {total n : Int}
    {values : List Int} (h : Yields total (.binary operation (.dice spec) (.number m)) values n) :
    n = operation.apply (sum values + spec.modifier) m := by
  obtain ⟨shown, rest, l, r, rfl, rfl, hdice, hnumber⟩ := h.of_binary
  cases hdice
  cases hnumber
  rw [List.append_nil]

/-- A modifier behind dice is a number that is added to them or subtracted from them. -/
theorem exists_derives_of_spells {word : List Char} {count sides : Nat} {modifier : Int}
    (h : Spells word count sides modifier) (hpos : 0 < count) (hmost : count ≤ Dice.mostDice)
    (hsize : 2 ≤ sides) :
    ∃ e, Derives .sum word e ∧ e.sizes = List.replicate count (sides : Int) ∧
      ∀ total values n, Yields total e values n → n = sum values + modifier := by
  obtain ⟨hcount, hmark, hsides, hmodifier⟩ := h
  next before digits after mark =>
  have hwritten : Written (before ++ mark :: digits) (.dice ⟨count, sides, 0, "", _, _, _⟩) :=
    .dice (counts_of_spellsCount hcount) hmark hsides hpos hmost hsize
  have hdice := (Derives.factor hwritten.derives).product
  cases hmodifier with
  | missing =>
    refine ⟨_, (List.append_nil digits).symm ▸ hdice, List.append_nil _, ?_⟩
    rintro total values n ⟨⟩
    rfl
  | plus hdigits =>
    have hsum := hdice.add (.factor (Written.number hdigits).derives)
    rw [List.append_assoc, List.cons_append] at hsum
    refine ⟨_, hsum, List.append_nil _, fun total values n hyields ↦ ?_⟩
    rw [hyields.of_modified, Int.add_zero]
    rfl
  | minus hdigits =>
    have hsum := hdice.subtract (.factor (Written.number hdigits).derives)
    rw [List.append_assoc, List.cons_append] at hsum
    refine ⟨_, hsum, List.append_nil _, fun total values n hyields ↦ ?_⟩
    rw [hyields.of_modified, Int.add_zero]
    rfl

theorem readDice_of_outOfBounds {count sides : Nat} {digits : List Char}
    (h : OutOfBounds count sides) (hsides : Text.decimal? digits = some sides) :
    readDice count digits = .error .here := by
  rw [readDice, readNumber_eq_ok_iff.mpr hsides]
  split
  · rfl
  · cases hbuild : Dice.Spec.build count sides 0 "" with
    | ok spec => exact absurd hbuild h.not_ok
    | error fault => simp only [hbuild]

/-- Dice out of bounds are a flaw at the start, and no dice stand in front of it. -/
theorem ofChars_of_outOfBounds {word : List Char} {count sides : Nat} {modifier : Int}
    (h : Spells word count sides modifier) (hbounds : OutOfBounds count sides) :
    ofChars word = .error .here := by
  obtain ⟨hcount, hmark, hsides, hmodifier⟩ := h
  next before digits after mark =>
  have hcounts := counts_of_spellsCount hcount
  have hdigits (c : Char) (hc : c ∈ before) : Text.isDigitLike c = true :=
    Text.isDigitLike_of_isDecimal (hcount.isDecimal c hc)
  have hrest (c : Char) (hc : c ∈ after.head?) : Text.isDigitLike c = false := by
    cases hmodifier with
    | missing => cases hc
    | plus | minus =>
      cases hc
      decide
  have hatom : factorOf (before ++ mark :: (digits ++ after)) =
      readAtom (before ++ mark :: (digits ++ after)) :=
    factorOf_digits Text.blanks_nil hdigits (.inr ⟨mark, rfl, hmark⟩)
  have hflaw : factorOf (before ++ mark :: (digits ++ after)) = .error .here := by
    rw [hatom, readAtom_dice hdigits hmark (isDigitLike_of_decimal? hsides).2 hrest,
      readCount_eq_ok_iff.mpr hcounts]
    show (readDice count digits).map _ = _
    rw [readDice_of_outOfBounds hbounds hsides]
    rfl
  rw [ofChars_eq, sumOf_eq, productOf_eq, hflaw]
  rfl

end Expression

/-! ### As effects -/

namespace Effect

theorem hasUnit_of_solid {word unit : List Char} {days : Nat} (hne : word ≠ [])
    (hword : Solid word) (hunit : Solid unit) (hdays : wordDays? unit = some days) :
    HasUnit (word ++ ' ' :: unit) word unit where
  exists_blanks := by
    have htrim := Text.trim_of_ends hne hword (ne_nil_of_wordDays? hdays) hunit [' ']
    exact ⟨[' '], List.cons_ne_nil _ _, by decide, (List.append_assoc _ _ _).trans htrim.symm⟩
  ne_nil := ne_nil_of_wordDays? hdays
  solid := hunit
  known := Option.isSome_of_eq_some hdays

/-- A flaw without a fault comes to nothing, but for the dice in front of it. -/
theorem evaluate?_of_flaw {specification : String} {body unit : List Char} {flaw : Expression.Flaw}
    (hunit : HasUnit specification.toList body unit)
    (hflaw : Expression.ofChars (Text.trimRight body) = .error flaw) (points : Int) :
    evaluate? specification points = flaw.raise >>= fun _ ↦ pure none := by
  obtain ⟨days, hdays⟩ := Option.isSome_iff_exists.mp hunit.known
  rw [evaluate?, hunit.cutUnit?_eq]
  simp only [hdays, hflaw]

/-- An effect of some amount, if this is positive. -/
theorem ofAmount?_eq (amount : Int) (unit : List Char) :
    (ofAmount? amount unit).map (fun effect ↦ ((effect.amount : Int), effect.unit)) =
      if 0 < amount then some (amount, String.ofList unit) else none := by
  by_cases hpos : 0 < amount
  · rw [if_pos hpos]
    exact ofAmount?_eq_some_iff.mpr ⟨hpos, rfl, String.toList_ofList.symm⟩
  · rw [if_neg hpos, ofAmount?, dif_neg hpos]
    rfl

end Effect

/-! ### In both languages -/

namespace Amount.Common

variable {word : List Char} {amount : Amount}

theorem spells (hsolid : Solid word) {spec : Dice.Spec} (h : Dice.Spec.ofChars word = .ok spec) :
    Spells word spec.count spec.sides spec.modifier := by
  have hspells := Dice.Spec.spells_of_ofChars h
  rwa [Text.trim_of_solid hsolid] at hspells

theorem run_isNotation (h : Common word amount) (hsolid : Solid word) :
    Text.Run Dice.Spec.isNotation word := by
  cases h with
  | number h => exact ⟨(Text.run_of_decimal? h).ne_nil, Dice.Spec.isNotation_of_decimal? h⟩
  | dice h => exact ⟨(spells hsolid h).ne_nil, (spells hsolid h).isNotation⟩

/-- Small letters change nothing about the dice of an amount and what they come to. -/
theorem exists_small (h : Common word amount) (hsolid : Solid word) :
    ∃ small, ofWord (Text.lowerAll word) = .ok (some small) ∧ small.sizes = amount.sizes ∧
      ∀ values, small.value values = amount.value values := by
  cases h with
  | @number n h =>
    rw [Text.lowerAll_of_isDecimal (Text.run_of_decimal? h).all]
    exact ⟨.fixed n, ofWord_eq_ok_some_iff.mpr (.number h), rfl, fun _ ↦ rfl⟩
  | @dice spec h =>
    have hread := (spells hsolid h).lowerAll.ofChars_eq.trans
      (Dice.Spec.build_eq_ok_iff.mpr ⟨spec.count_pos, spec.count_le, spec.two_le_sides, rfl⟩)
    exact ⟨_, ofWord_eq_ok_some_iff.mpr (.dice hread), rfl, fun _ ↦ rfl⟩

theorem exists_derives (h : Common word amount) (hsolid : Solid word) :
    ∃ e, Expression.Derives .sum word e ∧ e.sizes = amount.sizes ∧
      ∀ total values n, Expression.Yields total e values n → n = amount.value values := by
  cases h with
  | number h =>
    refine ⟨_, (Expression.Derives.factor (Expression.Written.number h).derives).product, rfl, ?_⟩
    rintro total values n ⟨⟩
    rfl
  | @dice spec h =>
    exact Expression.exists_derives_of_spells (spells hsolid h) spec.count_pos spec.count_le
      spec.two_le_sides

end Amount.Common

section
variable {text : String} {word unit : List Char} {days : Nat}

theorem asks_resolve?_of_common {amount : Amount} (htext : text.toList = word ++ ' ' :: unit)
    (hcommon : Amount.Common word amount) (hword : Solid word) (hunit : Solid unit)
    (hdays : wordDays? unit = some days) :
    Throw.Asks (resolve? text) amount.sizes fun values span? ↦
      ∃ count : Nat, span? = some (.days count) ∧
        (count : Int) = max 0 (amount.value values) * days := by
  obtain ⟨hne, hnotation⟩ := hcommon.run_isNotation hword
  obtain ⟨small, hsmall, hsizes, hvalue⟩ := hcommon.exists_small hword
  have hresolve : resolve? text = some <$> (ShelfLife.limited small days).resolve := by
    rw [resolve?, ShelfLife.ofText, htext,
      ShelfLife.ofChars_of_isNotation hne hnotation hunit hdays, hsmall]
    rfl
  rw [hresolve, map_eq_pure_bind, ← hsizes]
  have hasks := (small.asks_resolve.bind_pure fun n ↦ Span.days (n.toNat * days)).bind_pure some
  refine hasks.mono ?_
  rintro values _ ⟨_, ⟨n, rfl, rfl⟩, rfl⟩
  refine ⟨_, rfl, ?_⟩
  rw [hvalue, Int.natCast_mul, Int.toNat_eq_max, Int.max_comm]

theorem asks_evaluate?_of_common {amount : Amount} (htext : text.toList = word ++ ' ' :: unit)
    (hcommon : Amount.Common word amount) (hword : Solid word) (hunit : Solid unit)
    (hdays : wordDays? unit = some days) (points : Int) :
    Throw.Asks (Effect.evaluate? text points) amount.sizes fun values effect? ↦
      effect?.map (fun effect ↦ ((effect.amount : Int), effect.unit)) =
        if 0 < amount.value values then some (amount.value values, String.ofList unit)
        else none := by
  obtain ⟨hne, -⟩ := hcommon.run_isNotation hword
  obtain ⟨e, hderives, hsizes, hvalue⟩ := hcommon.exists_derives hword
  have hspecifies : Effect.Specifies text.toList e unit := by
    rw [htext]
    exact ⟨word, Effect.hasUnit_of_solid hne hword hunit hdays, hderives⟩
  rw [Effect.evaluate?_of_specifies hspecifies, ← hsizes]
  refine ((e.asks_throwValue points).bind_pure (Effect.ofAmount? · unit)).mono ?_
  rintro values _ ⟨n, hyields, rfl⟩
  rw [← hvalue points values n hyields, Effect.ofAmount?_eq]

theorem resolve?_of_outOfBounds (htext : text.toList = word ++ ' ' :: unit) {count sides : Nat}
    {modifier : Int} (hspells : Spells word count sides modifier)
    (hbounds : OutOfBounds count sides) (hunit : Solid unit) (hdays : wordDays? unit = some days) :
    resolve? text = pure none := by
  have hnone : Dice.Spec.ofChars? (Text.lowerAll word) = none := by
    rw [Dice.Spec.ofChars?, hspells.lowerAll.ofChars_eq]
    cases hbuild : Dice.Spec.build count sides modifier (String.ofList (Text.lowerAll word)) with
    | ok spec => exact absurd hbuild hbounds.not_ok
    | error fault => rfl
  have hword : Amount.ofWord (Text.lowerAll word) = .ok none := by
    rw [Amount.ofWord_eq (Amount.lookup_of_isNotation hspells.lowerAll.isNotation),
      hspells.lowerAll.allDigits_eq_false, if_neg Bool.false_ne_true, hnone]
    rfl
  rw [resolve?, ShelfLife.ofText, htext,
    ShelfLife.ofChars_of_isNotation hspells.ne_nil hspells.isNotation hunit hdays, hword]
  rfl

theorem evaluate?_of_outOfBounds (htext : text.toList = word ++ ' ' :: unit) {count sides : Nat}
    {modifier : Int} (hspells : Spells word count sides modifier)
    (hbounds : OutOfBounds count sides) (hunit : Solid unit) (hdays : wordDays? unit = some days)
    (points : Int) : Effect.evaluate? text points = pure none := by
  have hhasUnit : Effect.HasUnit text.toList word unit := by
    rw [htext]
    exact Effect.hasUnit_of_solid hspells.ne_nil hspells.solid hunit hdays
  have hflaw : Expression.ofChars (Text.trimRight word) = .error .here := by
    rw [Text.trimRight_of_solid hspells.solid]
    exact Expression.ofChars_of_outOfBounds hspells hbounds
  rw [Effect.evaluate?_of_flaw hhasUnit hflaw]
  rfl

end

/-- Whatever its unit, a number or dice without blanks are the same amount as a shelf life and as an
effect, and the same dice are thrown for it. An amount of at least nothing gives so many units of
days, and only a positive one an effect. Dice out of bounds give neither, and no die is thrown. -/
theorem amounts_are_read_alike {word unit : String} {days : Nat} (hword : Solid word.toList)
    (hunit : Solid unit.toList) (hdays : unitDays? unit = some days) (points : Int) :
    (∀ amount, Amount.Common word.toList amount →
      (Throw.Asks (resolve? (word ++ " " ++ unit)) amount.sizes fun values span? ↦
        ∃ count : Nat, span? = some (.days count) ∧
          (count : Int) = max 0 (amount.value values) * days) ∧
      Throw.Asks (Effect.evaluate? (word ++ " " ++ unit) points) amount.sizes fun values effect? ↦
        effect?.map (fun effect ↦ ((effect.amount : Int), effect.unit)) =
          if 0 < amount.value values then some (amount.value values, unit) else none) ∧
    ∀ count sides modifier, Spells word.toList count sides modifier →
      (count = 0 ∨ 100 < count ∨ sides < 2) →
        resolve? (word ++ " " ++ unit) = pure none ∧
          Effect.evaluate? (word ++ " " ++ unit) points = pure none := by
  have htext : (word ++ " " ++ unit).toList = word.toList ++ ' ' :: unit.toList := by
    rw [String.toList_append, String.toList_append, List.append_assoc]
    rfl
  refine ⟨fun amount hcommon ↦ ⟨?_, ?_⟩, fun count sides modifier hspells hbounds ↦ ⟨?_, ?_⟩⟩
  · exact asks_resolve?_of_common htext hcommon hword hunit hdays
  · have hasks := asks_evaluate?_of_common htext hcommon hword hunit hdays points
    rwa [String.ofList_toList] at hasks
  · exact resolve?_of_outOfBounds htext hspells hbounds hunit hdays
  · exact evaluate?_of_outOfBounds htext hspells hbounds hunit hdays points

/-- A die less four makes a week when it shows five, and nothing when it shows two. -/
theorem amounts_are_read_alike_down_to_nothing :
    (Solid "w6-4".toList ∧ Solid "Wochen".toList ∧ unitDays? "Wochen" = some 7) ∧
      ((resolve? ("w6-4" ++ " " ++ "Wochen")).onTable (Table.fresh (.replay #[5])) =
          (.ok (some (.days 7)), (Table.fresh (.replay #[5])).askAll [6]) ∧
        ∃ effect, (Effect.evaluate? ("w6-4" ++ " " ++ "Wochen") 3).onTable
            (Table.fresh (.replay #[5])) =
              (.ok (some effect), (Table.fresh (.replay #[5])).askAll [6]) ∧
          effect.amount = 1 ∧ effect.unit = "Wochen") ∧
      (resolve? ("w6-4" ++ " " ++ "Wochen")).onTable (Table.fresh (.replay #[2])) =
          (.ok (some (.days 0)), (Table.fresh (.replay #[2])).askAll [6]) ∧
        (Effect.evaluate? ("w6-4" ++ " " ++ "Wochen") 3).onTable (Table.fresh (.replay #[2])) =
          (.ok none, (Table.fresh (.replay #[2])).askAll [6]) := by
  have hword : Solid "w6-4".toList := by decide
  have hunit : Solid "Wochen".toList := by decide
  have hdays : unitDays? "Wochen" = some 7 := by decide
  have hdie : Dice.Spec.ofChars "w6-4".toList =
      .ok ⟨1, 6, -4, "w6-4", by decide, by decide, by decide⟩ := by
    decide
  obtain ⟨hresolve, hevaluate⟩ := (amounts_are_read_alike hword hunit hdays 3).1 _ (.dice hdie)
  obtain ⟨_, hweek, count, rfl, hcount⟩ := hresolve.shown (Table.fresh (.replay #[5])) [5] rfl
  obtain ⟨_, hnoWeek, count', rfl, hcount'⟩ := hresolve.shown (Table.fresh (.replay #[2])) [2] rfl
  obtain ⟨effect?, heffect, hmap⟩ := hevaluate.shown (Table.fresh (.replay #[5])) [5] rfl
  obtain ⟨effect?', hnoEffect, hmap'⟩ := hevaluate.shown (Table.fresh (.replay #[2])) [2] rfl
  obtain rfl : count = 7 := Int.ofNat.inj hcount
  obtain rfl : count' = 0 := Int.ofNat.inj hcount'
  obtain ⟨effect, rfl, heffect'⟩ := Option.map_eq_some_iff.mp (hmap.trans (if_pos (by decide)))
  obtain rfl : effect?' = none := Option.map_eq_none_iff.mp (hmap'.trans (if_neg (by decide)))
  rw [Prod.mk.injEq] at heffect'
  exact ⟨⟨hword, hunit, hdays⟩, ⟨hweek, effect, heffect, Int.ofNat.inj heffect'.1, heffect'.2⟩,
    hnoWeek, hnoEffect⟩

end Aventuria.Duration
