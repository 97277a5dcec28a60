import Aventuria.Proofs.Dice.Asking
import Aventuria.Proofs.Duration.Specification

/-!
# Lengths of effects

The dice of an expression are thrown in the order in which they are written, and its value is made
of what they show (`Expression.Yields`). So a specification gives an amount and a unit exactly when
it has an expression and a unit by the grammar and the value of the expression is positive
(`Effect.evaluate?_specified`).
-/

set_option autoImplicit false
set_option relaxedAutoImplicit false

namespace Aventuria.Duration

open Dice (Throw Table)

namespace Expression

/-- The sizes of the dice of an expression. -/
def sizes (e : Expression) : List Int :=
  e.specs.flatMap Dice.Spec.sizes

theorem sizes_binary (operation : Operation) (left right : Expression) :
    (binary operation left right).sizes = left.sizes ++ right.sizes :=
  List.flatMap_append

/-- The value of an expression, by the points and by what its dice show from left to right. -/
inductive Yields (total : Int) : Expression → List Int → Int → Prop
  | number {n : Nat} : Yields total (.number n) [] n
  | points : Yields total .points [] total
  | dice {spec : Dice.Spec} {shown : List Int} (hshown : shown.length = spec.count) :
      Yields total (.dice spec) shown (sum shown + spec.modifier)
  | negate {operand : Expression} {shown : List Int} {value : Int}
      (h : Yields total operand shown value) : Yields total (.negate operand) shown (-value)
  | add {left right : Expression} {shown rest : List Int} {l r : Int}
      (hleft : Yields total left shown l) (hright : Yields total right rest r) :
      Yields total (.binary .add left right) (shown ++ rest) (l + r)
  | subtract {left right : Expression} {shown rest : List Int} {l r : Int}
      (hleft : Yields total left shown l) (hright : Yields total right rest r) :
      Yields total (.binary .subtract left right) (shown ++ rest) (l - r)
  | multiply {left right : Expression} {shown rest : List Int} {l r : Int}
      (hleft : Yields total left shown l) (hright : Yields total right rest r) :
      Yields total (.binary .multiply left right) (shown ++ rest) (l * r)

theorem Yields.binary {total l r : Int} {left right : Expression} {shown rest : List Int}
    (operation : Operation) (hleft : Yields total left shown l)
    (hright : Yields total right rest r) :
    Yields total (.binary operation left right) (shown ++ rest) (operation.apply l r) := by
  cases operation with
  | add => exact .add hleft hright
  | subtract => exact .subtract hleft hright
  | multiply => exact .multiply hleft hright

/-- The operands of an operation take their own values. -/
theorem Yields.of_binary {total value : Int} {operation : Operation} {left right : Expression}
    {values : List Int} (h : Yields total (.binary operation left right) values value) :
    ∃ shown rest l r, values = shown ++ rest ∧ value = operation.apply l r ∧
      Yields total left shown l ∧ Yields total right rest r := by
  cases h with
  | add hleft hright => exact ⟨_, _, _, _, rfl, rfl, hleft, hright⟩
  | subtract hleft hright => exact ⟨_, _, _, _, rfl, rfl, hleft, hright⟩
  | multiply hleft hright => exact ⟨_, _, _, _, rfl, rfl, hleft, hright⟩

theorem Yields.length_eq {total value : Int} {e : Expression} {shown : List Int}
    (h : Yields total e shown value) : shown.length = e.sizes.length := by
  induction e generalizing shown value with
  | number n =>
    cases h
    rfl
  | points =>
    cases h
    rfl
  | dice spec =>
    cases h with
    | dice hshown => simpa [sizes, specs, Dice.Spec.sizes] using hshown
  | negate operand ih =>
    cases h with
    | negate h => exact ih h
  | binary operation left right ihleft ihright =>
    obtain ⟨shown, rest, l, r, rfl, rfl, hleft, hright⟩ := h.of_binary
    rw [sizes_binary, List.length_append, List.length_append, ihleft hleft, ihright hright]

theorem Yields.unique {total value value' : Int} {e : Expression} {shown : List Int}
    (h : Yields total e shown value) (h' : Yields total e shown value') : value = value' := by
  induction e generalizing shown value value' with
  | number n =>
    cases h
    cases h'
    rfl
  | points =>
    cases h
    cases h'
    rfl
  | dice spec =>
    cases h
    cases h'
    rfl
  | negate operand ih =>
    cases h with
    | negate h =>
      cases h' with
      | negate h' => rw [ih h h']
  | binary operation left right ihleft ihright =>
    obtain ⟨shown, rest, l, r, rfl, rfl, hleft, hright⟩ := h.of_binary
    obtain ⟨shown', rest', l', r', hsame, rfl, hleft', hright'⟩ := h'.of_binary
    obtain ⟨rfl, rfl⟩ := List.append_inj hsame (hleft.length_eq.trans hleft'.length_eq.symm)
    rw [ihleft hleft hleft', ihright hright hright']

theorem asks_throwValue (e : Expression) (total : Int) :
    Throw.Asks (e.throwValue total) e.sizes (Yields total e) := by
  induction e with
  | number n =>
    refine (Throw.asks_pure (n : Int)).mono ?_
    rintro values value ⟨rfl, rfl⟩
    exact .number
  | points =>
    refine (Throw.asks_pure total).mono ?_
    rintro values value ⟨rfl, rfl⟩
    exact .points
  | dice spec =>
    have hsizes : (Expression.dice spec).sizes = spec.sizes := List.append_nil _
    rw [hsizes]
    refine ((spec.asks_roll "").bind_pure Dice.Roll.total).with_length.mono ?_
    rintro values value ⟨hlength, roll, rfl, rfl⟩
    rw [Dice.Spec.sizes, List.length_replicate] at hlength
    exact .dice hlength
  | negate operand ih =>
    refine (ih.bind_pure Int.neg).mono ?_
    rintro values value ⟨v, hv, rfl⟩
    exact .negate hv
  | binary operation left right ihleft ihright =>
    rw [sizes_binary]
    refine (ihleft.bind fun l ↦ ihright.bind_pure (operation.apply l)).mono ?_
    rintro values value ⟨shown, rest, l, rfl, hl, r, hr, rfl⟩
    exact hl.binary operation hr

end Expression

namespace Effect

theorem HasUnit.subset {text body unit : List Char} (h : HasUnit text body unit) : body ⊆ text := by
  obtain ⟨blanks, -, -, htext⟩ := h.exists_blanks
  intro c hc
  refine Text.trim_subset text (htext ▸ ?_)
  exact List.mem_append_left _ (List.mem_append_left _ hc)

/-- Where all digits are decimal, none of them is misplaced. -/
theorem not_misnumbered {text : List Char}
    (h : ∀ c ∈ text, Text.isDigitLike c = true → Text.isDecimal c = true) :
    ¬ ∃ digits, Misnumbered text digits := by
  rintro ⟨digits, body, unit, hunit, ⟨before, after, rfl, -, hbad⟩⟩
  have hdecimal : ∀ c ∈ digits, Text.isDecimal c = true := by
    intro c hc
    have hmem : c ∈ text := hunit.subset (by simp [hc])
    exact h c hmem (hbad.isDigitLike c hc)
  have hsome := Text.decimal?_eq_some_iff.mpr ⟨⟨hbad.ne_nil, hdecimal⟩, rfl⟩
  rw [hbad.decimal?_eq_none] at hsome
  cases hsome

/-- There is an effect of an amount exactly when the amount is positive. -/
theorem ofAmount?_eq_some_iff {amount n : Int} {word : List Char} {unit : String} :
    (ofAmount? amount word).map (fun effect ↦ ((effect.amount : Int), effect.unit)) =
        some (n, unit) ↔
      0 < n ∧ amount = n ∧ word = unit.toList := by
  unfold ofAmount?
  split
  · next hpos =>
    rw [Option.map_some, Option.some.injEq, Prod.mk.injEq, Int.toNat_of_nonneg (Int.le_of_lt hpos)]
    constructor
    · rintro ⟨rfl, rfl⟩
      exact ⟨hpos, rfl, String.toList_ofList.symm⟩
    · rintro ⟨-, rfl, rfl⟩
      exact ⟨rfl, String.ofList_toList⟩
  · next hpos =>
    constructor
    · intro h
      cases h
    · rintro ⟨hn, rfl, -⟩
      exact absurd hn hpos

/-- Where all digits are decimal and the dice do not run out, there is always an answer. It is the
amount and the unit of the text if the text specifies an expression of positive value, and none
otherwise. The dice of the expression are thrown from left to right, and no others. -/
theorem evaluate?_specified (specification : String) (points : Int) (table : Table)
    (hdigits : ∀ c ∈ specification.toList, Text.isDigitLike c = true → Text.isDecimal c = true)
    (hdice : ((evaluate? specification points).onTable table).1 ≠ .error .diceExhausted) :
    ∃ outcome left, (evaluate? specification points).onTable table = (.ok outcome, left) ∧
      (∀ (n : Int) (unit : String),
        outcome.map (fun effect ↦ ((effect.amount : Int), effect.unit)) = some (n, unit) ↔
          0 < n ∧ ∃ expression shown, Specifies specification.toList expression unit.toList ∧
            table.shown? expression.sizes = some shown ∧ expression.Yields points shown n) ∧
      ∀ expression unit, Specifies specification.toList expression unit →
        left = table.askAll expression.sizes := by
  have hjudged := judged_evaluate? specification points
  generalize evaluate? specification points = procedure at hdice hjudged ⊢
  cases hjudged with
  | @evaluated e word hspecifies =>
    have hasks := (e.asks_throwValue points).bind_pure (ofAmount? · word)
    cases hshown : table.shown? e.sizes with
    | none => exact absurd (hasks.exhausted table hshown) hdice
    | some shown =>
      obtain ⟨outcome, hrun, value, hvalue, rfl⟩ := hasks.shown table shown hshown
      refine ⟨_, _, hrun, fun n unit ↦ ?_, fun e' unit h ↦ ?_⟩
      · rw [ofAmount?_eq_some_iff]
        constructor
        · rintro ⟨hpos, rfl, rfl⟩
          exact ⟨hpos, e, shown, hspecifies, hshown, hvalue⟩
        · rintro ⟨hpos, e', shown', h, hshown', hvalue'⟩
          obtain ⟨rfl, rfl⟩ := h.unique hspecifies
          rw [hshown, Option.some.injEq] at hshown'
          subst hshown'
          exact ⟨hpos, hvalue.unique hvalue', rfl⟩
      · rw [(h.unique hspecifies).1]
  | misnumbered thrown h => exact absurd ⟨_, h⟩ (not_misnumbered hdigits)
  | refused thrown hnot =>
    have hasks := (Dice.Spec.asks_throwAll thrown).bind_pure fun _ ↦ (none : Option Effect)
    cases hshown : table.shown? (thrown.flatMap Dice.Spec.sizes) with
    | none => exact absurd (hasks.exhausted table hshown) hdice
    | some shown =>
      obtain ⟨outcome, hrun, -, -, rfl⟩ := hasks.shown table shown hshown
      refine ⟨none, _, hrun, fun n unit ↦ ?_, fun e unit h ↦ (hnot ⟨e, unit, h⟩).elim⟩
      constructor
      · intro h
        cases h
      · rintro ⟨-, e, -, h, -⟩
        exact (hnot ⟨e, _, h⟩).elim

/-- Two dice that show four and five together with three points make twelve days. -/
theorem evaluate?_twelve_days :
    (∀ c ∈ "2W6+ZfP* Tage".toList, Text.isDigitLike c = true → Text.isDecimal c = true) ∧
    ((evaluate? "2W6+ZfP* Tage" 3).onTable (Table.fresh (Dice.Source.replay #[4, 5]))).1 ≠
      .error .diceExhausted ∧
    ∃ effect, (evaluate? "2W6+ZfP* Tage" 3).onTable (Table.fresh (Dice.Source.replay #[4, 5])) =
        (.ok (some effect), (Table.fresh (Dice.Source.replay #[4, 5])).askAll [6, 6]) ∧
      effect.amount = 12 ∧ effect.unit = "Tage" := by
  have hall : ("2W6+ZfP* Tage".toList.filter Text.isDigitLike).all Text.isDecimal = true := by
    decide +kernel
  have hdigits : ∀ c ∈ "2W6+ZfP* Tage".toList,
      Text.isDigitLike c = true → Text.isDecimal c = true :=
    fun c hc hdigit ↦ List.all_eq_true.mp hall c (List.mem_filter.mpr ⟨hc, hdigit⟩)
  have htwo : Expression.Written ("2".toList ++ 'W' :: "6".toList)
      (.dice ⟨2, 6, 0, "", by decide, by decide, by decide⟩) :=
    .dice (.inr (by decide +kernel)) (.inl rfl) (by decide +kernel) _ _ _
  have hpoints : Expression.Written "ZfP*".toList .points := .points (by decide +kernel)
  have hderives := (Expression.Derives.factor htwo.derives).product.add (.factor hpoints.derives)
  have hunit : HasUnit "2W6+ZfP* Tage".toList
      ("2".toList ++ 'W' :: "6".toList ++ '+' :: "ZfP*".toList) "Tage".toList :=
    ⟨⟨[' '], by decide, by decide, by decide +kernel⟩, by decide, by decide, by decide +kernel⟩
  have hspecifies : Specifies "2W6+ZfP* Tage".toList _ "Tage".toList := ⟨_, hunit, hderives⟩
  have hdice : ((evaluate? "2W6+ZfP* Tage" 3).onTable
      (Table.fresh (Dice.Source.replay #[4, 5]))).1 ≠ .error .diceExhausted := by
    rw [evaluate?_of_specifies hspecifies]
    exact nofun
  obtain ⟨outcome, left, hrun, hiff, hleft⟩ := evaluate?_specified "2W6+ZfP* Tage" 3 _ hdigits hdice
  have hnine : Expression.Yields 3
      (.dice ⟨2, 6, 0, "", by decide, by decide, by decide⟩) [4, 5] 9 := .dice rfl
  have houtcome := (hiff 12 "Tage").mpr ⟨by decide, _, [4, 5], hspecifies, rfl, hnine.add .points⟩
  obtain ⟨effect, rfl, heffect⟩ := Option.map_eq_some_iff.mp houtcome
  rw [Prod.mk.injEq] at heffect
  rw [hleft _ _ hspecifies] at hrun
  exact ⟨hdigits, hdice, effect, hrun, by omega, heffect.2⟩

end Effect

end Aventuria.Duration
