import Aventuria.Proofs.Check.Outcome
import Aventuria.Proofs.Duration.Lasting
import Aventuria.Spell.Storage

/-!
# Storing a spell

Storing is up to three procedures that throw their dice one after the other: the check of the
storing spell, that of the stored one, and the evaluation of its effect. Each of them is made when
there is an occasion for it, and where there is none no dice are thrown for it (`Stores`). An effect
that begins on a day ends on a later one (`store_runs_stages`).
-/

set_option autoImplicit false
set_option relaxedAutoImplicit false

namespace Aventuria.Spell

open Calendar (Date DatedText Moment)
open Dice (Throw Table)
open Duration (Effect Expression)

/-! ### The stages -/

/-- The end of the effect of a checked spell and the table after it. Only the effect of a success is
evaluated, if it says something and there is a date. -/
inductive EffectStage (effect? : Option String) (outcome : Check.Outcome) (current : Moment)
    (table : Table) : Option Moment → Table → Prop
  | evaluated {effect : String} {expiry : Option Moment} {left : Table}
      (heffect : effect? = some effect) (hsuccess : outcome.success = true) (hne : effect ≠ "")
      (hcurrent : current ≠ .missing)
      (hrun : (Duration.effectExpiry? current effect outcome.extraPoints).onTable table =
        (.ok expiry, left)) :
      EffectStage effect? outcome current table expiry left
  | skipped (h : outcome.success = false ∨ effect? = none ∨ effect? = some "" ∨
      current = .missing) : EffectStage effect? outcome current table none table

/-- What storing a spell comes to and the table after it. The check of the storing spell throws
three dice; only after a success the stored spell is checked with three more, and then its effect
ends. -/
inductive Stores (spell : StoredSpell) (rating difficulty cleverness dexterity : Int)
    (length : Storage) (current : Moment) (table : Table) : Stored → Table → Prop
  | failed {storage : Check.Outcome}
      (hstorage : (Check.resolve rating (difficulty + length.difficulty)
        [cleverness, dexterity, dexterity] 0 none).onTable table =
          (.ok storage, table.askAll [20, 20, 20]))
      (hfailed : storage.success = false) :
      Stores spell rating difficulty cleverness dexterity length current table
        ⟨storage, none, none⟩ (table.askAll [20, 20, 20])
  | stored {storage outcome : Check.Outcome} {expiry : Option Moment} {left : Table}
      (hstorage : (Check.resolve rating (difficulty + length.difficulty)
        [cleverness, dexterity, dexterity] 0 none).onTable table =
          (.ok storage, table.askAll [20, 20, 20]))
      (hstored : storage.success = true)
      (hspell : (Check.resolve spell.rating spell.difficulty spell.attributes 0 none).onTable
        (table.askAll [20, 20, 20]) = (.ok outcome, table.askAll [20, 20, 20, 20, 20, 20]))
      (hend : EffectStage spell.effect outcome current (table.askAll [20, 20, 20, 20, 20, 20])
        expiry left) :
      Stores spell rating difficulty cleverness dexterity length current table
        ⟨storage, some outcome, expiry⟩ left

/-! ### Effects -/

theorem effectEnd?_of_evaluated {spell : StoredSpell} {outcome : Check.Outcome} {current : Moment}
    {effect : String} (heffect : spell.effect = some effect) (hsuccess : outcome.success = true)
    (hne : effect ≠ "") (hcurrent : current ≠ .missing) :
    spell.effectEnd? outcome current =
      Duration.effectExpiry? current effect outcome.extraPoints := by
  simp [StoredSpell.effectEnd?, heffect, hsuccess, hne, hcurrent]

theorem effectEnd?_of_skipped {spell : StoredSpell} {outcome : Check.Outcome} {current : Moment}
    (h : outcome.success = false ∨ spell.effect = none ∨ spell.effect = some "" ∨
      current = .missing) : spell.effectEnd? outcome current = pure none := by
  unfold StoredSpell.effectEnd?
  cases heffect : spell.effect with
  | none => rfl
  | some effect =>
    have hcases : outcome.success = false ∨ effect = "" ∨ current = .missing := by
      simpa [heffect] using h
    rcases hcases with h | h | h <;> simp [h]

section
variable {spell : StoredSpell} {outcome : Check.Outcome} {current : Moment}
  {expiry : Option Moment} {table left : Table}

theorem onTable_effectEnd?_eq_ok_iff :
    (spell.effectEnd? outcome current).onTable table = (.ok expiry, left) ↔
      EffectStage spell.effect outcome current table expiry left := by
  constructor
  · intro h
    by_cases hskipped : outcome.success = false ∨ spell.effect = none ∨ spell.effect = some "" ∨
        current = .missing
    · rw [effectEnd?_of_skipped hskipped] at h
      obtain ⟨rfl, rfl⟩ := Throw.onTable_pure_eq_ok_iff.mp h
      exact .skipped hskipped
    · simp only [not_or, Bool.not_eq_false, ← Option.isSome_iff_ne_none] at hskipped
      obtain ⟨hsuccess, hsome, hne, hcurrent⟩ := hskipped
      obtain ⟨effect, heffect⟩ := Option.isSome_iff_exists.mp hsome
      have hne' : effect ≠ "" := fun hempty ↦ hne (hempty ▸ heffect)
      rw [effectEnd?_of_evaluated heffect hsuccess hne' hcurrent] at h
      exact .evaluated heffect hsuccess hne' hcurrent h
  · intro h
    cases h with
    | evaluated heffect hsuccess hne hcurrent hrun =>
      rwa [effectEnd?_of_evaluated heffect hsuccess hne hcurrent]
    | skipped h => rw [effectEnd?_of_skipped h, Throw.onTable_pure]

theorem EffectStage.later {effect? : Option String} {moment : Moment} {date : Date}
    (h : EffectStage effect? outcome current table (some moment) left)
    (hdate : current.date? = some date) : ∃ last, moment.date? = some last ∧ date < last := by
  cases h with
  | evaluated _ _ _ _ hrun => exact Duration.later_of_effectExpiry? hrun hdate

end

/-! ### Whole storages -/

section
variable {spell : StoredSpell} {rating difficulty cleverness dexterity : Int} {length : Storage}
  {current : Moment} {table left : Table} {stored : Stored}

theorem Stores.onTable
    (h : Stores spell rating difficulty cleverness dexterity length current table stored left) :
    (store spell rating difficulty cleverness dexterity length current).onTable table =
      (.ok stored, left) := by
  cases h with
  | failed hstorage hfailed =>
    refine Throw.onTable_bind_eq_ok_iff.mpr ⟨_, _, hstorage, ?_⟩
    rw [hfailed, if_neg Bool.false_ne_true, Throw.onTable_pure]
  | stored hstorage hstored hspell hend =>
    refine Throw.onTable_bind_eq_ok_iff.mpr ⟨_, _, hstorage, ?_⟩
    rw [if_pos hstored]
    refine Throw.onTable_bind_eq_ok_iff.mpr ⟨_, _, hspell, ?_⟩
    refine Throw.onTable_bind_eq_ok_iff.mpr ⟨_, _, onTable_effectEnd?_eq_ok_iff.mpr hend, ?_⟩
    exact Throw.onTable_pure _ _

theorem stores_of_onTable
    (h : (store spell rating difficulty cleverness dexterity length current).onTable table =
      (.ok stored, left)) :
    Stores spell rating difficulty cleverness dexterity length current table stored left := by
  obtain ⟨storage, afterStorage, hstorage, hrest⟩ := Throw.onTable_bind_eq_ok_iff.mp h
  obtain rfl := Check.askAll_of_onTable_resolve hstorage
  cases hsuccess : storage.success with
  | false =>
    rw [hsuccess, if_neg Bool.false_ne_true] at hrest
    obtain ⟨rfl, rfl⟩ := Throw.onTable_pure_eq_ok_iff.mp hrest
    exact .failed hstorage hsuccess
  | true =>
    rw [if_pos hsuccess] at hrest
    obtain ⟨outcome, afterSpell, hspell, hrest⟩ := Throw.onTable_bind_eq_ok_iff.mp hrest
    obtain rfl := Check.askAll_of_onTable_resolve hspell
    obtain ⟨expiry, afterEnd, hend, hrest⟩ := Throw.onTable_bind_eq_ok_iff.mp hrest
    obtain ⟨rfl, rfl⟩ := Throw.onTable_pure_eq_ok_iff.mp hrest
    rw [Table.askAll_askAll] at hspell hend
    exact .stored hstorage hsuccess hspell (onTable_effectEnd?_eq_ok_iff.mp hend)

theorem Stores.later {moment : Moment} {date : Date}
    (h : Stores spell rating difficulty cleverness dexterity length current table stored left)
    (hmoment : stored.expiry = some moment) (hdate : current.date? = some date) :
    ∃ last, moment.date? = some last ∧ date < last := by
  cases h with
  | failed => cases hmoment
  | stored _ _ _ hend =>
    cases hmoment
    exact hend.later hdate

end

/-- Storing a spell is the check of the storing spell, after its success the check of the stored
spell, and after that one's success the evaluation of the effect, with the extra points of the
spell and each on the dice that the stages before it have left. If an end comes out of this and
the current moment denotes a date, then the end denotes a later one. -/
theorem store_runs_stages (spell : StoredSpell) (rating difficulty cleverness dexterity : Int)
    (length : Storage) (current : Moment) (table left : Table) (stored : Stored) :
    ((store spell rating difficulty cleverness dexterity length current).onTable table =
        (.ok stored, left) ↔
      Stores spell rating difficulty cleverness dexterity length current table stored left) ∧
    ((store spell rating difficulty cleverness dexterity length current).onTable table =
        (.ok stored, left) →
      ∀ moment date, stored.expiry = some moment → current.date? = some date →
        ∃ last, moment.date? = some last ∧ date < last) :=
  ⟨⟨stores_of_onTable, Stores.onTable⟩, fun h _ _ hmoment hdate ↦
    (stores_of_onTable h).later hmoment hdate⟩

/-- An effect of three times six days and what one more die shows, begun ten days before the end of
the year. -/
theorem store_runs_stages_turn_of_year :
    ∃ stored left, (store ⟨7, 1, [10, 10, 10], some "3*ZfP*+W6 Tage"⟩ 5 0 12 12 .moon
        (.date ⟨25, .rahja, 1040, by decide, by decide⟩)).onTable
          (Table.fresh (Dice.Source.replay #[9, 5, 12, 6, 10, 2, 4])) = (.ok stored, left) ∧
      left.asked = #[20, 20, 20, 20, 20, 20, 6] ∧
      stored.expiry = some (.date ⟨12, .praios, 1041, by decide, by decide⟩) ∧
      ∃ last, (Moment.date ⟨12, .praios, 1041, by decide, by decide⟩).date? = some last ∧
        ⟨25, .rahja, 1040, by decide, by decide⟩ < last := by
  have hthree : Expression.Written "3".toList (.number 3) := .number (by decide +kernel)
  have hpoints : Expression.Written "ZfP*".toList .points := .points (by decide +kernel)
  have hdie : Expression.Written ([] ++ 'W' :: "6".toList)
      (.dice ⟨1, 6, 0, "", by decide, by decide, by decide⟩) :=
    .dice (.inl ⟨rfl, rfl⟩) (.inl rfl) (by decide +kernel) _ _ _
  have hproduct := (Expression.Derives.factor hthree.derives).multiply hpoints.derives
  have hderives := hproduct.product.add (.factor hdie.derives)
  have hunit : Effect.HasUnit "3*ZfP*+W6 Tage".toList
      ("3".toList ++ '*' :: "ZfP*".toList ++ '+' :: ([] ++ 'W' :: "6".toList)) "Tage".toList :=
    ⟨⟨[' '], by decide, by decide, by decide +kernel⟩, by decide, by decide, by decide +kernel⟩
  have heffect : (Effect.evaluate? "3*ZfP*+W6 Tage" 6).onTable
      ((Table.fresh (Dice.Source.replay #[9, 5, 12, 6, 10, 2, 4])).askAll
        [20, 20, 20, 20, 20, 20]) =
      (.ok (some ⟨22, "Tage", by decide⟩),
        (Table.fresh (Dice.Source.replay #[9, 5, 12, 6, 10, 2, 4])).askAll
          [20, 20, 20, 20, 20, 20, 6]) := by
    rw [Effect.evaluate?_of_specifies ⟨_, hunit, hderives⟩]
    rfl
  have hday : Duration.unitDays? "Tage" = some 1 := by decide +kernel
  have hreadable : Duration.Readable (.date ⟨25, .rahja, 1040, by decide, by decide⟩) := trivial
  have hend := Duration.onTable_effectExpiry?_of_evaluated hreadable heffect (by decide) hday
  have hstores : Stores ⟨7, 1, [10, 10, 10], some "3*ZfP*+W6 Tage"⟩ 5 0 12 12 .moon
      (.date ⟨25, .rahja, 1040, by decide, by decide⟩)
      (Table.fresh (Dice.Source.replay #[9, 5, 12, 6, 10, 2, 4])) _ _ :=
    .stored rfl rfl rfl (.evaluated rfl rfl (by decide) (by decide) hend)
  obtain ⟨hiff, hlater⟩ := store_runs_stages _ 5 0 12 12 .moon _ _ _ _
  have hrun := hiff.mpr hstores
  exact ⟨_, _, hrun, rfl, rfl, hlater hrun _ _ rfl rfl⟩

end Aventuria.Spell
