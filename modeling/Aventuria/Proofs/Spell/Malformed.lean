import Aventuria.Proofs.Check.Advantage
import Aventuria.Proofs.Judgement

/-!
# Malformed spells

A check refuses attributes that are not three before it throws a die. But the stored spell is
checked only when the storage has succeeded, and so a malformed spell comes to light only then:
three dice have been thrown for the storage, and none is thrown for the spell. A storage that fails
ends as it does with any other spell (`malformed_spells_are_refused_when_checked`).
-/

set_option autoImplicit false
set_option relaxedAutoImplicit false

namespace Aventuria

open Dice (Throw Table)

theorem Check.onTable_resolve_of_malformed {attributes : List Int} (h : attributes.length ≠ 3)
    (rating difficulty exchanged : Int) (givenRolls : Option (List Int)) (table : Table) :
    (resolve rating difficulty attributes exchanged givenRolls).onTable table =
      (.error (.attributeCount attributes.length), table) := by
  have hcount : validateAttributes attributes = .error (.attributeCount attributes.length) :=
    if_pos h
  have hrefused : judgement rating attributes exchanged givenRolls =
      .error (.attributeCount attributes.length) := by
    rw [judgement, prepare, hcount]
    rfl
  exact (judgedBy_resolve rating difficulty attributes exchanged givenRolls).refused _ hrefused table

/-- Three attributes are all that a check needs, but for its dice. -/
theorem Check.judgement_of_length {attributes : List Int} (h : attributes.length = 3)
    (rating : Int) : judgement rating attributes 0 none = .ok () := by
  have hprepared : prepare rating attributes 0 = .ok (boostedRating rating 0) :=
    prepare_eq_ok_iff.mpr ⟨h, Int.le_refl 0, rfl⟩
  rw [judgement, hprepared]
  rfl

namespace Spell

open Calendar (Moment)
open Check (Misrolled ValidRolls judge)

variable {spell : StoredSpell}

/-- What the check of the storing spell has come to decides whether the attributes are looked at. -/
theorem onTable_store_of_malformed (hmalformed : spell.attributes.length ≠ 3)
    {rating difficulty cleverness dexterity : Int} {length : Storage} {storage : Check.Outcome}
    {table left : Table} (hstorage : (Check.resolve rating (difficulty + length.difficulty)
      [cleverness, dexterity, dexterity] 0 none).onTable table = (.ok storage, left))
    (current : Moment) :
    (store spell rating difficulty cleverness dexterity length current).onTable table =
      (if storage.success then .error (.attributeCount spell.attributes.length)
        else .ok ⟨storage, none, none⟩, left) := by
  rw [store, Throw.onTable_bind, hstorage]
  dsimp only
  cases storage.success with
  | false => exact Throw.onTable_pure _ _
  | true =>
    exact Throw.onTable_bind_of_error
      (Check.onTable_resolve_of_malformed hmalformed spell.rating spell.difficulty 0 none left) _

/-- A spell without three attributes is refused when the check of the storing spell succeeds, after
the three dice of that check, and it is not refused when that check fails. Where three dice do not
show three valid rolls, there is no check of any spell. -/
theorem malformed_spells_are_refused_when_checked (hmalformed : spell.attributes.length ≠ 3)
    (rating difficulty cleverness dexterity : Int) (length : Storage) (current : Moment)
    (table : Table) :
    (∀ rolls, table.shown? [20, 20, 20] = some rolls → ValidRolls rolls →
      ∃ storage, judge rating (difficulty + length.difficulty) [cleverness, dexterity, dexterity]
          rolls = storage ∧
        (storage.success = true →
          (store spell rating difficulty cleverness dexterity length current).onTable table =
            (.error (.attributeCount spell.attributes.length), table.askAll [20, 20, 20])) ∧
        (storage.success = false →
          (store spell rating difficulty cleverness dexterity length current).onTable table =
            (.ok ⟨storage, none, none⟩, table.askAll [20, 20, 20]))) ∧
    ((¬ ∃ rolls, table.shown? [20, 20, 20] = some rolls ∧ ValidRolls rolls) →
      ∃ fault left, (store spell rating difficulty cleverness dexterity length current).onTable
          table = (.error fault, left) ∧ Misrolled none table fault left) := by
  constructor
  · intro rolls hshown hvalid
    have hthree : [cleverness, dexterity, dexterity].length = 3 := rfl
    have hstorage := Check.comesTo_judge rating (difficulty + length.difficulty) hthree
      (Int.le_refl 0) hvalid table none _ (.thrown hshown)
    rw [Check.boostedRating_zero] at hstorage
    have hstore := onTable_store_of_malformed hmalformed hstorage current
    exact ⟨_, rfl, fun hsuccess ↦ by rw [hstore, if_pos hsuccess]; rfl,
      fun hfailed ↦ by rw [hstore, hfailed, if_neg Bool.false_ne_true]; rfl⟩
  · intro hnone
    rcases hstorage : (Check.resolve rating (difficulty + length.difficulty)
      [cleverness, dexterity, dexterity] 0 none).onTable table with ⟨fault | storage, left⟩
    · have hmisrolled := (Check.judgedBy_resolve rating (difficulty + length.difficulty)
        [cleverness, dexterity, dexterity] 0 none).accepted (Check.judgement_of_length rfl rating)
        table fault left hstorage
      exact ⟨fault, left, Throw.onTable_bind_of_error hstorage _, hmisrolled⟩
    · obtain ⟨-, -, rolls, hrolls, hvalid, -⟩ := Check.onTable_resolve_eq_ok_iff.mp hstorage
      cases hrolls with
      | thrown hshown => exact absurd ⟨rolls, hshown, hvalid⟩ hnone

/-- Low rolls of the storing spell bring it to light that the other spell has but two attributes. -/
theorem malformed_spells_are_refused_when_checked_after_low_rolls :
    [12, 12].length ≠ 3 ∧
      (store ⟨8, 0, [12, 12], none⟩ 2 0 10 10 .day .missing).onTable
          (Table.fresh (.replay #[5, 5, 5])) =
        (.error (.attributeCount 2), (Table.fresh (.replay #[5, 5, 5])).askAll [20, 20, 20]) := by
  have hmalformed : (StoredSpell.mk 8 0 [12, 12] none).attributes.length ≠ 3 := by decide
  obtain ⟨hstores, -⟩ := malformed_spells_are_refused_when_checked hmalformed 2 0 10 10 .day
    .missing (Table.fresh (.replay #[5, 5, 5]))
  obtain ⟨storage, rfl, hrefused, -⟩ := hstores [5, 5, 5] rfl ⟨rfl, by decide⟩
  exact ⟨hmalformed, hrefused (by decide)⟩

/-- Two twenties, and the same spell is not refused at all. -/
theorem malformed_spell_is_passed_over :
    [12, 12].length ≠ 3 ∧
      (store ⟨8, 0, [12, 12], none⟩ 2 0 10 10 .day .missing).onTable
          (Table.fresh (.replay #[20, 20, 5])) =
        (.ok ⟨judge 2 0 [10, 10, 10] [20, 20, 5], none, none⟩,
          (Table.fresh (.replay #[20, 20, 5])).askAll [20, 20, 20]) ∧
      ¬ ∃ fault, ((store ⟨8, 0, [12, 12], none⟩ 2 0 10 10 .day .missing).onTable
        (Table.fresh (.replay #[20, 20, 5]))).1 = .error fault :=
  ⟨by decide, rfl, nofun⟩

end Spell

end Aventuria
