import Aventuria.Proofs.Duration.Forms

/-!
# Effects that last

No unit is shorter than a day, and an effect has a positive amount of its unit. So an effect that
begins on a day ends on a later one (`later_of_effectExpiry?`). Which one this is, the text of the
effect says as well: written out and read again, it is a shelf life of the same days, and the dice
of the effect are not thrown again for it (`effects_last_as_written`).
-/

set_option autoImplicit false
set_option relaxedAutoImplicit false

namespace Aventuria.Calendar

/-- The date that a moment denotes, as a date or as a text that reads as one. -/
def Moment.date? : Moment → Option Date
  | .date d => some d
  | .text t => Date.ofText? t
  | .missing => none

theorem Date.lt_addDays (date : Date) {n : Int} (h : 0 < n) : date < date.addDays n := by
  rw [lt_iff, dayIndex_addDays]
  omega

end Aventuria.Calendar

namespace Aventuria.Duration

open Calendar (Date DatedText Moment)
open Dice (Throw Table)

theorem readable_of_date? {current : Moment} {date : Date} (h : current.date? = some date) :
    Readable current := by
  cases current with
  | date date => exact trivial
  | text text =>
    obtain ⟨dated, hread, -⟩ := Option.map_eq_some_iff.mp h
    rw [Readable, hread]
    rfl
  | missing => cases h

/-- The end of some days denotes the date so many days later, in whatever form it is given. -/
theorem date?_endOf {current : Moment} {date : Date} (h : current.date? = some date) (n : Nat) :
    (endOf current (some (.days n))).date? = some (date.addDays n) := by
  cases current with
  | date current =>
    obtain rfl := Option.some.inj h
    rfl
  | text text =>
    obtain ⟨⟨current, era⟩, hread, rfl⟩ := Option.map_eq_some_iff.mp h
    simp only [endOf, hread, Moment.date?, Date.ofText?, (isExpired_addDays hread n).1]
    rfl
  | missing => cases h

theorem wordDays?_pos {unit : List Char} {days : Nat} (h : wordDays? unit = some days) :
    0 < days := by
  have hall : unitWords.all (0 < ·.2) = true := by decide
  obtain ⟨before, after, hwords, -⟩ := List.lookup_eq_some_iff.mp h
  have hmem := hwords ▸ List.mem_append_right before (List.mem_cons_self (l := after))
  simpa using List.all_eq_true.mp hall _ hmem

theorem Effect.days_pos (effect : Effect) {days : Nat} (h : unitDays? effect.unit = some days) :
    0 < effect.amount * days :=
  Nat.mul_pos (Nat.pos_of_ne_zero effect.amount_ne_zero) (wordDays?_pos h)

/-- An effect has an end when its specification is evaluated. On a current date this is the date
that comes the days of the effect later. -/
theorem exists_effect_of_effectExpiry? {current moment : Moment} {specification : String}
    {points : Int} {table left : Table} {date : Date}
    (hrun : (effectExpiry? current specification points).onTable table =
      (.ok (some moment), left)) (hdate : current.date? = some date) :
    ∃ effect days, (Effect.evaluate? specification points).onTable table =
        (.ok (some effect), left) ∧
      unitDays? effect.unit = some days ∧
      moment.date? = some (date.addDays ((effect.amount * days : Nat) : Int)) := by
  cases agree_evaluate?_effectExpiry? (readable_of_date? hdate) specification points table with
  | done hfirst hsecond h =>
    cases hsecond.symm.trans hrun
    cases h with
    | days hunit => exact ⟨_, _, hfirst, hunit, date?_endOf hdate _⟩
  | failed _ hsecond => cases hsecond.symm.trans hrun

theorem later_of_effectExpiry? {current moment : Moment} {specification : String} {points : Int}
    {table left : Table} {date : Date}
    (hrun : (effectExpiry? current specification points).onTable table =
      (.ok (some moment), left)) (hdate : current.date? = some date) :
    ∃ last, moment.date? = some last ∧ date < last := by
  obtain ⟨effect, days, -, hunit, hlast⟩ := exists_effect_of_effectExpiry? hrun hdate
  exact ⟨_, hlast, date.lt_addDays (Int.natCast_pos.mpr (effect.days_pos hunit))⟩

/-! ### Effects that are written out -/

/-- How long an evaluated effect lasts from a date on: until a later date, as many days away as its
amount of its unit has, or no time at all. -/
inductive LastsFrom (date : Date) : Option Effect → Option Moment → Prop
  | days {effect : Effect} {days : Nat} (hunit : unitDays? effect.unit = some days)
      (hlater : date < date.addDays ((effect.amount * days : Nat) : Int)) :
      LastsFrom date (some effect)
        (some (.date (date.addDays ((effect.amount * days : Nat) : Int))))
  | nothing : LastsFrom date none none

theorem agree_lastsFrom (date : Date) (specification : String) (points : Int) (table : Table) :
    Throw.Agree (Effect.evaluate? specification points)
      (effectExpiry? (.date date) specification points) table (LastsFrom date) := by
  have hreadable : Readable (.date date) := trivial
  refine (agree_evaluate?_effectExpiry? hreadable specification points table).mono ?_
  intro _ _ h
  cases h with
  | @days effect days hunit =>
    exact .days hunit (date.lt_addDays (Int.natCast_pos.mpr (effect.days_pos hunit)))
  | missing => exact .nothing

/-- The dice of a specification are thrown once, in the order in which they are written. -/
theorem left_of_effectExpiry? {date : Date} {specification : String} {points : Int}
    {table left : Table} {moment? : Option Moment} {expression : Expression} {unit : List Char}
    (hspecifies : Effect.Specifies specification.toList expression unit)
    (hrun : (effectExpiry? (.date date) specification points).onTable table =
      (.ok moment?, left)) :
    left = table.askAll expression.sizes := by
  have hasks := (expression.asks_throwValue points).bind_pure (Effect.ofAmount? · unit)
  rw [← Effect.evaluate?_of_specifies hspecifies points] at hasks
  cases agree_lastsFrom date specification points table with
  | done hfirst hsecond _ =>
    obtain ⟨_, rfl⟩ := Prod.mk.inj (hsecond.symm.trans hrun)
    obtain ⟨-, -, hleft, -⟩ := hasks.of_onTable hfirst
    exact hleft.symm
  | failed _ hsecond => exact nomatch (Prod.mk.inj (hsecond.symm.trans hrun)).1

/-- Whatever a specification is evaluated to, written out it is a shelf life of its days, for which
no die is thrown. So an effect that begins on a date has an end exactly when it has been evaluated,
and then on the later date that comes its days afterwards. The dice of the specification are thrown
for this, and no others. -/
theorem effects_last_as_written (date : Date) (specification : String) (points : Int)
    (table : Table) :
    (∀ effect left,
      (Effect.evaluate? specification points).onTable table = (.ok (some effect), left) →
        ∃ days, unitDays? effect.unit = some days ∧
          resolve? effect.text = pure (some (.days (effect.amount * days)))) ∧
      Throw.Agree (Effect.evaluate? specification points)
        (effectExpiry? (.date date) specification points) table (LastsFrom date) ∧
      ∀ expression unit, Effect.Specifies specification.toList expression unit →
        ∀ moment? left, (effectExpiry? (.date date) specification points).onTable table =
          (.ok moment?, left) → left = table.askAll expression.sizes := by
  refine ⟨fun effect left hrun ↦ ?_, agree_lastsFrom date specification points table,
    fun expression unit hspecifies moment? left hrun ↦ left_of_effectExpiry? hspecifies hrun⟩
  obtain ⟨hsolid, days, hunit⟩ := Effect.unit_facts hrun
  exact ⟨days, hunit, Effect.resolve?_text hsolid hunit⟩

/-- A die that shows four and three points make seven weeks, which lead into the next year. -/
theorem effects_last_as_written_in_weeks :
    (Effect.evaluate? "W6+ZfP* wOCHEN" 3).onTable (Table.fresh (.replay #[4])) =
        (.ok (some ⟨7, "wOCHEN", by decide⟩), (Table.fresh (.replay #[4])).askAll [6]) ∧
      resolve? "7 wOCHEN" = pure (some (.days 49)) ∧
      (effectExpiry? (.date ⟨3, .namelessDays, 1040, by decide, by decide⟩) "W6+ZfP* wOCHEN"
          3).onTable (Table.fresh (.replay #[4])) =
        (.ok (some (.date ⟨17, .rondra, 1041, by decide, by decide⟩)),
          (Table.fresh (.replay #[4])).askAll [6]) := by
  have hdie : Expression.Written ("".toList ++ 'W' :: "6".toList)
      (.dice ⟨1, 6, 0, "", by decide, by decide, by decide⟩) :=
    .dice (.inl ⟨rfl, rfl⟩) (.inl rfl) (by decide +kernel) _ _ _
  have hpoints : Expression.Written "ZfP*".toList .points := .points (by decide +kernel)
  have hderives := (Expression.Derives.factor hdie.derives).product.add (.factor hpoints.derives)
  have hunit : Effect.HasUnit "W6+ZfP* wOCHEN".toList
      ("".toList ++ 'W' :: "6".toList ++ '+' :: "ZfP*".toList) "wOCHEN".toList :=
    ⟨⟨[' '], by decide, by decide, by decide +kernel⟩, by decide, by decide, by decide +kernel⟩
  have hspecifies : Effect.Specifies "W6+ZfP* wOCHEN".toList _ "wOCHEN".toList :=
    ⟨_, hunit, hderives⟩
  have hrun : (Effect.evaluate? "W6+ZfP* wOCHEN" 3).onTable (Table.fresh (.replay #[4])) =
      (.ok (some ⟨7, "wOCHEN", by decide⟩), (Table.fresh (.replay #[4])).askAll [6]) := by
    rw [Effect.evaluate?_of_specifies hspecifies]
    rfl
  have hweek : unitDays? "wOCHEN" = some 7 := by decide
  obtain ⟨hwritten, hlasts, hleft⟩ := effects_last_as_written
    ⟨3, .namelessDays, 1040, by decide, by decide⟩ "W6+ZfP* wOCHEN" 3 (Table.fresh (.replay #[4]))
  obtain ⟨days, hdays, hread⟩ := hwritten _ _ hrun
  obtain rfl : 7 = days := Option.some.inj (hweek.symm.trans hdays)
  refine ⟨hrun, hread, ?_⟩
  cases hlasts with
  | failed hfirst _ => cases hrun.symm.trans hfirst
  | done hfirst hsecond h =>
    cases hrun.symm.trans hfirst
    cases h with
    | days hunit hlater =>
      obtain rfl := Option.some.inj (hweek.symm.trans hunit)
      rw [hleft _ _ hspecifies _ _ hsecond] at hsecond
      exact hsecond

end Aventuria.Duration
