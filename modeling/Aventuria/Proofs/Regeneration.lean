import Aventuria.Proofs.Dice.Asking
import Aventuria.Regeneration

/-!
# Nights compared

A night asks for dice that depend only on whether there is astral energy to regain, and on mastery of
it. The first two of them are for the life energy, whatever the rest of the character is like
(`asks_sleep`). So nights with the same dice can be compared: what life comes back has nothing to do
with the gifts of the mind, what astral energy comes back to a master has nothing to do with the
bed, and neither is less for anyone who is better off in all that it depends on
(`nights_restore_in_order`).
-/

set_option autoImplicit false
set_option relaxedAutoImplicit false

namespace Aventuria.Regeneration

open Dice (Throw Table)

/-! ### Gains -/

theorem clampRest_mono {modifier modifier' : Int} (h : modifier ≤ modifier') :
    clampRest modifier ≤ clampRest modifier' := by
  unfold clampRest
  omega

theorem masteryGain_mono {cleverness cleverness' intuition intuition' : Int}
    (hcleverness : cleverness ≤ cleverness') (hintuition : intuition ≤ intuition') :
    masteryGain cleverness intuition ≤ masteryGain cleverness' intuition' := by
  unfold masteryGain
  omega

theorem attributePoint_fst (name : String) (roll ability : Int) :
    (attributePoint name roll ability).1 = if roll ≤ ability then 1 else 0 := by
  unfold attributePoint
  split <;> rfl

theorem attributePoint_nonneg (name : String) (roll ability : Int) :
    0 ≤ (attributePoint name roll ability).1 := by
  rw [attributePoint_fst]
  split <;> decide

theorem attributePoint_mono (name : String) (roll : Int) {ability ability' : Int}
    (h : ability ≤ ability') :
    (attributePoint name roll ability).1 ≤ (attributePoint name roll ability').1 := by
  rw [attributePoint_fst, attributePoint_fst]
  split <;> split <;> omega

theorem gain_nonneg (base : Int) (details : List String) (bonus : Int) (name : String)
    (roll ability : Int) : 0 ≤ (gain base details bonus (attributePoint name roll ability)).amount :=
  Int.add_nonneg (Int.le_max_left _ _) (attributePoint_nonneg name roll ability)

/-- A gain is no less when its base, its bonus and the attribute of its point are no less. -/
theorem gain_mono {base base' bonus bonus' ability ability' : Int} (details details' : List String)
    (name : String) (roll : Int) (hbase : base ≤ base') (hbonus : bonus ≤ bonus')
    (hability : ability ≤ ability') :
    (gain base details bonus (attributePoint name roll ability)).amount ≤
      (gain base' details' bonus' (attributePoint name roll ability')).amount := by
  have hpoint := attributePoint_mono name roll hability
  simp only [gain]
  omega

/-! ### What a night comes to -/

/-- The dice for what an astral gain is based on; a master needs none. -/
def Sleeper.baseDice (sleeper : Sleeper) : List Int :=
  if sleeper.isMaster then [] else [6]

/-- The dice for the astral energy, if there is any to regain. -/
def Sleeper.astralDice (sleeper : Sleeper) : List Int :=
  if sleeper.hasAstral then sleeper.baseDice ++ [20] else []

/-- The dice of a night: two for the life energy, then those for the astral energy. -/
def Sleeper.dice (sleeper : Sleeper) : List Int :=
  [6, 20] ++ sleeper.astralDice

/-- The life energy that comes back when its dice show these values. -/
def lifeOf (sleeper : Sleeper) (rest die roll : Int) : Gain :=
  gain (die + rest) (dieDetails die rest) sleeper.lifeBonus
    (attributePoint "KO" roll sleeper.constitution)

/-- What an astral gain is based on when its dice show these values. -/
inductive BaseOf (sleeper : Sleeper) (rest : Int) : List Int → Int × List String → Prop
  | fixed (hmaster : sleeper.isMaster = true) :
      BaseOf sleeper rest []
        (masteryGain sleeper.cleverness sleeper.intuition,
          [s!"Meisterlich={masteryGain sleeper.cleverness sleeper.intuition}"])
  | rolled (hmaster : sleeper.isMaster = false) (die : Int) :
      BaseOf sleeper rest [die] (die + rest, dieDetails die rest)

/-- The astral energy that comes back when its dice show these values. -/
inductive AstralOf (sleeper : Sleeper) (rest : Int) : List Int → Gain → Prop
  | missing (hastral : sleeper.hasAstral = false) : AstralOf sleeper rest [] .nothing
  | regained {values before : List Int} {base : Int × List String} (roll : Int)
      (hastral : sleeper.hasAstral = true) (hbase : BaseOf sleeper rest before base)
      (hvalues : before ++ [roll] = values) :
      AstralOf sleeper rest values
        (gain base.1 base.2 sleeper.astralBonus (attributePoint "IN" roll sleeper.intuition))

/-- The night that follows when its dice show these values. -/
structure NightOf (sleeper : Sleeper) (rest die roll : Int) (values : List Int) (night : Night) :
    Prop where
  life_eq : night.life = lifeOf sleeper rest die roll
  astral : AstralOf sleeper rest values night.astral
  karma_eq : night.karma = karmaGain sleeper

theorem asks_lifeGain (sleeper : Sleeper) (rest : Int) :
    Throw.Asks (lifeGain sleeper rest) [6, 20] fun values life ↦
      ∃ die roll, values = [die, roll] ∧ life = lifeOf sleeper rest die roll := by
  refine ((Throw.asks_die 6).bind fun die ↦
    (Throw.asks_die 20).bind_pure fun roll ↦ lifeOf sleeper rest die roll).mono ?_
  rintro _ _ ⟨_, _, die, rfl, rfl, roll, rfl, rfl⟩
  exact ⟨die, roll, rfl, rfl⟩

theorem asks_astralBase (sleeper : Sleeper) (rest : Int) :
    Throw.Asks (astralBase sleeper rest) sleeper.baseDice (BaseOf sleeper rest) := by
  unfold astralBase Sleeper.baseDice
  cases hmaster : sleeper.isMaster with
  | true =>
    refine (Throw.asks_pure _).mono ?_
    rintro _ _ ⟨rfl, rfl⟩
    exact .fixed hmaster
  | false =>
    refine ((Throw.asks_die 6).bind_pure fun die ↦ (die + rest, dieDetails die rest)).mono ?_
    rintro _ _ ⟨die, rfl, rfl⟩
    exact .rolled hmaster die

theorem asks_astralGain (sleeper : Sleeper) (rest : Int) :
    Throw.Asks (astralGain sleeper rest) sleeper.astralDice (AstralOf sleeper rest) := by
  unfold astralGain Sleeper.astralDice
  cases hastral : sleeper.hasAstral with
  | false =>
    refine (Throw.asks_pure Gain.nothing).mono ?_
    rintro _ _ ⟨rfl, rfl⟩
    exact .missing hastral
  | true =>
    refine ((asks_astralBase sleeper rest).bind fun base ↦ (Throw.asks_die 20).bind_pure fun roll ↦
      gain base.1 base.2 sleeper.astralBonus (attributePoint "IN" roll sleeper.intuition)).mono ?_
    rintro _ _ ⟨values, _, base, rfl, hbase, roll, rfl, rfl⟩
    exact .regained roll hastral hbase rfl

/-- A night asks for its dice and no others. -/
theorem asks_sleep (sleeper : Sleeper) (modifier : Int) :
    Throw.Asks (sleep sleeper modifier) sleeper.dice fun shown night ↦
      ∃ die roll values, [die, roll] ++ values = shown ∧
        NightOf sleeper (clampRest modifier) die roll values night := by
  refine ((asks_lifeGain sleeper _).bind fun life ↦ (asks_astralGain sleeper _).bind_pure
    fun astral ↦ (⟨life, astral, karmaGain sleeper⟩ : Night)).mono ?_
  rintro _ _ ⟨_, values, _, rfl, ⟨die, roll, rfl, rfl⟩, astral, hastral, rfl⟩
  exact ⟨die, roll, values, rfl, rfl, hastral, rfl⟩

/-! ### Nights with the same dice -/

/-- The sleeper wakes up like this after a night with the dice of the table. -/
def Wakes (table : Table) (sleeper : Sleeper) (modifier : Int) (night : Night) : Prop :=
  ((sleep sleeper modifier).onTable table).1 = .ok night

/-- The table shows two values for the life energy before those for the astral energy. -/
theorem Wakes.exists_shown {table : Table} {sleeper : Sleeper} {modifier : Int} {night : Night}
    (h : Wakes table sleeper modifier night) :
    ∃ die roll values, table.shown? [6, 20] = some [die, roll] ∧
      (table.askAll [6, 20]).shown? sleeper.astralDice = some values ∧
      NightOf sleeper (clampRest modifier) die roll values night := by
  obtain ⟨all, hall, -, die, roll, values, rfl, hnight⟩ :=
    (asks_sleep sleeper modifier).of_onTable (Prod.ext h rfl)
  obtain ⟨life, rest, hlife, hrest, hsame⟩ := Table.shown?_append_eq_some_iff.mp hall
  obtain ⟨rfl, rfl⟩ := List.append_inj hsame ((Table.length_of_shown? hlife).trans rfl)
  exact ⟨die, roll, rest, hlife, hrest, hnight⟩

section
variable {table : Table} {sleeper other : Sleeper} {modifier modifier' : Int}
  {night night' : Night}

/-- Two nights with the same dice: the life energy comes from the same two values, and astral
energy that asks for the same dice from the same values too. -/
theorem Wakes.exists_common (h : Wakes table sleeper modifier night)
    (h' : Wakes table other modifier' night') :
    ∃ die roll values values', NightOf sleeper (clampRest modifier) die roll values night ∧
      NightOf other (clampRest modifier') die roll values' night' ∧
      (sleeper.astralDice = other.astralDice → values = values') := by
  obtain ⟨die, roll, values, hlife, hastral, hnight⟩ := h.exists_shown
  obtain ⟨die', roll', values', hlife', hastral', hnight'⟩ := h'.exists_shown
  cases hlife.symm.trans hlife'
  refine ⟨die, roll, values, values', hnight, hnight', fun hdice ↦ ?_⟩
  rw [hdice] at hastral
  exact Option.some.inj (hastral.symm.trans hastral')

/-- Better off in all that the life energy depends on, apart from the bed. -/
structure Sleeper.Sturdier (other sleeper : Sleeper) : Prop where
  constitution_le : sleeper.constitution ≤ other.constitution
  lifeBonus_le : sleeper.lifeBonus ≤ other.lifeBonus

/-- Better off in all that the astral energy depends on, apart from the bed, with the same dice. -/
structure Sleeper.MoreGifted (other sleeper : Sleeper) : Prop where
  hasAstral_eq : sleeper.hasAstral = other.hasAstral
  isMaster_eq : sleeper.isMaster = other.isMaster
  intuition_le : sleeper.intuition ≤ other.intuition
  cleverness_le : sleeper.cleverness ≤ other.cleverness
  astralBonus_le : sleeper.astralBonus ≤ other.astralBonus

theorem Sleeper.MoreGifted.astralDice_eq (h : other.MoreGifted sleeper) :
    sleeper.astralDice = other.astralDice := by
  rw [astralDice, astralDice, baseDice, baseDice, h.hasAstral_eq, h.isMaster_eq]

end

theorem AstralOf.nonneg {sleeper : Sleeper} {rest : Int} {values : List Int} {astral : Gain}
    (h : AstralOf sleeper rest values astral) : 0 ≤ astral.amount := by
  cases h with
  | missing hastral => exact Int.le_refl 0
  | regained roll hastral hbase hvalues => exact gain_nonneg ..

theorem BaseOf.eq_of_isMaster {sleeper : Sleeper} {rest rest' : Int} {values : List Int}
    {base base' : Int × List String} (hmaster : sleeper.isMaster = true)
    (h : BaseOf sleeper rest values base) (h' : BaseOf sleeper rest' values base') :
    base = base' := by
  cases h with
  | fixed =>
    cases h' with
    | fixed => rfl
  | rolled hnovice => exact nomatch hmaster.symm.trans hnovice

/-- A master's astral energy has nothing to do with the bed. -/
theorem AstralOf.eq_of_isMaster {sleeper : Sleeper} {rest rest' : Int} {values : List Int}
    {astral astral' : Gain} (hmaster : sleeper.isMaster = true)
    (h : AstralOf sleeper rest values astral) (h' : AstralOf sleeper rest' values astral') :
    astral = astral' := by
  cases h with
  | missing hnone =>
    cases h' with
    | missing => rfl
    | regained _ hastral => exact nomatch hnone.symm.trans hastral
  | regained roll hastral hbase hvalues =>
    cases h' with
    | missing hnone => exact nomatch hnone.symm.trans hastral
    | regained roll' _ hbase' hvalues' =>
      obtain ⟨rfl, hroll⟩ := List.append_inj' (hvalues.trans hvalues'.symm) rfl
      obtain rfl := List.singleton_inj.mp hroll
      rw [hbase.eq_of_isMaster hmaster hbase']

theorem BaseOf.mono {sleeper other : Sleeper} {rest rest' : Int} {values : List Int}
    {base base' : Int × List String} (hgifted : other.MoreGifted sleeper) (hrest : rest ≤ rest')
    (h : BaseOf sleeper rest values base) (h' : BaseOf other rest' values base') :
    base.1 ≤ base'.1 := by
  cases h with
  | fixed =>
    cases h' with
    | fixed => exact masteryGain_mono hgifted.cleverness_le hgifted.intuition_le
  | rolled hnovice die =>
    cases h' with
    | rolled => exact Int.add_le_add_left hrest die

theorem AstralOf.mono {sleeper other : Sleeper} {rest rest' : Int} {values : List Int}
    {astral astral' : Gain} (hgifted : other.MoreGifted sleeper) (hrest : rest ≤ rest')
    (h : AstralOf sleeper rest values astral) (h' : AstralOf other rest' values astral') :
    astral.amount ≤ astral'.amount := by
  cases h with
  | missing hnone => exact h'.nonneg
  | regained roll hastral hbase hvalues =>
    cases h' with
    | missing hnone => exact nomatch hnone.symm.trans (hgifted.hasAstral_eq.symm.trans hastral)
    | regained roll' _ hbase' hvalues' =>
      obtain ⟨rfl, hroll⟩ := List.append_inj' (hvalues.trans hvalues'.symm) rfl
      obtain rfl := List.singleton_inj.mp hroll
      exact gain_mono _ _ _ _ (hbase.mono hgifted hrest hbase') hgifted.astralBonus_le
        hgifted.intuition_le

/-! ### The laws of the night -/

theorem length_dice_le (sleeper : Sleeper) : sleeper.dice.length ≤ 4 := by
  unfold Sleeper.dice Sleeper.astralDice Sleeper.baseDice
  cases sleeper.hasAstral <;> cases sleeper.isMaster <;> decide

theorem NightOf.nonneg {sleeper : Sleeper} {rest die roll : Int} {values : List Int} {night : Night}
    (h : NightOf sleeper rest die roll values night) :
    0 ≤ night.life.amount ∧ 0 ≤ night.astral.amount ∧ 0 ≤ night.karma.amount := by
  refine ⟨?_, h.astral.nonneg, ?_⟩
  · rw [h.life_eq]
    exact gain_nonneg ..
  · rw [h.karma_eq, karmaGain]
    split <;> decide

theorem lifeOf_mono {sleeper other : Sleeper} {rest rest' : Int} (hsturdy : other.Sturdier sleeper)
    (hrest : rest ≤ rest') (die roll : Int) :
    (lifeOf sleeper rest die roll).amount ≤ (lifeOf other rest' die roll).amount :=
  gain_mono _ _ _ _ (Int.add_le_add_left hrest die) hsturdy.lifeBonus_le hsturdy.constitution_le

/-- On a table with four more values every night comes to an end, with its dice thrown and no
others, and no gain is below zero. Modifiers that are clamped to the same one make the same night.
Of two nights with the same dice, those of sleepers alike in body bring back the same life energy
after the same rest, and those of a master the same astral energy after any rest. Who is better off
in body and bed regains no less life energy, and who is better off in gifts and bed no less astral
energy. -/
theorem nights_restore_in_order {table : Table} (hdice : table.ShowsNext 4) (sleeper : Sleeper)
    (modifier : Int) :
    ∃ night, (sleep sleeper modifier).onTable table = (.ok night, table.askAll sleeper.dice) ∧
      (0 ≤ night.life.amount ∧ 0 ≤ night.astral.amount ∧ 0 ≤ night.karma.amount) ∧
      (∀ modifier', clampRest modifier = clampRest modifier' →
        sleep sleeper modifier = sleep sleeper modifier') ∧
      ∀ other modifier' night', Wakes table other modifier' night' →
        (sleeper.constitution = other.constitution → sleeper.lifeBonus = other.lifeBonus →
          modifier = modifier' → night.life = night'.life) ∧
        (sleeper = other → sleeper.isMaster = true → night.astral = night'.astral) ∧
        (other.Sturdier sleeper → modifier ≤ modifier' →
          night.life.amount ≤ night'.life.amount) ∧
        (other.MoreGifted sleeper → modifier ≤ modifier' →
          night.astral.amount ≤ night'.astral.amount) := by
  obtain ⟨shown, hshown⟩ := (hdice.of_le (length_dice_le sleeper)).exists_shown?
  obtain ⟨night, hrun, _, _, _, _, hnight⟩ := (asks_sleep sleeper modifier).shown table shown hshown
  have hwakes : Wakes table sleeper modifier night := by rw [Wakes, hrun]
  refine ⟨night, hrun, hnight.nonneg, fun modifier' hclamp ↦ ?_,
    fun other modifier' night' hwakes' ↦ ?_⟩
  · rw [sleep, hclamp, ← sleep]
  · obtain ⟨die, roll, values, values', hnight, hnight', hsame⟩ := hwakes.exists_common hwakes'
    refine ⟨fun hconstitution hbonus hmodifier ↦ ?_, fun hother hmaster ↦ ?_,
      fun hsturdy hmodifier ↦ ?_, fun hgifted hmodifier ↦ ?_⟩
    · rw [hnight.life_eq, hnight'.life_eq, lifeOf, lifeOf, hconstitution, hbonus, hmodifier]
    · subst hother
      obtain rfl := hsame rfl
      exact hnight.astral.eq_of_isMaster hmaster hnight'.astral
    · rw [hnight.life_eq, hnight'.life_eq]
      exact lifeOf_mono hsturdy (clampRest_mono hmodifier) die roll
    · obtain rfl := hsame hgifted.astralDice_eq
      exact hnight.astral.mono hgifted (clampRest_mono hmodifier) hnight'.astral

/-- A night in the frost leaves a point of life energy and nothing else to a novice, and as much life
to a master with the same dice, whose astral energy a good bed would not raise either. -/
theorem nights_restore_in_order_in_the_frost :
    (Table.fresh (.replay #[1, 12, 5, 9])).ShowsNext 4 ∧
      ∃ frost, Wakes (Table.fresh (.replay #[1, 12, 5, 9]))
          ⟨12, 8, 14, 1, 0, true, false, true⟩ (-9) frost ∧
        frost.life.amount = 1 ∧ frost.astral.amount = 0 ∧
        sleep ⟨12, 8, 14, 1, 0, true, false, true⟩ (-9) =
          sleep ⟨12, 8, 14, 1, 0, true, false, true⟩ (-6) ∧
        (∀ better, Wakes (Table.fresh (.replay #[1, 12, 5, 9]))
            ⟨13, 9, 14, 1, 2, true, false, false⟩ (-2) better →
          frost.life.amount ≤ better.life.amount ∧ frost.astral.amount ≤ better.astral.amount) ∧
        ∃ mastered, Wakes (Table.fresh (.replay #[1, 12, 5, 9]))
            ⟨12, 8, 14, 1, 0, true, true, false⟩ (-9) mastered ∧
          frost.life = mastered.life ∧
          ∀ warm, Wakes (Table.fresh (.replay #[1, 12, 5, 9]))
              ⟨12, 8, 14, 1, 0, true, true, false⟩ 2 warm →
            mastered.astral = warm.astral := by
  have hdice : (Table.fresh (.replay #[1, 12, 5, 9])).ShowsNext 4 := Table.showsNext_replay _
  obtain ⟨frost, hfrost, -, hclamp, hcompare⟩ :=
    nights_restore_in_order hdice ⟨12, 8, 14, 1, 0, true, false, true⟩ (-9)
  obtain ⟨mastered, hmastered, -, -, hmaster⟩ :=
    nights_restore_in_order hdice ⟨12, 8, 14, 1, 0, true, true, false⟩ (-9)
  have hamounts : ((sleep ⟨12, 8, 14, 1, 0, true, false, true⟩ (-9)).onTable
      (Table.fresh (.replay #[1, 12, 5, 9]))).1.map
        (fun night ↦ (night.life.amount, night.astral.amount)) = .ok (1, 0) := rfl
  rw [hfrost] at hamounts
  obtain ⟨hlife, hastral⟩ := Prod.mk.inj (Except.ok.inj hamounts)
  have hwakes : Wakes (Table.fresh (.replay #[1, 12, 5, 9]))
      ⟨12, 8, 14, 1, 0, true, true, false⟩ (-9) mastered := by
    rw [Wakes, hmastered]
  refine ⟨hdice, frost, by rw [Wakes, hfrost], hlife, hastral, hclamp (-6) (by decide),
    fun better hbetter ↦ ?_, mastered, hwakes, ?_, fun warm hwarm ↦ ?_⟩
  · obtain ⟨-, -, hsturdier, hgifted⟩ := hcompare _ _ better hbetter
    exact ⟨hsturdier ⟨by decide, by decide⟩ (by decide),
      hgifted ⟨rfl, rfl, by decide, by decide, by decide⟩ (by decide)⟩
  · exact (hcompare _ _ mastered hwakes).1 rfl rfl rfl
  · exact (hmaster _ _ warm hwarm).2.1 rfl rfl

end Aventuria.Regeneration
