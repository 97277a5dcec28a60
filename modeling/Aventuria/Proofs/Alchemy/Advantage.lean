import Aventuria.Proofs.Alchemy.Brewing
import Aventuria.Proofs.Check.Advantage

/-!
# Better brews

A brewer with a better rating or better attributes, or one whose brew is less difficult, does not
come to less with the same dice: his check succeeds whenever the other one does, and with no fewer
extra points left over. A brewer who takes a higher handicap risks the check, for every point of it
lowers the budget by one; but it is worth two quality points, so where the check still succeeds he
gains at least one point by each (`judge_le_add_of_harder`). Both are parts of the main result,
`better_brews_are_graded_higher`.
-/

set_option autoImplicit false
set_option relaxedAutoImplicit false

namespace Aventuria

/-- The rolls of a check and the table after it are settled before it is made. -/
theorem Check.Rolls.unique {table left other : Dice.Table} {givenRolls : Option (List Int)}
    {rolls others : List Int} (h : Rolls table givenRolls rolls left)
    (h' : Rolls table givenRolls others other) : rolls = others ∧ left = other := by
  cases h with
  | given =>
    cases h' with
    | given => exact ⟨rfl, rfl⟩
  | thrown hshown =>
    cases h' with
    | thrown hshown' => exact ⟨Option.some.inj (hshown.symm.trans hshown'), rfl⟩

namespace Alchemy

open Dice (Throw Table)

/-! ### Higher qualities -/

namespace Quality

/-- The place of a quality that a brew may come to. M stands below the ladder, and no brew comes
to X. -/
def standing? (quality : Quality) : Option Int :=
  if quality = m then some (-1) else quality.tier?

/-- Both are qualities of brews, and the one stands no higher than the other. -/
def AtMost (lower higher : Quality) : Prop :=
  ∃ i j, lower.standing? = some i ∧ higher.standing? = some j ∧ i ≤ j

theorem standing?_ofPoints (points : Int) :
    (ofPoints points).standing? = some (max 0 (min 5 ((points - 1) / 6))) := by
  rw [standing?, if_neg (ofPoints_ne_m points), tier?_ofPoints]

theorem atMost_ofPoints {fewer more : Int} (h : fewer ≤ more) :
    (ofPoints fewer).AtMost (ofPoints more) :=
  ⟨_, _, standing?_ofPoints fewer, standing?_ofPoints more, by omega⟩

theorem m_atMost_ofPoints (points : Int) : m.AtMost (ofPoints points) :=
  ⟨_, _, rfl, standing?_ofPoints points, by omega⟩

theorem m_atMost_m : m.AtMost m :=
  ⟨_, _, rfl, rfl, Int.le_refl _⟩

end Quality

/-! ### Two brews that are finished with the same dice -/

section
variable {effort effort' : Effort} {checked checked' left left' : Table} {result better : Brew}

/-- What two successes differ by does not come from the dice. -/
theorem Finishes.qualityPoints_sub (h : Finishes effort checked result left)
    (h' : Finishes effort' checked' better left')
    (hdice : checked.shown? qualitySizes = checked'.shown? qualitySizes)
    (hsuccess : result.check.success = true) (hsuccess' : better.check.success = true) :
    better.qualityPoints - result.qualityPoints =
      (better.check.extraPoints + 2 * effort'.handicap + effort'.charging) -
        (result.check.extraPoints + 2 * effort.handicap + effort.charging) := by
  obtain ⟨first, second, hshown, -, -, hpoints, -⟩ := h.of_success hsuccess
  obtain ⟨first', second', hshown', -, -, hpoints', -⟩ := h'.of_success hsuccess'
  rw [hdice, hshown', Option.some.injEq, List.cons.injEq, List.cons.injEq] at hshown
  obtain ⟨rfl, rfl, -⟩ := hshown
  omega

/-- A success with no fewer points is of no lower quality, and a failure of the lowest. -/
theorem Finishes.atMost (h : Finishes effort checked result left)
    (h' : Finishes effort' checked' better left')
    (hsuccess : result.check.success = true →
      better.check.success = true ∧ result.qualityPoints ≤ better.qualityPoints) :
    result.quality.AtMost better.quality := by
  cases hresult : result.check.success with
  | true =>
    obtain ⟨hbetter, hpoints⟩ := hsuccess hresult
    obtain ⟨_, _, -, -, -, -, hquality⟩ := h.of_success hresult
    obtain ⟨_, _, -, -, -, -, hquality'⟩ := h'.of_success hbetter
    rw [hquality, hquality']
    exact Quality.atMost_ofPoints hpoints
  | false =>
    rw [(h.of_failure hresult).1]
    cases hbetter : better.check.success with
    | true =>
      obtain ⟨_, _, -, -, -, -, hquality'⟩ := h'.of_success hbetter
      rw [hquality']
      exact Quality.m_atMost_ofPoints _
    | false =>
      rw [(h'.of_failure hbetter).1]
      exact Quality.m_atMost_m

end

/-! ### Batches -/

/-- What a brew is made of. -/
structure Batch where
  rating : Int
  attributes : List Int
  recipe : Recipe
  effort : Effort
  givenRolls : Option (List Int)
  deriving DecidableEq, Repr

namespace Batch

def brew (batch : Batch) : Throw Brew :=
  Alchemy.brew batch.rating batch.attributes batch.recipe batch.effort batch.givenRolls

/-- All that makes the check harder. -/
def modifier (batch : Batch) : Int :=
  batch.recipe.modifier batch.effort.handicap

def withHandicap (batch : Batch) (handicap : Int) : Batch :=
  { batch with effort := { batch.effort with handicap } }

/-- A batch with the same handicap, mastery and charge as another one that is no easier in any other
respect. The astral points at hand may differ, and the modifiers may come about in any way. -/
structure Eases (easy hard : Batch) : Prop where
  handicap_eq : easy.effort.handicap = hard.effort.handicap
  mastery_eq : easy.effort.mastery = hard.effort.mastery
  charging_eq : easy.effort.charging = hard.effort.charging
  rating_le : hard.rating ≤ easy.rating
  attributes_le : List.Forall₂ (· ≤ ·) hard.attributes easy.attributes
  modifier_le : easy.modifier ≤ hard.modifier

/-- Two batches, each on its table, have the same dice: their checks have the same rolls, given or
thrown, and the dice that are thrown for the quality after them show the same. -/
def SameDice (batch : Batch) (table : Table) (other : Batch) (table' : Table) : Prop :=
  ∃ rolls checked checked', Check.Rolls table batch.givenRolls rolls checked ∧
    Check.Rolls table' other.givenRolls rolls checked' ∧
    checked.shown? qualitySizes = checked'.shown? qualitySizes

section
variable {batch other : Batch} {table table' left left' : Table} {result better : Brew}

/-- A batch that was brewed has the same dice as any other one on the same table, if the rolls of
both are given or those of both are thrown. -/
theorem sameDice_of_brew (hrun : batch.brew.onTable table = (.ok result, left))
    (hrolls : batch.givenRolls = other.givenRolls) : batch.SameDice table other table := by
  obtain ⟨-, -, checked, hchecked, -, -, -⟩ := finishes_of_brew hrun
  exact ⟨_, checked, checked, hchecked, hrolls ▸ hchecked, rfl⟩

/-- An accepted batch does not lose any of its mastery, so its check is judged by the sum. -/
theorem judged_of_brew (hrun : batch.brew.onTable table = (.ok result, left)) :
    result.check = Check.judge (batch.rating + 2 * batch.effort.mastery) batch.modifier
      batch.attributes result.check.rolls := by
  obtain ⟨hvalid, -, -, -, -, hjudge, -⟩ := finishes_of_brew hrun
  obtain ⟨-, -, -, ⟨hmastery, hhalf⟩, -, -⟩ := Effort.validate_eq_ok_iff.mp hvalid
  rw [← boostedRating_of_le_half hmastery hhalf]
  exact hjudge

/-- With the same dice, two accepted batches have the same rolls, and are finished with the same
quality dice. -/
theorem SameDice.finishes (hdice : batch.SameDice table other table')
    (hrun : batch.brew.onTable table = (.ok result, left))
    (hrun' : other.brew.onTable table' = (.ok better, left')) :
    result.check.rolls = better.check.rolls ∧
      ∃ checked checked', checked.shown? qualitySizes = checked'.shown? qualitySizes ∧
          Finishes batch.effort checked result left ∧
            Finishes other.effort checked' better left' := by
  obtain ⟨-, -, checked, hrolls, -, -, hfinishes⟩ := finishes_of_brew hrun
  obtain ⟨-, -, checked', hrolls', -, -, hfinishes'⟩ := finishes_of_brew hrun'
  obtain ⟨rolls, _, _, hsame, hsame', hshown⟩ := hdice
  obtain ⟨rfl, rfl⟩ := hsame.unique hrolls
  obtain ⟨hrolls_eq, rfl⟩ := hsame'.unique hrolls'
  exact ⟨hrolls_eq, _, _, hshown, hfinishes, hfinishes'⟩

/-- The check of an easier batch comes to no fewer points, and succeeds if the other one does. -/
theorem Eases.check_le (heases : other.Eases batch)
    (hrolls : result.check.rolls = better.check.rolls)
    (hrun : batch.brew.onTable table = (.ok result, left))
    (hrun' : other.brew.onTable table' = (.ok better, left')) :
    result.check.extraPoints ≤ better.check.extraPoints ∧
      (result.check.success = true → better.check.success = true) := by
  have hskill : batch.rating + 2 * batch.effort.mastery ≤
      other.rating + 2 * other.effort.mastery := by
    rw [heases.mastery_eq]
    exact Int.add_le_add_right heases.rating_le _
  rw [judged_of_brew hrun, judged_of_brew hrun', ← hrolls]
  exact Check.judge_mono result.check.rolls hskill heases.modifier_le heases.attributes_le

/-- A handicap makes the check harder by as many points as it has. -/
theorem modifier_withHandicap (batch : Batch) (handicap : Int) :
    (batch.withHandicap handicap).modifier =
      batch.modifier + (handicap - batch.effort.handicap) := by
  simp only [modifier, withHandicap, Recipe.modifier]
  omega

/-- A higher handicap takes no more from the extra points than what it adds to the modifier. -/
theorem extraPoints_le_of_handicap {handicap : Int} (hhandicap : batch.effort.handicap ≤ handicap)
    (hrolls : result.check.rolls = better.check.rolls)
    (hrun : batch.brew.onTable table = (.ok result, left))
    (hrun' : (batch.withHandicap handicap).brew.onTable table' = (.ok better, left')) :
    result.check.extraPoints ≤
      better.check.extraPoints + (handicap - batch.effort.handicap) := by
  rw [judged_of_brew hrun, judged_of_brew hrun', modifier_withHandicap, ← hrolls]
  exact Check.judge_le_add_of_harder _ _ _ _ (by omega)

end

/-- With the same dice, an accepted batch that is no harder in any respect succeeds whenever another
one does, and its quality is no lower. With a higher handicap and else the same, a batch that
succeeds nevertheless has more quality points, by at least as many as the handicap is higher, and is
of no lower quality. -/
theorem better_brews_are_graded_higher {batch : Batch} {table left : Table} {result : Brew}
    (hrun : batch.brew.onTable table = (.ok result, left)) :
    (∀ (easy : Batch) (table' left' : Table) (better : Brew), easy.Eases batch →
      batch.SameDice table easy table' → easy.brew.onTable table' = (.ok better, left') →
        (result.success = true → better.success = true) ∧
          result.quality.AtMost better.quality) ∧
    ∀ (handicap : Int) (table' left' : Table) (bolder : Brew), batch.effort.handicap ≤ handicap →
      batch.SameDice table (batch.withHandicap handicap) table' →
      (batch.withHandicap handicap).brew.onTable table' = (.ok bolder, left') →
      result.success = true → bolder.success = true →
        result.qualityPoints + (handicap - batch.effort.handicap) ≤ bolder.qualityPoints ∧
          result.quality.AtMost bolder.quality := by
  constructor
  · intro easy table' left' better heases hdice hrun'
    obtain ⟨hrolls, checked, checked', hshown, hfinishes, hfinishes'⟩ := hdice.finishes hrun hrun'
    obtain ⟨hextra, hsuccess⟩ := heases.check_le hrolls hrun hrun'
    refine ⟨hsuccess, hfinishes.atMost hfinishes' fun hresult ↦ ⟨hsuccess hresult, ?_⟩⟩
    have hpoints := hfinishes.qualityPoints_sub hfinishes' hshown hresult (hsuccess hresult)
    rw [heases.handicap_eq, heases.charging_eq] at hpoints
    omega
  · intro handicap table' left' bolder hhandicap hdice hrun' hresult hbolder
    obtain ⟨hrolls, checked, checked', hshown, hfinishes, hfinishes'⟩ := hdice.finishes hrun hrun'
    have hextra := extraPoints_le_of_handicap hhandicap hrolls hrun hrun'
    have hpoints : bolder.qualityPoints - result.qualityPoints =
        (bolder.check.extraPoints + 2 * handicap + batch.effort.charging) -
          (result.check.extraPoints + 2 * batch.effort.handicap + batch.effort.charging) :=
      hfinishes.qualityPoints_sub hfinishes' hshown hresult hbolder
    have hgain : result.qualityPoints + (handicap - batch.effort.handicap) ≤
        bolder.qualityPoints := by omega
    exact ⟨hgain, hfinishes.atMost hfinishes' fun _ ↦ ⟨hbolder, by omega⟩⟩

/-- A batch of quality D, an easier one, and a bolder one whose two points of handicap take all its
extra points and earn two quality points. -/
theorem better_brews_are_graded_higher_at_the_brink :
    ∃ result left,
      (Batch.mk 7 [14, 13, 12] ⟨5, [.sensible], -1⟩ ⟨2, 3, 1, some 4⟩ (some [16, 6, 7])).brew.onTable
          (Table.fresh .highest) = (.ok result, left) ∧
      result.success = true ∧ result.quality = .d ∧ result.qualityPoints = 19 ∧
      (∃ better left',
        (Batch.mk 8 [14, 14, 12] ⟨5, [], 0⟩ ⟨2, 3, 1, none⟩ (some [16, 6, 7])).brew.onTable
            (Table.fresh .highest) = (.ok better, left') ∧
          better.success = true ∧ result.quality.AtMost better.quality) ∧
      ∃ bolder left',
        ((Batch.mk 7 [14, 13, 12] ⟨5, [.sensible], -1⟩ ⟨2, 3, 1, some 4⟩
            (some [16, 6, 7])).withHandicap 4).brew.onTable (Table.fresh .highest) =
            (.ok bolder, left') ∧
          bolder.success = true ∧ bolder.check.extraPoints = 0 ∧ 21 ≤ bolder.qualityPoints ∧
          result.quality.AtMost bolder.quality := by
  have hmost : mostHandicap 5 = .ok 8 := mostHandicap_of_le (by decide)
  have hrun : ∃ result left, (Batch.mk 7 [14, 13, 12] ⟨5, [.sensible], -1⟩ ⟨2, 3, 1, some 4⟩
      (some [16, 6, 7])).brew.onTable (Table.fresh .highest) = (.ok result, left) ∧
        result.success = true ∧ result.quality = .d ∧ result.qualityPoints = 19 := by
    have hvalid : Effort.validate ⟨2, 3, 1, some 4⟩ 7 5 = .ok () :=
      Effort.validate_eq_ok_iff.mpr ⟨8, hmost, by decide, by decide, by decide, by decide⟩
    exact ⟨_, _, Eq.trans (onTable_brew_of_ok hvalid) rfl, rfl, rfl, rfl⟩
  have heasy : ∃ better left, (Batch.mk 8 [14, 14, 12] ⟨5, [], 0⟩ ⟨2, 3, 1, none⟩
      (some [16, 6, 7])).brew.onTable (Table.fresh .highest) = (.ok better, left) := by
    have hvalid : Effort.validate ⟨2, 3, 1, none⟩ 8 5 = .ok () :=
      Effort.validate_eq_ok_iff.mpr ⟨8, hmost, by decide, by decide, by decide, by decide⟩
    exact ⟨_, _, Eq.trans (onTable_brew_of_ok hvalid) rfl⟩
  have hbold : ∃ bolder left, ((Batch.mk 7 [14, 13, 12] ⟨5, [.sensible], -1⟩ ⟨2, 3, 1, some 4⟩
      (some [16, 6, 7])).withHandicap 4).brew.onTable (Table.fresh .highest) =
        (.ok bolder, left) ∧ bolder.success = true ∧ bolder.check.extraPoints = 0 := by
    have hvalid : Effort.validate ⟨4, 3, 1, some 4⟩ 7 5 = .ok () :=
      Effort.validate_eq_ok_iff.mpr ⟨8, hmost, by decide, by decide, by decide, by decide⟩
    exact ⟨_, _, Eq.trans (onTable_brew_of_ok hvalid) rfl, rfl, rfl⟩
  obtain ⟨result, left, hrun, hsuccess, hquality, hpoints⟩ := hrun
  obtain ⟨better, left', hrun'⟩ := heasy
  obtain ⟨bolder, left'', hrun'', hsuccess'', hextra⟩ := hbold
  obtain ⟨heases, hhandicap⟩ := better_brews_are_graded_higher hrun
  have heased : Eases ⟨8, [14, 14, 12], ⟨5, [], 0⟩, ⟨2, 3, 1, none⟩, some [16, 6, 7]⟩
      ⟨7, [14, 13, 12], ⟨5, [.sensible], -1⟩, ⟨2, 3, 1, some 4⟩, some [16, 6, 7]⟩ :=
    ⟨rfl, rfl, rfl, by decide, by decide, by decide⟩
  obtain ⟨hbetter, hatMost⟩ := heases _ _ _ _ heased (sameDice_of_brew hrun rfl) hrun'
  obtain ⟨hgain, hatMost'⟩ := hhandicap 4 _ _ _ (by decide) (sameDice_of_brew hrun rfl) hrun''
    hsuccess hsuccess''
  rw [hpoints] at hgain
  exact ⟨result, left, hrun, hsuccess, hquality, hpoints,
    ⟨better, left', hrun', hbetter hsuccess, hatMost⟩,
    bolder, left'', hrun'', hsuccess'', hextra, hgain, hatMost'⟩

end Batch

end Alchemy

end Aventuria
