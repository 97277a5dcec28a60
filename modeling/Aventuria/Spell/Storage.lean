import Aventuria.Check
import Aventuria.Duration.Effect
import Aventuria.Spell.Cost
import Aventuria.Text.Lookup

/-!
Storing a spell. The check of the storing spell comes first and is harder the longer the spell is
to be stored. Only when it succeeds the stored spell is checked, and only when that succeeds too
its effect gets a date on which it ends.
-/

set_option autoImplicit false
set_option relaxedAutoImplicit false

namespace Aventuria.Spell

open Calendar (Moment)
open Dice (Throw)

inductive Storage where
  | day | moon | quarter | winterSolstice
  deriving DecidableEq, Repr

namespace Storage

def all : List Storage := [day, moon, quarter, winterSolstice]

def key : Storage → String
  | day => "DAY"
  | moon => "MOON"
  | quarter => "QUARTER"
  | winterSolstice => "WINTER_SOLSTICE"

def name : Storage → String
  | day => "Tag"
  | moon => "Mond"
  | quarter => "Quartal"
  | winterSolstice => "Wintersonnenwende"

def difficulty : Storage → Int
  | day => 0
  | moon => 3
  | quarter => 5
  | winterSolstice => 7

/-- The dice that decide what the storage costs. -/
def costSpec : Storage → Dice.Spec
  | day => .pair
  | moon => .sixSided 3 0 "3W6" (by decide) (by decide)
  | quarter => .sixSided 3 2 "3W6+2" (by decide) (by decide)
  | winterSolstice => .sixSided 4 0 "4W6" (by decide) (by decide)

def ofName (name : String) : Except Fault Storage :=
  match Text.lookupName? all (fun storage ↦ [storage.key, storage.name]) name with
  | some storage => .ok storage
  | none => .error (.unknownStorage name)

end Storage

/-- A storage cost: what is paid in the end, and the roll it comes from. -/
structure StorageCost where
  final : Int
  roll : Dice.Roll
  deriving DecidableEq, Repr

/-- The part of the rolled cost that is not saved, less the traits; the saving is rounded down. -/
def reducedCost (rolled savingPercent traits : Int) : Int :=
  max 0 (rolled - rolled * savingPercent / 100 - traits)

def validateSaving (savingPercent : Int) : Except Fault Unit :=
  if 0 ≤ savingPercent ∧ savingPercent ≤ 100 then .ok ()
  else .error (.savingOutOfRange savingPercent)

def storageCost (storage : Storage) (savingPercent traits : Int) : Throw StorageCost := do
  Throw.ofExcept (validateSaving savingPercent)
  Throw.ofExcept (validateTraits traits)
  let roll ← storage.costSpec.roll "storage cost"
  pure ⟨reducedCost roll.total savingPercent traits, roll⟩

/-- What storing a spell came to; the stored spell has no outcome when the storage failed. -/
structure Stored where
  storage : Check.Outcome
  spell : Option Check.Outcome
  expiry : Option Moment
  deriving DecidableEq, Repr

namespace Stored

def success (stored : Stored) : Bool :=
  stored.spell.any Check.Outcome.success

def describe (stored : Stored) : String :=
  let spell :=
    match stored.spell with
    | some spell => spell.describe Check.spellPoints
    | none => "nicht gewirkt"
  let lines :=
    ["Applicatus: " ++ stored.storage.describe Check.spellPoints, "Zauber: " ++ spell]
  let expiry := stored.expiry.toList.map ("Wirkt bis: " ++ ·.describe)
  "\n".intercalate (lines ++ expiry)

end Stored

/-- The spell to be stored, with the effect it is to have. -/
structure StoredSpell where
  rating : Int
  difficulty : Int
  attributes : List Int
  effect : Option String
  deriving DecidableEq, Repr

/-- The end of the effect of a successful spell, if the effect and the date are given. -/
def StoredSpell.effectEnd? (spell : StoredSpell) (outcome : Check.Outcome) (current : Moment) :
    Throw (Option Moment) :=
  match spell.effect with
  | none => pure none
  | some effect =>
    if outcome.success && effect ≠ "" && current ≠ .missing then
      Duration.effectExpiry? current effect outcome.extraPoints
    else pure none

/-- Makes the check of the storing spell, harder by the length of the storage, and then the check
of the spell to be stored. -/
def store (spell : StoredSpell) (rating difficulty cleverness dexterity : Int) (length : Storage)
    (current : Moment) : Throw Stored := do
  let attributes := [cleverness, dexterity, dexterity]
  let storage ← Check.resolve rating (difficulty + length.difficulty) attributes 0 none
  if storage.success then
    let outcome ← Check.resolve spell.rating spell.difficulty spell.attributes 0 none
    let expiry ← spell.effectEnd? outcome current
    pure ⟨storage, some outcome, expiry⟩
  else pure ⟨storage, none, none⟩

end Aventuria.Spell
