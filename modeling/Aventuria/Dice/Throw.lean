import Aventuria.Fault

/-!
Throwing dice. The values come from a source that knows, for the n-th die thrown and for every die
size, which value the die shows; a source can run out. The table remembers every die size that was
asked for. A procedure that throws dice may fail half way: the dice thrown until then stay thrown.
-/

set_option autoImplicit false
set_option relaxedAutoImplicit false

namespace Aventuria.Dice

structure Source where
  value? : Nat → Int → Option Int

namespace Source

/-- The given values in turn, whatever the die size. -/
def replay (values : Array Int) : Source :=
  ⟨fun n _ ↦ values[n]?⟩

def constant (value : Int) : Source :=
  ⟨fun _ _ ↦ some value⟩

/-- Every die shows its highest face. -/
def highest : Source :=
  ⟨fun _ sides ↦ some sides⟩

/-- Scatters a number over all 64-bit words. -/
def scatter (word : UInt64) : UInt64 :=
  let a := (word ^^^ (word >>> 30)) * 0xBF58476D1CE4E5B9
  let b := (a ^^^ (a >>> 27)) * 0x94D049BB133111EB
  b ^^^ (b >>> 31)

/-- The n-th word of the sequence that belongs to a seed. -/
def word (seed : Int) (n : Nat) : UInt64 :=
  scatter (scatter (UInt64.ofInt seed) + UInt64.ofNat (n + 1) * 0x9E3779B97F4A7C15)

/-- A fixed sequence of scattered values for every seed. -/
def seeded (seed : Int) : Source :=
  ⟨fun n sides ↦ some (1 + ((word seed n).toNat : Int) % max 1 sides)⟩

/-- Every die of a proper size shows one of its faces. -/
def InRange (source : Source) : Prop :=
  ∀ n sides value, 1 ≤ sides → source.value? n sides = some value → 1 ≤ value ∧ value ≤ sides

theorem inRange_highest : highest.InRange := by
  intro n sides value hs h
  simp only [highest, Option.some.injEq] at h
  omega

end Source

/-- A source of values and the die sizes asked for so far. -/
structure Table where
  source : Source
  asked : Array Int

namespace Table

def fresh (source : Source) : Table :=
  ⟨source, #[]⟩

def ask (table : Table) (sides : Int) : Table :=
  { table with asked := table.asked.push sides }

end Table

/-- A procedure that may throw dice and may fail. -/
abbrev Throw := ExceptT Fault (StateM Table)

namespace Throw

def die (sides : Int) : Throw Int := do
  let table ← get
  set (table.ask sides)
  match table.source.value? table.asked.size sides with
  | some value => pure value
  | none => throw .diceExhausted

/-- Throws dice of one size, one after the other. -/
def dice (sides : Int) : Nat → Throw (List Int)
  | 0 => pure []
  | count + 1 => do
    let value ← die sides
    let values ← dice sides count
    pure (value :: values)

/-- Continues with the outcome of a pure procedure. -/
def ofExcept {α : Type} : Except Fault α → Throw α
  | .ok a => pure a
  | .error fault => throw fault

/-- The outcome of a procedure on a table, and the table it leaves. -/
def onTable {α : Type} (procedure : Throw α) (table : Table) : Except Fault α × Table :=
  procedure.run.run table

section
variable {α β : Type} (table : Table)

@[simp] theorem onTable_pure (a : α) : (pure a : Throw α).onTable table = (.ok a, table) := rfl

@[simp] theorem onTable_ofExcept (outcome : Except Fault α) :
    (ofExcept outcome).onTable table = (outcome, table) := by
  cases outcome <;> rfl

/-- A procedure goes on where the one before it left the table, unless that one failed. -/
theorem onTable_bind (first : Throw α) (next : α → Throw β) :
    (first >>= next).onTable table =
      match first.onTable table with
      | (.ok a, left) => (next a).onTable left
      | (.error fault, left) => (.error fault, left) := by
  show (match first.run.run table with
      | (outcome, left) => ExceptT.bindCont next outcome left) = _
  simp only [onTable]
  rcases first.run.run table with ⟨outcome, left⟩
  cases outcome <;> rfl

/-- A fault is handled on the table that the procedure left. -/
theorem onTable_tryCatch (procedure : Throw α) (handle : Fault → Throw α) :
    (tryCatch procedure handle).onTable table =
      match procedure.onTable table with
      | (.ok a, left) => (.ok a, left)
      | (.error fault, left) => (handle fault).onTable left := by
  rw [onTable, onTable, ExceptT.run_tryCatch, StateT.run_bind]
  show StateT.run _ (procedure.run.run table).2 = _
  rcases procedure.run.run table with ⟨outcome, left⟩
  cases outcome <;> rfl

theorem onTable_map (procedure : Throw α) (f : α → β) :
    (f <$> procedure).onTable table =
      ((procedure.onTable table).1.map f, (procedure.onTable table).2) := by
  rw [map_eq_pure_bind, onTable_bind]
  rcases procedure.onTable table with ⟨outcome, left⟩
  cases outcome <;> rfl

/-- One die: its size is noted down even when the source has run out. -/
theorem onTable_die (sides : Int) :
    (die sides).onTable table =
      match table.source.value? table.asked.size sides with
      | some value => (.ok value, table.ask sides)
      | none => (.error .diceExhausted, table.ask sides) := by
  have read : (get : Throw Table).onTable table = (.ok table, table) := rfl
  have note : (set (table.ask sides) : Throw PUnit).onTable table =
      (.ok ⟨⟩, table.ask sides) := rfl
  simp only [die, onTable_bind, read, note]
  cases table.source.value? table.asked.size sides <;> rfl

end

end Throw

end Aventuria.Dice
