import Aventuria.Formula.Reader

/-!
A cache of formulas read before, texts that are no formula included. It keeps the texts that were
asked for last, the most recent first, and never more than its capacity.
-/

set_option autoImplicit false
set_option relaxedAutoImplicit false

namespace Aventuria.Formula

structure Cache where
  entries : List (Option String × Option Formula)

namespace Cache

def capacity : Nat := 256

def empty : Cache := ⟨[]⟩

def size (cache : Cache) : Nat :=
  cache.entries.length

def find? (cache : Cache) (text : Option String) : Option (Option Formula) :=
  cache.entries.lookup text

def contains (cache : Cache) (text : Option String) : Bool :=
  (cache.find? text).isSome

/-- Puts an entry in front; the entry it replaces, or the oldest one beyond the capacity, goes. -/
def insert (cache : Cache) (text : Option String) (formula : Option Formula) : Cache :=
  ⟨((text, formula) :: cache.entries.filter (fun entry ↦ entry.1 ≠ text)).take capacity⟩

/-- The formula of a text, read only if the cache does not hold it. A fault is not kept. -/
def compile (cache : Cache) (text : Option String) : Except Fault (Option Formula) × Cache :=
  match cache.find? text with
  | some formula => (.ok formula, cache.insert text formula)
  | none =>
    match Formula.compile text with
    | .ok formula => (.ok formula, cache.insert text formula)
    | .error fault => (.error fault, cache)

def evaluate (cache : Cache) (text : Option String) (points : Int) :
    Except Fault (Option Int) × Cache :=
  match cache.compile text with
  | (.ok (some formula), cache) => (formula.definedValue points, cache)
  | (.ok none, cache) => (.ok none, cache)
  | (.error fault, cache) => (.error fault, cache)

end Cache

end Aventuria.Formula
