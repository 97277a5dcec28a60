import Aventuria.Fault

/-!
Entries of a command line. An argument that consists of a divider only enters nothing: it is
given and yet empty. An empty entry does no harm as long as nothing is done with it.
-/

set_option autoImplicit false
set_option relaxedAutoImplicit false

namespace Aventuria.CommandLine

inductive Entry (α : Type) where
  | value (a : α)
  | empty
  deriving DecidableEq, Repr

namespace Entry

variable {α : Type}

def ofList : List α → Entry α
  | [] => empty
  | a :: _ => value a

def toOption : Entry α → Option α
  | value a => some a
  | empty => none

/-- The value that was entered; the fault says what cannot be done without it. -/
def require (fault : Fault) : Entry α → Except Fault α
  | value a => .ok a
  | empty => .error fault

/-- The entry as a report shows it. -/
def describe [ToString α] : Entry α → String
  | value a => toString a
  | empty => "[]"

def sort : Entry Int → ValueSort
  | value _ => .number
  | empty => .empty

end Entry

end Aventuria.CommandLine
