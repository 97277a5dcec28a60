/-!
What a reader leaves of its input. A reader that returns a proper rest comes to an end.
-/

set_option autoImplicit false
set_option relaxedAutoImplicit false

namespace Aventuria.Text

/-- What is left of a list after at least one of its members was read. -/
abbrev Rest {α : Type} (input : List α) := { rest : List α // rest.length < input.length }

/-- What is left of a list of which nothing need have been read. -/
abbrev Remainder {α : Type} (input : List α) := { rest : List α // rest.length ≤ input.length }

end Aventuria.Text
