/-!
Sums of integers: points, dice and quantities are added up from lists.
-/

set_option autoImplicit false
set_option relaxedAutoImplicit false

namespace Aventuria

/-- The sum of a list of integers. Its zero is named here, since which one is found for integers
depends on what is imported. -/
abbrev sum (ns : List Int) : Int :=
  @List.sum Int _ ⟨0⟩ ns

end Aventuria
