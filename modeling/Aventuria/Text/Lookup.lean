import Aventuria.Text.Blank
import Aventuria.Text.Letter

/-!
Looking up a member of a list by one of its names, capital and small letters alike.
-/

set_option autoImplicit false
set_option relaxedAutoImplicit false

namespace Aventuria.Text

/-- The first member one of whose names is the given text without the blanks around it. -/
def lookupName? {α : Type} (members : List α) (names : α → List String) (text : String) :
    Option α :=
  let wanted := lowerAll (trim text.toList)
  members.find? fun member ↦ (names member).any fun name ↦ lowerAll name.toList == wanted

end Aventuria.Text
