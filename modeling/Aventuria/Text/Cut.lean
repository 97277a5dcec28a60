import Aventuria.Text.Rest

/-!
Cutting a text at separators. A separator is recognised from the text that starts with it and
leaves a proper rest; the text is cut at the first separator, at the first one after it, and so
on.
-/

set_option autoImplicit false
set_option relaxedAutoImplicit false

namespace Aventuria.Text

abbrev Separator := (text : List Char) → Option (Rest text)

/-- The separator for which a reader is known to leave less than it was given. -/
def Separator.ofReader (read? : List Char → Option (List Char))
    (shorter : ∀ text rest, read? text = some rest → rest.length < text.length) : Separator :=
  fun text ↦
    match h : read? text with
    | some rest => some ⟨rest, shorter text rest h⟩
    | none => none

/-- The part before the first separator, and the parts after it. -/
def cutFirst (separator : Separator) (text : List Char) : List Char × List (List Char) :=
  match separator text with
  | some ⟨rest, _⟩ =>
    let (part, parts) := cutFirst separator rest
    ([], part :: parts)
  | none =>
    match text with
    | [] => ([], [])
    | c :: rest =>
      let (part, parts) := cutFirst separator rest
      (c :: part, parts)
termination_by text.length

def cut (separator : Separator) (text : List Char) : List (List Char) :=
  let (part, parts) := cutFirst separator text
  part :: parts

/-- The text without its separators. -/
def erase (separator : Separator) (text : List Char) : List Char :=
  (cut separator text).flatten

end Aventuria.Text
