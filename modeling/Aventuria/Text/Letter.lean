/-!
Letters without regard to case. Two comparisons are needed. Names are looked up by their small
letters; a fixed word inside a pattern is matched letter by letter, where the long s and the two
Turkish forms of i also stand for the plain letter. A text can therefore match a pattern and yet
be no name.
-/

set_option autoImplicit false
set_option relaxedAutoImplicit false

namespace Aventuria.Text

/-- The small letter of a capital of the German alphabet and of the Kelvin sign. Every other
character stays as it is: none of them has a small form in that alphabet alone. -/
def lower (c : Char) : Char :=
  if 'A' ≤ c ∧ c ≤ 'Z' then Char.ofNat (c.toNat + 32)
  else if c = 'Ä' then 'ä'
  else if c = 'Ö' then 'ö'
  else if c = 'Ü' then 'ü'
  else if c = 'ẞ' then 'ß'
  else if c = '\u212A' then 'k'
  else c

def lowerAll (text : List Char) : List Char :=
  text.map lower

/-- The small letter that a character stands for inside a pattern. -/
def patternLetter (c : Char) : Char :=
  if c = 'ſ' then 's'
  else if c = 'ı' ∨ c = 'İ' then 'i'
  else lower c

/-- A character that stands for one of the letters a to z inside a pattern. -/
def isLatin (c : Char) : Bool :=
  'a' ≤ patternLetter c && patternLetter c ≤ 'z'

/-- The rest of a text after the given small letters, whatever their case in the text. -/
def afterWord? : List Char → List Char → Option (List Char)
  | [], text => some text
  | _ :: _, [] => none
  | w :: word, c :: text => if patternLetter c = w then afterWord? word text else none

theorem length_of_afterWord? {word text rest : List Char} (h : afterWord? word text = some rest) :
    text.length = word.length + rest.length := by
  induction word generalizing text with
  | nil => simp [afterWord?] at h; simp [h]
  | cons w word ih =>
    cases text with
    | nil => simp [afterWord?] at h
    | cons c text =>
      simp only [afterWord?] at h
      split at h
      · simp [ih h]; omega
      · simp at h

end Aventuria.Text
