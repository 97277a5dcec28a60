/-!
White space. Texts are handled as lists of characters; the blank characters are those that
Unicode counts as white space, together with the four information separators. A text is trimmed
at both ends and cut into words at its blanks.
-/

set_option autoImplicit false
set_option relaxedAutoImplicit false

namespace Aventuria.Text

def isBlank (c : Char) : Bool :=
  let n := c.toNat
  (9 ≤ n && n ≤ 13) || (28 ≤ n && n ≤ 32) || n == 0x85 || n == 0xA0 || n == 0x1680 ||
    (0x2000 ≤ n && n ≤ 0x200A) || n == 0x2028 || n == 0x2029 || n == 0x202F || n == 0x205F ||
    n == 0x3000

def trimLeft (text : List Char) : List Char :=
  text.dropWhile isBlank

def trimRight : List Char → List Char
  | [] => []
  | c :: text =>
    match trimRight text with
    | [] => if isBlank c then [] else [c]
    | kept => c :: kept

def trim (text : List Char) : List Char :=
  trimRight (trimLeft text)

theorem length_dropWhile_le {α : Type} (p : α → Bool) (s : List α) :
    (s.dropWhile p).length ≤ s.length := by
  induction s with
  | nil => simp
  | cons c s ih =>
    rw [List.dropWhile_cons]
    split
    · exact Nat.le_succ_of_le ih
    · exact Nat.le_refl _

theorem length_trimLeft_le (text : List Char) : (trimLeft text).length ≤ text.length :=
  length_dropWhile_le isBlank text

theorem length_lt_of_trimLeft {text rest : List Char} {c : Char}
    (h : trimLeft text = c :: rest) : rest.length < text.length := by
  have := length_trimLeft_le text
  rw [h, List.length_cons] at this
  omega

theorem length_trimRight_le (text : List Char) : (trimRight text).length ≤ text.length := by
  induction text with
  | nil => simp [trimRight]
  | cons c text ih =>
    rw [trimRight]
    split
    · split <;> simp
    · simpa using ih

theorem length_trim_le (text : List Char) : (trim text).length ≤ text.length :=
  Nat.le_trans (length_trimRight_le _) (length_trimLeft_le _)

/-- The first character after the leading blanks is no blank. -/
theorem not_isBlank_of_trimLeft {text rest : List Char} {c : Char}
    (h : trimLeft text = c :: rest) : isBlank c = false := by
  induction text with
  | nil => simp [trimLeft] at h
  | cons d text ih =>
    rw [trimLeft, List.dropWhile_cons] at h
    split at h
    · exact ih h
    · next hd =>
      obtain ⟨rfl, rfl⟩ := List.cons.inj h
      simpa using hd

/-- The maximal runs of characters that are no blanks, in order. -/
def words : List Char → List (List Char)
  | [] => []
  | c :: text =>
    if isBlank c then words text
    else (c :: text.takeWhile (!isBlank ·)) :: words (text.dropWhile (!isBlank ·))
termination_by text => text.length
decreasing_by
  · simp
  · exact Nat.lt_succ_of_le (length_dropWhile_le _ _)

def startsWith (start text : List Char) : Bool :=
  start.isPrefixOf text

/-- Whether `part` occurs somewhere in a text. -/
def contains (part : List Char) : List Char → Bool
  | [] => part.isEmpty
  | c :: text => startsWith part (c :: text) || contains part text

end Aventuria.Text
