import Aventuria.Harvest.Item
import Aventuria.Harvest.NumberWord
import Aventuria.Text.Cut

/-!
Harvest descriptions. A description such as "2W6 Kolben; IF TaP*>=7: W3 Stängel" is cut into
segments at semicolons, or at the word "und" where it has no semicolon; parts in parentheses are
left out. Every segment describes one item: a quantity and a product, perhaps behind a condition,
behind the word "mit", or in front of a comma with some narration.
-/

set_option autoImplicit false
set_option relaxedAutoImplicit false

namespace Aventuria.Harvest

open Dice (Throw)

/-- What follows a part in parentheses and the blanks before it. The first closing parenthesis
ends the part. -/
def afterAside? (text : List Char) : Option (List Char) :=
  match Text.trimLeft text with
  | '(' :: rest =>
    match rest.dropWhile (· ≠ ')') with
    | _ :: rest => some rest
    | [] => none
  | _ => none

theorem length_of_afterAside? (text rest : List Char) (h : afterAside? text = some rest) :
    rest.length < text.length := by
  rw [afterAside?] at h
  split at h
  · next inner hopen =>
    have := Text.length_lt_of_trimLeft hopen
    have size := Text.length_dropWhile_le (· ≠ ')') inner
    split at h
    · next c tail hclose =>
      rw [hclose, List.length_cons] at size
      rw [← Option.some.inj h]
      omega
    · simp at h
  · simp at h

def aside : Text.Separator :=
  Text.Separator.ofReader afterAside? length_of_afterAside?

def afterSemicolon? : List Char → Option (List Char)
  | ';' :: rest => some rest
  | _ => none

theorem length_of_afterSemicolon? (text rest : List Char) (h : afterSemicolon? text = some rest) :
    rest.length < text.length := by
  rw [afterSemicolon?.eq_def] at h
  split at h <;> simp_all

def semicolon : Text.Separator :=
  Text.Separator.ofReader afterSemicolon? length_of_afterSemicolon?

/-- What follows a word with blanks on both sides. -/
def afterBlankWord? (word text : List Char) : Option (List Char) := do
  let rest ← afterBlanks? text
  if Text.startsWith word rest then afterBlanks? (rest.drop word.length) else none

theorem length_of_afterBlankWord? {word text rest : List Char}
    (h : afterBlankWord? word text = some rest) : rest.length < text.length := by
  simp only [afterBlankWord?, Option.bind_eq_bind, Option.bind_eq_some_iff] at h
  obtain ⟨inner, h₁, h₂⟩ := h
  split at h₂
  · have l₁ := length_of_afterBlanks? h₁
    have l₂ := length_of_afterBlanks? h₂
    rw [List.length_drop] at l₂
    omega
  · simp at h₂

def connective : Text.Separator :=
  Text.Separator.ofReader (afterBlankWord? "und".toList) fun _ _ ↦ length_of_afterBlankWord?

def segments (text : List Char) : List (List Char) :=
  let cleaned := Text.trim (Text.erase aside text)
  let separator := if cleaned.contains ';' then semicolon else connective
  ((Text.cut separator cleaned).map Text.trim).filter (!·.isEmpty)

/-- What follows the last "mit" of a text, both parts on one line each. -/
def afterLastWith? : List Char → Option (List Char)
  | [] => none
  | c :: text =>
    let later := if c = '\n' then none else afterLastWith? text
    later.or <| (afterBlankWord? "mit".toList (c :: text)).filter fun body ↦
      !body.isEmpty && !body.contains '\n'

/-- The part of a segment that describes the item, without narration. -/
def core (segment : List Char) : List Char :=
  Text.trim (((afterLastWith? segment).getD segment).takeWhile (· ≠ ','))

/-- The first word of a text and the rest of the line that follows it. -/
def headAndProduct? (text : List Char) : Option (List Char × List Char) := do
  let product ← afterBlanks? (text.dropWhile (!Text.isBlank ·))
  if product.isEmpty || product.contains '\n' then none
  else some (text.takeWhile (!Text.isBlank ·), product)

/-- The item of some dice in front of a product. The dice are thrown at once or not at all. -/
def diceItem (rolling : Bool) (product : String) (spec : Dice.Spec) : Throw Item :=
  if rolling then do
    let roll ← spec.roll ("Harvest: " ++ product)
    pure (Item.thrown product spec roll)
  else pure (Item.plain product (.dice spec))

/-- A product without a quantity counts once, and whatever is said about sap is one portion of
sap. -/
def singleItem (text : List Char) : Item :=
  if Text.startsWith "saft".toList (Text.lowerAll text) then Item.plain "Saft" (.fixed 1)
  else Item.plain (String.ofList text) (.fixed 1)

/-- The item that a segment without conditions describes. -/
def describedItem (rolling : Bool) (text : List Char) : Throw Item :=
  match headAndProduct? text with
  | some (head, product) =>
    match Dice.Spec.ofChars? head with
    | some spec => diceItem rolling (String.ofList product) spec
    | none =>
      if isQuantity head then do
        let n ← Throw.ofExcept (numberOfWord head)
        pure (Item.plain (String.ofList product) (.fixed n))
      else pure (singleItem text)
  | none => pure (singleItem text)

/-- The item of a segment, unless a condition is not met. The outermost condition is the one
that the item keeps. -/
def readSegment (rolling : Bool) (points : Option Int) (segment : List Char) :
    Throw (Option Item) :=
  let trimmed := Text.trim segment
  if trimmed.isEmpty then pure none
  else
    match h : Condition.read? trimmed with
    | some (condition, body) => do
      have : body.length < segment.length :=
        Nat.lt_of_lt_of_le (Condition.length_of_read? h) (Text.length_trim_le segment)
      let threshold ← Throw.ofExcept condition.threshold
      if threshold.isOpen points then do
        let inner ← readSegment rolling points body
        pure (inner.map fun item ↦ { item with threshold := some threshold })
      else pure none
    | none => do
      let item ← describedItem rolling (core trimmed)
      pure (some item)
termination_by segment.length

def readSegments (rolling : Bool) (points : Option Int) : List (List Char) → Throw (List Item)
  | [] => pure []
  | segment :: rest => do
    let item ← readSegment rolling points segment
    let items ← readSegments rolling points rest
    pure (item.toList ++ items)

/-- The items of a description in the order of its segments, as far as their conditions are met.
Their dice are thrown if so wanted. -/
def read (rolling : Bool) (points : Option Int) (text : String) : Throw (List Item) :=
  if (Text.trim text.toList).isEmpty then pure []
  else readSegments rolling points (segments text.toList)

/-- The items of a description with all their dice thrown. -/
def gather (points : Option Int) (text : String) : Throw (List Item) :=
  read true points text

end Aventuria.Harvest
