import Aventuria.Fault
import Aventuria.Text.Decimal
import Aventuria.Text.Letter

/-!
Number words: the German words for one to twelve, and the word for one in all its cases. A word
is looked up by its small letters; a run of digits is its own number, and every other word
counts as one.
-/

set_option autoImplicit false
set_option relaxedAutoImplicit false

namespace Aventuria.Harvest

def numberWords : List (String × Nat) :=
  [("ein", 1), ("eine", 1), ("einer", 1), ("einem", 1), ("einen", 1), ("zwei", 2), ("drei", 3),
    ("vier", 4), ("fünf", 5), ("sechs", 6), ("sieben", 7), ("acht", 8), ("neun", 9),
    ("zehn", 10), ("elf", 11), ("zwölf", 12)]

def numberWord? (word : List Char) : Option Nat :=
  numberWords.lookup (String.ofList (Text.lowerAll word))

/-- The number that a word stands for. Digits that are not decimal are a fault. -/
def numberOfWord (word : List Char) : Except Fault Nat :=
  match numberWord? word with
  | some n => .ok n
  | none =>
    if Text.allDigits word then numberOfDigits word else .ok 1

/-- The words that may stand in front of a product. -/
def quantityWords : List String :=
  ["ein", "eine", "zwei", "drei", "vier", "fünf", "sechs", "sieben", "acht", "neun", "zehn",
    "elf", "zwölf"]

/-- Whether a word may stand in front of a product as its quantity: decimal digits or a quantity
word. A word that only resembles one of them still counts. -/
def isQuantity (word : List Char) : Bool :=
  (!word.isEmpty && word.all Text.isDecimal) ||
    quantityWords.contains (String.ofList (word.map Text.patternLetter))

end Aventuria.Harvest
