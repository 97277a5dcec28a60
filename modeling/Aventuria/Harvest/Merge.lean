import Aventuria.Harvest.Item

/-!
Merging the portions of a harvest into one item per product. Quantities add up; the quantities
of the parts are kept as the single rolls of the whole. Dice that have not been thrown cannot be
added and are left out.
-/

set_option autoImplicit false
set_option relaxedAutoImplicit false

namespace Aventuria.Harvest

/-- An item with a number for its quantity. -/
def counted? (item : Item) : Option (Item × Int) :=
  item.quantity.number?.map (item, ·)

/-- The products that occur, each once, in the order of their first occurrence. -/
def products (items : List (Item × Int)) : List String :=
  (items.map (·.1.product)).foldl
    (fun found product ↦ if found.contains product then found else found ++ [product]) []

/-- The sum of the items of one product. The condition is the one of the first of them. -/
def total (product : String) (items : List (Item × Int)) : Item :=
  let own := items.filter (·.1.product = product)
  let quantities := own.map (·.2)
  { product
    quantity := .fixed (sum quantities)
    threshold := own.head?.bind (·.1.threshold)
    rolled := own.any (·.1.rolled)
    diceLabel := (own.filterMap (·.1.diceLabel)).find? (· ≠ "")
    individualRolls := quantities }

def merge (portions : List (List Item)) : List Item :=
  let items := portions.flatten.filterMap counted?
  (products items).map (total · items)

end Aventuria.Harvest
