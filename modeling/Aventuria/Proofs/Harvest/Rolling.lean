import Aventuria.Proofs.Dice.Asking
import Aventuria.Proofs.Harvest.Reading

/-!
# Rolled harvests

Rolling a harvest changes the quantities of its items and nothing else about their list. The dice
are thrown item by item, so the values that the table shows are dealt out in the order of the items
(`Rolled`), and parts whose condition is not met ask for no die. The main result is
`gather_rolls_read`.
-/

set_option autoImplicit false
set_option relaxedAutoImplicit false

namespace Aventuria.Harvest

open Dice (Throw)

/-- The sizes of the dice that an item asks for. -/
def Item.sizes (item : Item) : List Int :=
  match item.quantity with
  | .fixed _ => []
  | .dice spec => spec.sizes

def sizesOf (items : List Item) : List Int :=
  items.flatMap Item.sizes

theorem sizesOf_cons (item : Item) (items : List Item) :
    sizesOf (item :: items) = item.sizes ++ sizesOf items :=
  List.flatMap_cons

/-- An item after the dice of its quantity have shown some values. -/
def Item.showing (item : Item) (spec : Dice.Spec) (values : List Int) : Item :=
  { item with
    quantity := .fixed (sum values + spec.modifier)
    rolled := true
    diceLabel := some spec.label
    individualRolls := if 1 < spec.count then values else [] }

/-- The items of a harvest, the values that its dice show in turn, and the items that these values
make. Every item takes as many values as it has dice. -/
inductive Rolled : List Item → List Int → List Item → Prop
  | nil : Rolled [] [] []
  | fixed {item : Item} {n : Int} {items rolled : List Item} {values : List Int}
      (hquantity : item.quantity = .fixed n) (hrest : Rolled items values rolled) :
      Rolled (item :: items) values (item :: rolled)
  | dice {item : Item} {spec : Dice.Spec} {items rolled : List Item} {shown values : List Int}
      (hquantity : item.quantity = .dice spec) (hshown : shown.length = spec.count)
      (hrest : Rolled items values rolled) :
      Rolled (item :: items) (shown ++ values) (item.showing spec shown :: rolled)

/-- Rolling keeps the number of items, their products and their conditions. -/
theorem Rolled.map_eq {items rolled : List Item} {values : List Int}
    (h : Rolled items values rolled) :
    (rolled.map fun item ↦ (item.product, item.threshold)) =
      items.map fun item ↦ (item.product, item.threshold) := by
  induction h with
  | nil => rfl
  | fixed _ _ ih => rw [List.map_cons, List.map_cons, ih]
  | dice _ _ _ ih => rw [List.map_cons, List.map_cons, ih]; rfl

theorem Rolled.not_isDice {items rolled : List Item} {values : List Int}
    (h : Rolled items values rolled) : ∀ item ∈ rolled, item.quantity.isDice = false := by
  induction h with
  | nil => exact fun _ hitem ↦ absurd hitem List.not_mem_nil
  | fixed hquantity _ ih => exact List.forall_mem_cons.mpr ⟨by rw [hquantity]; rfl, ih⟩
  | dice _ _ _ ih => exact List.forall_mem_cons.mpr ⟨rfl, ih⟩

/-- One item: it asks for its own dice and takes what they show. -/
theorem Item.asks_roll (item : Item) :
    Throw.Asks item.roll item.sizes fun shown settled ↦
      ∀ items values rolled, Rolled items values rolled →
        Rolled (item :: items) (shown ++ values) (settled :: rolled) := by
  unfold sizes roll
  cases hquantity : item.quantity with
  | fixed n =>
    refine (Throw.asks_pure item).mono ?_
    rintro shown settled ⟨rfl, rfl⟩ items values rolled hrest
    exact .fixed hquantity hrest
  | dice spec =>
    refine ((spec.asks_roll ("Harvest: " ++ item.product)).with_length.bind_pure fun roll ↦
      { Item.thrown item.product spec roll with threshold := item.threshold }).mono ?_
    rintro shown settled ⟨roll, ⟨hlength, rfl⟩, rfl⟩ items values rolled hrest
    rw [Dice.Spec.sizes, List.length_replicate] at hlength
    exact .dice hquantity hlength hrest

/-- All items: their dice are asked for and no others. -/
theorem asks_settleAll (items : List Item) :
    Throw.Asks (settleAll true items) (sizesOf items) (Rolled items) := by
  induction items with
  | nil =>
    refine (Throw.asks_pure ([] : List Item)).mono ?_
    rintro values rolled ⟨rfl, rfl⟩
    exact .nil
  | cons item items ih =>
    have hcons : settleAll true (item :: items) =
        item.roll >>= fun first ↦ settleAll true items >>= fun rest ↦ pure (first :: rest) :=
      List.mapM_cons
    rw [hcons, sizesOf_cons]
    refine (item.asks_roll.bind fun first ↦ ih.bind_pure (first :: ·)).mono ?_
    rintro values rolled ⟨shown, rest, settled, rfl, hsettled, others, hothers, rfl⟩
    exact hsettled _ _ _ hothers

theorem onTable_settleAll {items : List Item} {table : Dice.Table} {values : List Int}
    (h : table.shown? (sizesOf items) = some values) :
    ∃ rolled, (settleAll true items).onTable table = (.ok rolled, table.askAll (sizesOf items)) ∧
      Rolled items values rolled :=
  (asks_settleAll items).shown table values h

/-- A reading comes to an end on any table whose dice do not run out. -/
theorem exists_onTable_read (rolling : Bool) (points : Option Int) (text : String)
    {table : Dice.Table} (hendless : table.source.Endless) :
    ∃ items left, (read rolling points text).onTable table = (.ok items, left) := by
  obtain ⟨entries, -, hread⟩ := exists_lists_read text
  rw [hread]
  cases rolling with
  | true =>
    obtain ⟨items, left, hrun, -⟩ := (asks_settleAll _).onTable_of_endless hendless
    exact ⟨items, left, hrun⟩
  | false => exact ⟨_, table, by rw [settleAll_false, Throw.onTable_pure]⟩

/-- A harvest that was gathered has no dice left in it. -/
theorem not_isDice_of_gather {text : String} {points : Option Int} {table left : Dice.Table}
    {items : List Item} (h : (gather points text).onTable table = (.ok items, left)) :
    ∀ item ∈ items, item.quantity.isDice = false := by
  obtain ⟨entries, -, hread⟩ := exists_lists_read text
  rw [gather, hread] at h
  obtain ⟨values, -, -, hrolled⟩ := (asks_settleAll (kept points entries)).of_onTable h
  exact hrolled.not_isDice

/-- A reading without dice finds its items and leaves the table alone. Rolling the same description
finds the same items, deals the values of the table out to them in their order, and asks for
their dice only. -/
theorem gather_rolls_read (text : String) (points : Option Int) :
    ∃ items, (∀ table, (read false points text).onTable table = (.ok items, table)) ∧
      ∀ table values, table.shown? (sizesOf items) = some values →
        ∃ rolled,
          (gather points text).onTable table = (.ok rolled, table.askAll (sizesOf items)) ∧
          Rolled items values rolled ∧
          (rolled.map fun item ↦ (item.product, item.threshold)) =
            items.map fun item ↦ (item.product, item.threshold) := by
  obtain ⟨entries, -, hread⟩ := exists_lists_read text
  refine ⟨kept points entries, fun table ↦ ?_, fun table values hshown ↦ ?_⟩
  · rw [hread, settleAll_false, Throw.onTable_pure]
  · obtain ⟨rolled, hrun, hrolled⟩ := onTable_settleAll hshown
    refine ⟨rolled, ?_, hrolled, hrolled.map_eq⟩
    rw [gather, hread, hrun]

/-- Two dice and a number, with a condition between them that is not met: the third value is left
for others. -/
theorem gather_rolls_read_around_condition :
    ∃ items rolled,
      (read false (some 5) "2W6+1 Beeren; IF TaP*>=7: W6 Knospen; 3 Wurzeln").onTable
          (.fresh (.replay #[4, 2, 6])) = (.ok items, .fresh (.replay #[4, 2, 6])) ∧
      items.map (fun item ↦ (item.product, item.quantity.isDice)) =
        [("Beeren", true), ("Wurzeln", false)] ∧
      (Dice.Table.fresh (.replay #[4, 2, 6])).shown? (sizesOf items) = some [4, 2] ∧
      (gather (some 5) "2W6+1 Beeren; IF TaP*>=7: W6 Knospen; 3 Wurzeln").onTable
          (.fresh (.replay #[4, 2, 6])) =
        (.ok rolled, (Dice.Table.fresh (.replay #[4, 2, 6])).askAll [6, 6]) ∧
      Rolled items [4, 2] rolled ∧
      rolled = [⟨"Beeren", .fixed 7, none, true, some "2W6+1", [4, 2]⟩,
        .plain "Wurzeln" (.fixed 3)] := by
  obtain ⟨items, hread, hroll⟩ :=
    gather_rolls_read "2W6+1 Beeren; IF TaP*>=7: W6 Knospen; 3 Wurzeln" (some 5)
  have hitems : items = [.plain "Beeren" (.dice ⟨2, 6, 1, "2W6+1", by decide, by decide, by decide⟩),
      .plain "Wurzeln" (.fixed 3)] := by
    have hrun := congrArg Prod.fst (hread (.fresh (.replay #[4, 2, 6])))
    exact Except.ok.inj (hrun.symm.trans (by decide +kernel))
  subst hitems
  obtain ⟨rolled, hrun, hrolled, -⟩ := hroll (.fresh (.replay #[4, 2, 6])) [4, 2] rfl
  refine ⟨_, rolled, hread _, rfl, rfl, hrun, hrolled, ?_⟩
  exact Except.ok.inj ((congrArg Prod.fst hrun).symm.trans (by decide +kernel))

end Aventuria.Harvest
