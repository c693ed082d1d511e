import ChestMachine.Proofs.Builtin.Boxes
import ChestMachine.Proofs.Filling
import ChestMachine.Proofs.Maps

/-!
Units that are gone without a warning. A deposit warns when the item box still has units,
and smelting when a chest does not take all products. Main statement: where neither
warns, what the entry or the item box refused is lost all the same; all units are kept
exactly when nothing was refused.
-/
namespace ChestMachine
namespace Builtin

open Inventory (refusals)

variable {context after : Context} {results : List Item}

theorem entryOf_of_find? {key : Item} {entry : Inventory}
    (h : context.store.find? key = some entry) : entryOf context key = entry := by
  rw [entryOf, h]
  rfl

/-- A deposit of an item box under a key, with what is left in the box. What the entry refuses
is in neither place. -/
structure DepositBalance (arguments : Vector Item 2) (context : Context) (results : List Item)
    (after : Context) (items : Inventory) (key : Item) (left : Inventory) : Prop where
  itemBox : (arguments.get 0).contents? = some items
  keyBox : ∃ keys rest, (arguments.get 1).contents? = some keys ∧ keys.pull? = some (key, rest) ∧
    results = [.box left, .box rest]
  balance : ∀ x, left.countOf x + (entryOf after key).countOf x +
      (refusals items.units (entryOf context key)).countP (· == x) =
    items.countOf x + (entryOf context key).countOf x
  keeps_iff : (∀ x, left.countOf x + (entryOf after key).countOf x =
      items.countOf x + (entryOf context key).countOf x) ↔
    refusals items.units (entryOf context key) = []
  keeps_new : context.store.find? key = none → items.Sound →
    items.items.length ≤ Inventory.chestSize → refusals items.units (entryOf context key) = []

/-- Smelting an item box into another one. What the second box refuses is lost. -/
structure SmeltBalance (arguments : Vector Item 1) (context : Context) (results : List Item)
    (items : Inventory) (products : List Item) (made : Inventory) : Prop where
  itemBox : (arguments.get 0).contents? = some items
  smelts : products? context items.units = some products
  results_eq : results = [.box made]
  balance : made.totalCount +
      (refusals (Inventory.chest.fill products).units (.empty items.size)).length =
    items.totalCount
  keeps_iff : made.totalCount = items.totalCount ↔
    refusals (Inventory.chest.fill products).units (.empty items.size) = []
  keeps_room : (Inventory.chest.fill products).items.length ≤ items.size →
    refusals (Inventory.chest.fill products).units (.empty items.size) = []

theorem deposit_balance {arguments : Vector Item 2}
    (h : deposit arguments context = .ok results after)
    (hquiet : after.warnings = context.warnings) :
    ∃ items key left, DepositBalance arguments context results after items key left := by
  obtain ⟨items, keys, key, rest, hitems, hkeys, hkey, hresults, hafter⟩ :=
    deposit_eq_ok_iff.1 h
  have hcomplete : (items.transfer (entryOf context key) none).isComplete := by
    rw [hafter] at hquiet
    have := Context.warnings_warnedIf_iff.1 hquiet
    simpa using this
  have hentry : entryOf after key = (entryOf context key).fill items.units := by
    rw [← Inventory.target_transfer_none, hafter]
    exact entryOf_of_find? (ItemMap.find?_insert_self _ _ _)
  have hbalance : ∀ x, (items.transfer (entryOf context key) none).source.countOf x +
      (entryOf after key).countOf x +
        (refusals items.units (entryOf context key)).countP (· == x) =
      items.countOf x + (entryOf context key).countOf x := by
    intro x
    have hfill := Inventory.countOf_fill items.units (entryOf context key) x
    rw [Inventory.countOf_of_isEmpty hcomplete, hentry, Nat.zero_add, hfill,
      ← Inventory.countOf_eq_countP, Nat.add_comm]
  refine ⟨items, key, _, hitems, ⟨keys, rest, hkeys, hkey, hresults⟩, hbalance,
    forall_kept_iff hbalance, ?_⟩
  intro hnew hsound hlen
  rw [entryOf, hnew, Inventory.units_eq_units_items]
  exact Inventory.refusals_units (Inventory.stocked_items hsound) hlen

theorem smelt_balance {arguments : Vector Item 1}
    (h : smelt arguments context = .ok results after)
    (hquiet : after.warnings = context.warnings) :
    ∃ items products made, SmeltBalance arguments context results items products made := by
  obtain ⟨items, products, hitems, hproducts, hresults, hafter⟩ := smelt_eq_ok_iff.1 h
  have hmade : results =
      [.box (items.pullAll.2.fill (Inventory.chest.fill products).units)] := by
    rw [hresults, Inventory.target_transfer_none]
    rfl
  have hall : refusals products .chest = [] := by
    rw [hafter] at hquiet
    have := Context.warnings_warnedIf_iff.1 hquiet
    rw [Inventory.refused_deliver] at this
    exact List.eq_nil_of_length_eq_zero (Nat.eq_zero_of_not_pos this)
  have hsettled : items.pullAll.2.settled = .empty items.size := by
    rw [Inventory.settled_of_isEmpty items.isEmpty_pullAll, Inventory.size_pullAll]
  have hmelted : (Inventory.chest.fill products).totalCount = items.totalCount := by
    have hchest := Inventory.totalCount_fill_of_isEmpty Inventory.isEmpty_chest products
    rwa [hall, length_products hproducts, Inventory.length_units] at hchest
  have hbalance : (items.pullAll.2.fill (Inventory.chest.fill products).units).totalCount +
      (refusals (Inventory.chest.fill products).units (.empty items.size)).length =
        items.totalCount := by
    rw [← hsettled, Inventory.refusals_settled,
      Inventory.totalCount_fill_of_isEmpty items.isEmpty_pullAll, Inventory.length_units, hmelted]
  refine ⟨items, products, _, hitems, hproducts, hmade, hbalance, ?_, ?_⟩
  · rw [← List.length_eq_zero_iff]
    omega
  · intro hroom
    rw [Inventory.units_eq_units_items]
    exact Inventory.refusals_units (Inventory.stocked_items_fill _ products) hroom

/-- Deposits and smeltings that give no warning account for all units up to those that were
refused in the end. -/
theorem balance_of_quiet (context : Context) :
    (∀ {arguments results after}, deposit arguments context = .ok results after →
      after.warnings = context.warnings →
      ∃ items key left, DepositBalance arguments context results after items key left) ∧
    (∀ {arguments results after}, smelt arguments context = .ok results after →
      after.warnings = context.warnings →
      ∃ items products made, SmeltBalance arguments context results items products made) :=
  ⟨deposit_balance, smelt_balance⟩

namespace Brimming

def key : Item := .paper "key"

def dirt : Item := .ofKind "dirt"

/-- A chest with one slot. -/
def slot (items : List Item) : Inventory :=
  (Inventory.empty 1).fill items

/-- The only slot under the key is taken, and stones do not stack. -/
def workshop : Context :=
  { Context.ofConfig .standard with
    store := ItemMap.empty.insert key (slot [.ofKind "stone"])
    furnace := ItemMap.empty.insert (.ofKind "cobblestone") ((Item.ofKind "stone").withLimit 1) }

def deposited : Vector Item 2 :=
  #v[.box (slot [dirt]), .box (slot [key])]

def smelted : Vector Item 1 :=
  #v[.box (slot [.ofKind "cobblestone", .ofKind "cobblestone"])]

/-- Both boxes come back without units. -/
def returned : List Item :=
  [.box ⟨[.used dirt 0]⟩, .box ⟨[.used key 0]⟩]

/-- The second stone has no place. -/
def made : List Item :=
  [.box (slot [(Item.ofKind "stone").withLimit 1])]

theorem workshop_balance_of_quiet :
    deposit deposited workshop = .ok returned workshop ∧
    smelt smelted workshop = .ok made workshop ∧
    (∃ items key left, DepositBalance deposited workshop returned workshop items key left) ∧
    ∃ items products box, SmeltBalance smelted workshop made items products box :=
  ⟨rfl, rfl, (balance_of_quiet workshop).1 rfl rfl, (balance_of_quiet workshop).2 rfl rfl⟩

/-- Both succeed without a warning, and there is a unit less than before. -/
theorem workshop_loses_units :
    deposit deposited workshop = .ok returned workshop ∧
    (Inventory.mk [.used dirt 0]).countOf dirt + (entryOf workshop key).countOf dirt = 0 ∧
    (slot [dirt]).countOf dirt + (entryOf workshop key).countOf dirt = 1 ∧
    smelt smelted workshop = .ok made workshop ∧
    (slot [(Item.ofKind "stone").withLimit 1]).totalCount = 1 ∧
    (slot [.ofKind "cobblestone", .ofKind "cobblestone"]).totalCount = 2 :=
  ⟨rfl, rfl, rfl, rfl, rfl, rfl⟩

end Brimming
end Builtin
end ChestMachine
