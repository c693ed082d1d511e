import ChestMachine.Proofs.Builtin.Store
import ChestMachine.Proofs.Maps
import ChestMachine.Proofs.Places
import ChestMachine.Proofs.Refilling

/-!
Depositing and fetching again. Main statements: a deposit under a new key empties the item
box into a new entry; a fetch takes the entry into the item box and leaves the key twice;
so both together give every unit back, and the context is as it was.
-/
namespace ChestMachine

namespace Inventory

variable {inventory rest : Inventory} {key : Item}

/-- A key box that takes one more key takes its first key back twice. -/
theorem addAll?_pair_of_pull? (hs : inventory.Sound) (h : inventory.pull? = some (key, rest))
    (hroom : 0 < inventory.places key) :
    ∃ twice, rest.addAll? [key, key] = some twice ∧
      ∀ x, twice.countOf x = inventory.countOf x + if key == x then 1 else 0 := by
  have hone := (add?_isSome_iff_places inventory key).2 hroom
  obtain ⟨twice, htwice⟩ := Option.isSome_iff_exists.1 ((addAll?_pair_isSome_iff hs h).2 hone)
  exact ⟨twice, htwice, countOf_addAll?_pair h htwice⟩

/-- A chest has room for the units of a box that is no larger, and they come out of it in
the order in which they come out of the repacked box. -/
theorem exists_filed (hs : inventory.Sound) (hsize : inventory.size ≤ chestSize) :
    ∃ entry, chest.addAll? inventory.units = some entry ∧
      entry.units = inventory.repacked.units := by
  have hstocked : Rows.Stocked inventory.repacked.items :=
    stocked_items_fill inventory.size inventory.units
  refine ⟨ofRows chestSize inventory.repacked.items, ?_, ?_⟩
  · exact addAll?_units_of_items_le hs (Nat.le_trans (length_items_le_size inventory) hsize)
  · rw [units_eq_units_items, items_ofRows hstocked, ← units_eq_units_items]

/-- In that order they go back into the emptied box and make the repacked one. -/
theorem exists_refilled (hs : inventory.Sound) :
    ∃ back, inventory.emptied.addAll? inventory.repacked.units = some back ∧
      back.settled = inventory.repacked := by
  have hstocked : Rows.Stocked inventory.repacked.items :=
    stocked_items_fill inventory.size inventory.units
  obtain ⟨_, hrepacked, htight, hlen⟩ := repacked_spec hs
  have hall : (empty inventory.size).addAll? inventory.repacked.units =
      some inventory.repacked := by
    rw [units_eq_units_items, addAll?_units_of_tight hstocked htight
      (Nat.le_trans hlen (length_items_le_size inventory)), ← hrepacked]
  rw [← size_emptied, ← settled_of_isEmpty (isEmpty_emptied inventory), addAll?_settled,
    Option.map_eq_some_iff] at hall
  exact hall

/-- A box that was only ever filled comes out the same. -/
theorem refilled_of_fill {back : Inventory} {units : List Item}
    (h : inventory = (empty inventory.size).fill units)
    (hback : inventory.emptied.addAll? inventory.repacked.units = some back) :
    back = inventory := by
  have hrepacked : inventory.repacked = inventory := by
    rw [h]
    exact repacked_fill _ _
  have hagain : inventory.emptied.addAll? inventory.units = some inventory := by
    rw [h]
    exact addAll?_emptied_fill _ _
  rw [hrepacked, hagain] at hback
  exact (Option.some.inj hback).symm

theorem countOf_settled (inventory : Inventory) (x : Item) :
    inventory.settled.countOf x = inventory.countOf x := by
  rw [countOf_eq_countP, countOf_eq_countP, units_eq_units_items, units_eq_units_items,
    items_settled]

end Inventory

namespace Builtin

variable {itemBox keyBox : Item} {items keys : Inventory} {key : Item} {context : Context}

/-- Where no entry is under the key, a deposit that fits into a chest empties the item box
and uses up the key. -/
theorem deposit_new {later : List Item} {entry : Inventory}
    (hitems : itemBox.contents? = some items) (hkeys : keyBox.contents? = some keys)
    (hkey : keys.units = key :: later) (hnew : context.store.find? key = none)
    (hfit : Inventory.chest.addAll? items.units = some entry) :
    deposit #v[itemBox, keyBox] context =
      .ok [.box items.emptied, .box (keys.without 1)]
        (context.withStore (context.store.insert key entry)) := by
  have hentry : entryOf context key = .chest := by
    rw [entryOf, hnew]
    rfl
  obtain ⟨hnone, hfill⟩ := Inventory.addAll?_eq_some_iff.1 hfit
  have hcomplete := Inventory.isComplete_transfer_none hnone
  refine deposit_eq_ok_iff.2
    ⟨items, keys, key, keys.without 1, hitems, hkeys, Inventory.pull?_of_units hkey, ?_, ?_⟩
  · rw [hentry, Inventory.source_transfer_of_isComplete hcomplete]
  · rw [hentry, Inventory.target_transfer_none, hfill, Context.warnedIf_of_not]
    rw [hcomplete]
    decide

/-- A fetch that finds room for the entry, and for the key twice, takes the entry from the
store. -/
theorem fetch_filed {rest entry back twice : Inventory}
    (hitems : itemBox.contents? = some items) (hkeys : keyBox.contents? = some keys)
    (hkey : keys.pull? = some (key, rest)) (hentry : context.store.find? key = some entry)
    (hfit : items.addAll? entry.units = some back) (htwice : rest.addAll? [key, key] = some twice) :
    fetch #v[itemBox, keyBox] context =
      .ok [.box back, .box twice] (context.withStore (context.store.erase key)) := by
  obtain ⟨hnone, hfill⟩ := Inventory.addAll?_eq_some_iff.1 hfit
  rw [Inventory.addAll?_cons, Option.bind_eq_some_iff] at htwice
  obtain ⟨once, honce, hlast⟩ := htwice
  rw [Inventory.addAll?_singleton] at hlast
  refine fetch_eq_ok_iff.2
    ⟨items, keys, key, rest, entry, once, twice, hitems, hkeys, hkey, hentry, honce, hlast, ?_, ?_⟩
  · rw [hfill]
  · rw [Context.warnedIf_of_not]
    rw [Inventory.refused_deliver, hnone]
    exact Nat.lt_irrefl 0

/-- Fetching under the same key takes back what depositing under a new one has done. The
item box comes back with all its units, packed from the first slot on, and a box that was
only ever filled comes back as it was; the key box that was used to fetch has one key more;
and nothing else has changed, in the store or elsewhere. -/
theorem deposit_fetch {keyBox' : Item} {keys' : Inventory} {key' : Item}
    (hitems : itemBox.contents? = some items) (hsound : items.Sound)
    (hsize : items.size ≤ Inventory.chestSize)
    (hkeys : keyBox.contents? = some keys) (hkey : keys.units.head? = some key)
    (hnew : context.store.find? key = none)
    (hkeys' : keyBox'.contents? = some keys') (hsound' : keys'.Sound)
    (hkey' : keys'.units.head? = some key') (hsame : key' == key)
    (hroom : (keys'.add? key).isSome) :
    ∃ filed back twice,
      deposit #v[itemBox, keyBox] context =
        .ok [.box items.emptied, .box (keys.without 1)] filed ∧
      items.emptied.isEmpty ∧ items.emptied.size = items.size ∧
      filed.warnings = context.warnings ∧
      fetch #v[.box items.emptied, keyBox'] filed = .ok [.box back, .box twice] context ∧
      (∀ x, back.countOf x = items.countOf x) ∧ back.settled = items.repacked ∧
      (∀ units, items = (Inventory.empty items.size).fill units → back = items) ∧
      ∀ x, twice.countOf x = keys'.countOf x + if key == x then 1 else 0 := by
  obtain ⟨later, hfirst⟩ := List.head?_eq_some_iff.1 hkey
  obtain ⟨later', hfirst'⟩ := List.head?_eq_some_iff.1 hkey'
  have hpull := Inventory.pull?_of_units hfirst'
  obtain ⟨⟨_, hstacks⟩, _⟩ := Inventory.obeys_pull? hsound' hpull
  obtain ⟨entry, hentry, hunits⟩ := Inventory.exists_filed hsound hsize
  obtain ⟨back, hback, hsettled⟩ := Inventory.exists_refilled hsound
  have hplaces : 0 < keys'.places key' := by
    have hkeyed := (Inventory.add?_isSome_iff_places keys' key).1 hroom
    exact Inventory.places_pos_of_beq (BEq.symm hsame) hstacks hkeyed
  obtain ⟨twice, htwice, hcount⟩ := Inventory.addAll?_pair_of_pull? hsound' hpull hplaces
  have hfind : (context.store.insert key entry).find? key' = some entry := by
    rw [ItemMap.find?_congr hsame, ItemMap.find?_insert_self]
  have herase : (context.store.insert key entry).erase key' = context.store := by
    rw [ItemMap.erase_congr hsame, ItemMap.erase_insert hnew]
  have hfit : items.emptied.addAll? entry.units = some back := by rw [hunits, hback]
  refine ⟨context.withStore (context.store.insert key entry), back, twice,
    deposit_new hitems hkeys hfirst hnew hentry, Inventory.isEmpty_emptied items,
    Inventory.size_emptied items, rfl, ?_, ?_, hsettled, ?_, ?_⟩
  · refine (fetch_filed (Item.contents?_box _) hkeys' hpull hfind hfit htwice).trans ?_
    exact congrArg (fun store => EStateM.Result.ok _ (context.withStore store)) herase
  · intro x
    rw [← Inventory.countOf_settled, hsettled, Inventory.countOf_repacked hsound]
  · intro units hfilled
    exact Inventory.refilled_of_fill hfilled hback
  · intro x
    rw [hcount x, BEq.congr_left hsame]

/-- A box with a gap, a slot that only remembers, and one item under two limits. -/
def gappy : Inventory :=
  ⟨[.fresh, .used (.ofKind "stone") 3, .used (.ofKind "dirt") 0,
    .used ((Item.ofKind "stone").withLimit 2) 2]⟩

/-- A key box with one key in its first slot. -/
def keyring (limit : UInt32) : Inventory :=
  (Inventory.empty 2).fill [(Item.paper "key").withLimit limit]

theorem gappy_deposit_fetch :
    gappy.Sound ∧ gappy.size ≤ Inventory.chestSize ∧
    ((keyring 16).add? ((Item.paper "key").withLimit 64)).isSome ∧
    ∃ filed back twice,
      deposit #v[.box gappy, .box (keyring 64)] (.ofConfig .standard) =
        .ok [.box gappy.emptied, .box ((keyring 64).without 1)] filed ∧
      gappy.emptied.isEmpty ∧ gappy.emptied.size = gappy.size ∧
      filed.warnings = [] ∧
      fetch #v[.box gappy.emptied, .box (keyring 16)] filed =
        .ok [.box back, .box twice] (.ofConfig .standard) ∧
      (∀ x, back.countOf x = gappy.countOf x) ∧ back.settled = gappy.repacked ∧
      (∀ units, gappy = (Inventory.empty gappy.size).fill units → back = gappy) ∧
      ∀ x, twice.countOf x =
        (keyring 16).countOf x + if (Item.paper "key").withLimit 64 == x then 1 else 0 := by
  refine ⟨rfl, by decide, rfl, ?_⟩
  exact deposit_fetch (Item.contents?_box gappy) rfl (by decide)
    (Item.contents?_box (keyring 64)) rfl rfl (Item.contents?_box (keyring 16)) rfl rfl rfl rfl

end Builtin
end ChestMachine
