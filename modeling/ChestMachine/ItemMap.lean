import ChestMachine.Inventory.Transfer

/-!
Maps keyed by items, in the order in which their keys were first inserted.
Keys are told apart as items are, so a key matches whatever its limit is.
-/
namespace ChestMachine

/-- No two keys of a map are the same item. -/
structure ItemMap (β : Type) where
  entries : List (Item × β)
  distinct : (entries.map (·.1)).Pairwise fun a b => (a == b) = false

abbrev Store := ItemMap Inventory

abbrev Furnace := ItemMap Item

namespace ItemMap

variable {β : Type}

def empty : ItemMap β :=
  ⟨[], .nil⟩

def find? (map : ItemMap β) (key : Item) : Option β :=
  (map.entries.find? (·.1 == key)).map (·.2)

def contains (map : ItemMap β) (key : Item) : Bool :=
  map.entries.any (·.1 == key)

def keys (map : ItemMap β) : List Item :=
  map.entries.map (·.1)

def size (map : ItemMap β) : Nat :=
  map.entries.length

def isEmpty (map : ItemMap β) : Bool :=
  map.entries.isEmpty

/-- Replaces the value of a key that is there, which stays where it is. -/
def replace (map : ItemMap β) (key : Item) (value : β) : ItemMap β where
  entries := map.entries.map fun entry => if entry.1 == key then (entry.1, value) else entry
  distinct := by
    have : (fun entry : Item × β => (if entry.1 == key then (entry.1, value) else entry).1) =
        fun entry => entry.1 := by
      funext entry; split <;> rfl
    simpa only [List.map_map, Function.comp_def, this] using map.distinct

/-- Puts a new key last; a key that is there keeps its place. -/
def insert (map : ItemMap β) (key : Item) (value : β) : ItemMap β :=
  if h : map.contains key then map.replace key value
  else {
    entries := map.entries ++ [(key, value)]
    distinct := by
      simp only [contains, List.any_eq_true, not_exists, not_and, Bool.not_eq_true] at h
      simp only [List.map_append, List.map_cons, List.map_nil, List.pairwise_append]
      refine ⟨map.distinct, List.pairwise_singleton _ _, fun a ha b hb => ?_⟩
      obtain ⟨entry, he, rfl⟩ := List.mem_map.1 ha
      simp only [List.mem_singleton] at hb
      exact hb ▸ h entry he }

/-- Removes a key and keeps the order of the others. -/
def erase (map : ItemMap β) (key : Item) : ItemMap β where
  entries := map.entries.filter fun entry => !(entry.1 == key)
  distinct := map.distinct.sublist (List.filter_sublist.map _)

def ofList (entries : List (Item × β)) : ItemMap β :=
  entries.foldl (fun map entry => map.insert entry.1 entry.2) empty

@[simp] theorem find?_empty (key : Item) : (empty : ItemMap β).find? key = none := rfl

theorem contains_eq_isSome_find? (map : ItemMap β) (key : Item) :
    map.contains key = (map.find? key).isSome := by
  rw [Bool.eq_iff_iff]
  simp [contains, find?]

end ItemMap

/-- Cobblestone smelts into stone. -/
def Furnace.standard : Furnace :=
  ItemMap.empty.insert (.ofKind "cobblestone") (.ofKind "stone")

end ChestMachine
