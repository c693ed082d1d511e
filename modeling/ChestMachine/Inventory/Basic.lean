import ChestMachine.Text

/-!
Inventories hold units in the first slot that takes them and give back the
unit in the first slot that has one. No operation changes how many slots there
are.
-/
namespace ChestMachine
namespace Inventory

/-- As many fresh slots as asked for. -/
def empty (size : Nat) : Inventory :=
  ⟨List.replicate size .fresh⟩

def chestSize : Nat := 27

def chest : Inventory :=
  empty chestSize

def size (inventory : Inventory) : Nat :=
  inventory.slots.length

/-- Puts one unit into the first stack that accepts it. -/
def addTo? (item : Item) : List Stack → Option (List Stack)
  | [] => none
  | s :: rest =>
      if s.accepts item then (s.add? item).map (· :: rest)
      else (addTo? item rest).map (s :: ·)

def add? (inventory : Inventory) (item : Item) : Option Inventory :=
  (addTo? item inventory.slots).map .mk

/-- Takes one unit from the first stack whose item is wanted. -/
def pullFrom? (wanted : Item → Bool) : List Stack → Option (Item × List Stack)
  | [] => none
  | s :: rest =>
      match s.pull? with
      | some (item, s') =>
          if wanted item then some (item, s' :: rest)
          else (pullFrom? wanted rest).map fun (item, rest') => (item, s :: rest')
      | none => (pullFrom? wanted rest).map fun (item, rest') => (item, s :: rest')

def pullWanted? (inventory : Inventory) (wanted : Item → Bool) : Option (Item × Inventory) :=
  (pullFrom? wanted inventory.slots).map fun (item, slots) => (item, ⟨slots⟩)

def pull? (inventory : Inventory) : Option (Item × Inventory) :=
  inventory.pullWanted? fun _ => true

def pullMatching? (inventory : Inventory) (descriptor : Item) : Option (Item × Inventory) :=
  inventory.pullWanted? (· == descriptor)

def isEmpty (inventory : Inventory) : Bool :=
  inventory.slots.all Stack.isVacant

/-- The counts of the slots together. -/
def countAll (slots : List Stack) : Nat :=
  slots.foldr (fun s total => s.count.toNat + total) 0

def totalCount (inventory : Inventory) : Nat :=
  countAll inventory.slots

def countOf (inventory : Inventory) (item : Item) : Nat :=
  countAll (inventory.slots.filter (·.holds item))

/-- Every unit in scan order. -/
def units (inventory : Inventory) : List Item :=
  inventory.slots.flatMap Stack.units

/-- The occupied slots in scan order, each as its item and count. -/
def items (inventory : Inventory) : List (Item × UInt32) :=
  inventory.slots.filterMap fun s => s.held?.map (·, s.count)

/-- The occupied slots in scan order, each under its index. -/
def occupied (inventory : Inventory) : List (Nat × Item × UInt32) :=
  inventory.slots.zipIdx.filterMap fun (s, index) => s.held?.map (index, ·, s.count)

theorem length_addTo? {item : Item} {slots slots' : List Stack}
    (h : addTo? item slots = some slots') : slots'.length = slots.length := by
  induction slots generalizing slots' with
  | nil => simp [addTo?] at h
  | cons s rest ih =>
      simp only [addTo?] at h
      split at h
      · obtain ⟨t, _, rfl⟩ := Option.map_eq_some_iff.1 h
        rfl
      · obtain ⟨rest', h', rfl⟩ := Option.map_eq_some_iff.1 h
        simp [ih h']

theorem length_pullFrom? {wanted : Item → Bool} {item : Item} {slots slots' : List Stack}
    (h : pullFrom? wanted slots = some (item, slots')) : slots'.length = slots.length := by
  induction slots generalizing slots' with
  | nil => simp [pullFrom?] at h
  | cons s rest ih =>
      simp only [pullFrom?] at h
      split at h
      · split at h
        · simp only [Option.some.injEq, Prod.mk.injEq] at h
          simp [← h.2]
        · simp only [Option.map_eq_some_iff, Prod.mk.injEq] at h
          obtain ⟨⟨i, r⟩, hr, rfl, rfl⟩ := h
          simp [ih hr]
      · simp only [Option.map_eq_some_iff, Prod.mk.injEq] at h
        obtain ⟨⟨i, r⟩, hr, rfl, rfl⟩ := h
        simp [ih hr]

@[simp] theorem size_empty (n : Nat) : (empty n).size = n := by
  simp [empty, size]

theorem size_add? {inventory inventory' : Inventory} {item : Item}
    (h : inventory.add? item = some inventory') : inventory'.size = inventory.size := by
  obtain ⟨slots, hs, rfl⟩ := Option.map_eq_some_iff.1 h
  exact length_addTo? hs

theorem size_pullWanted? {inventory inventory' : Inventory} {wanted : Item → Bool} {item : Item}
    (h : inventory.pullWanted? wanted = some (item, inventory')) :
    inventory'.size = inventory.size := by
  simp only [pullWanted?, Option.map_eq_some_iff, Prod.mk.injEq] at h
  obtain ⟨⟨i, slots⟩, hs, rfl, rfl⟩ := h
  exact length_pullFrom? hs

end Inventory
end ChestMachine
