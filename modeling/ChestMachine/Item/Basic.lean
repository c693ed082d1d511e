/-!
Items and the slots that hold them. A box is an item whose payload is an
inventory, so items, stacks and inventories are defined together.
-/
namespace ChestMachine

mutual

/-- What a unit is. The limit says how many units share one slot; two items
that differ only in their limit are the same item. -/
structure Item where
  kind : String
  label : String
  limit : UInt32
  payload : Payload

inductive Payload where
  | nothing
  | tag (text : String)
  | box (contents : Inventory)

/-- One slot. A used stack with count zero is vacant, and still remembers the
item that it held last. -/
inductive Stack where
  | fresh
  | used (item : Item) (count : UInt32)

/-- A fixed row of slots, scanned from the first to the last. -/
structure Inventory where
  slots : List Stack

end

namespace Item

def defaultLimit : UInt32 := 64

def labeled (kind label : String) : Item :=
  ⟨kind, label, defaultLimit, .nothing⟩

def ofKind (kind : String) : Item :=
  labeled kind kind

/-- Papers carry the labels that opcodes and keys are told apart by. -/
def paper (label : String) : Item :=
  labeled "paper" label

/-- Closed boxes do not stack. -/
def box (contents : Inventory) : Item :=
  ⟨"Box", "Box", 1, .box contents⟩

def withLimit (item : Item) (limit : UInt32) : Item :=
  { item with limit }

def withTag (item : Item) (text : String) : Item :=
  { item with payload := .tag text }

/-- The inventory inside a box; anything else cannot be opened. -/
def contents? (item : Item) : Option Inventory :=
  match item.payload with
  | .box contents => some contents
  | .nothing | .tag _ => none

def isBox (item : Item) : Bool :=
  item.contents?.isSome

@[simp] theorem contents?_box (contents : Inventory) :
    (box contents).contents? = some contents := rfl

@[simp] theorem limit_box (contents : Inventory) : (box contents).limit = 1 := rfl

end Item

end ChestMachine
