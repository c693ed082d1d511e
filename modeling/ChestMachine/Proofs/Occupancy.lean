import ChestMachine.Proofs.Maps
import ChestMachine.Proofs.Sameness
import ChestMachine.Proofs.Similarity

/-!
Sameness read off the slots in use. Main statement: two inventories are the same exactly if
they have equally many slots and agree in the slots in use, each by its index, item and count;
and exactly then boxes of them are the same key of every map, and the same descriptor to pull
by.
-/
namespace ChestMachine

namespace Stack

variable {s t : Stack} {rest rest' : List Stack} {index : Nat}

theorem index_le_of_mem_occupiedFrom {entry : Nat × Item × UInt32}
    (h : entry ∈ occupiedFrom index rest) : index ≤ entry.1 := by
  induction rest generalizing index with
  | nil => cases h
  | cons s rest ih =>
      cases hs : s.held? with
      | none =>
          rw [occupiedFrom_vacant hs] at h
          exact Nat.le_of_succ_le (ih h)
      | some item =>
          rw [occupiedFrom_held hs, List.mem_cons] at h
          cases h with
          | inl hfirst => exact Nat.le_of_eq (congrArg Prod.fst hfirst).symm
          | inr hlater => exact Nat.le_of_succ_le (ih hlater)

/-- No slot further on has the index of this one. -/
theorem index_not_mem_occupiedFrom (index : Nat) (rest : List Stack) :
    index ∉ (occupiedFrom (index + 1) rest).map (·.1) := by
  intro h
  obtain ⟨entry, hentry, hindex⟩ := List.mem_map.1 h
  have hbehind := index_le_of_mem_occupiedFrom hentry
  omega

theorem indices_of_beq {entries entries' : List (Nat × Item × UInt32)} (h : entries == entries') :
    entries.map (·.1) = entries'.map (·.1) := by
  induction entries generalizing entries' with
  | nil =>
      cases entries' with
      | nil => rfl
      | cons entry' later' => cases h
  | cons entry later ih =>
      cases entries' with
      | nil => cases h
      | cons entry' later' =>
          rw [List.cons_beq_cons, Bool.and_eq_true] at h
          have hindex : entry.1 == entry'.1 := (Bool.and_eq_true_iff.1 h.1).1
          rw [List.map_cons, List.map_cons, ih h.2, beq_iff_eq.1 hindex]

/-- A slot in use shows by its index. -/
theorem indices_ne_of_vacant (hs : s.held? = none) {item : Item} (ht : t.held? = some item) :
    (occupiedFrom index (s :: rest)).map (·.1) ≠ (occupiedFrom index (t :: rest')).map (·.1) := by
  rw [occupiedFrom_vacant hs, occupiedFrom_held ht]
  intro h
  have hmem := index_not_mem_occupiedFrom index rest
  rw [h] at hmem
  exact hmem List.mem_cons_self

theorem isSome_held?_of_alike (h : s.Alike t) : s.held?.isSome = t.held?.isSome := by
  cases h with
  | vacant hs ht => rw [hs, ht]
  | held hs ht _ _ => rw [hs, ht, Option.isSome_some, Option.isSome_some]

/-- Slots that agree in whether they are in use, and in what is in them. -/
theorem occupiedFrom_cons_beq_iff :
    (occupiedFrom index (s :: rest) == occupiedFrom index (t :: rest')) ↔
      s.Alike t ∧ occupiedFrom (index + 1) rest == occupiedFrom (index + 1) rest' := by
  cases hs : s.held? with
  | none =>
      cases ht : t.held? with
      | none =>
          rw [occupiedFrom_vacant hs, occupiedFrom_vacant ht]
          exact ⟨fun h => ⟨.vacant hs ht, h⟩, And.right⟩
      | some other =>
          refine iff_of_false (fun h => indices_ne_of_vacant hs ht (indices_of_beq h)) fun h => ?_
          have hused := isSome_held?_of_alike h.1
          rw [hs, ht] at hused
          cases hused
  | some item =>
      cases ht : t.held? with
      | none =>
          refine iff_of_false (fun h => indices_ne_of_vacant ht hs (indices_of_beq h).symm)
            fun h => ?_
          have hused := isSome_held?_of_alike h.1
          rw [hs, ht] at hused
          cases hused
      | some other =>
          have hentry : ((index, item, s.count) == (index, other, t.count)) =
              (index == index && (item == other && s.count == t.count)) := rfl
          rw [occupiedFrom_held hs, occupiedFrom_held ht, List.cons_beq_cons, hentry,
            Bool.and_eq_true, Bool.and_eq_true, Bool.and_eq_true, beq_iff_eq (a := s.count)]
          constructor
          · intro ⟨⟨_, hsame, hcount⟩, hlater⟩
            exact ⟨.held hs ht hsame hcount, hlater⟩
          · intro ⟨halike, hlater⟩
            have hrel := halike.held?_rel
            rw [hs, ht] at hrel
            have hsame := Option.rel_some_some.1 hrel
            exact ⟨⟨BEq.rfl, hsame, halike.count_eq⟩, hlater⟩

/-- Slots are alike if there are equally many of them and those in use agree. -/
theorem slotsAlike_iff (index : Nat) :
    SlotsAlike rest rest' ↔
      rest.length = rest'.length ∧ occupiedFrom index rest == occupiedFrom index rest' := by
  induction rest generalizing rest' index with
  | nil =>
      cases rest' with
      | nil => exact ⟨fun _ => ⟨rfl, rfl⟩, fun _ => .nil⟩
      | cons t rest' => exact ⟨nofun, fun h => nomatch h.1⟩
  | cons s rest ih =>
      cases rest' with
      | nil => exact ⟨nofun, fun h => nomatch h.1⟩
      | cons t rest' =>
          rw [SlotsAlike, List.forall₂_cons, occupiedFrom_cons_beq_iff, List.length_cons,
            List.length_cons, Nat.succ_inj, and_left_comm, ← ih (index + 1)]

end Stack

theorem Inventory.beq_iff_occupied (a b : Inventory) :
    a == b ↔ a.size = b.size ∧ a.occupied == b.occupied := by
  rw [beq_iff_alike, Stack.slotsAlike_iff 0]
  rfl

/-- Every map finds and forgets the same under both keys. -/
structure SameKey (β : Type) (key other : Item) : Prop where
  find : ∀ map : ItemMap β, map.find? key = map.find? other
  erase : ∀ map : ItemMap β, map.erase key = map.erase other

/-- Looking for one brings up what looking for the other does, out of any inventory. -/
def SameDescriptor (descriptor other : Item) : Prop :=
  ∀ inventory : Inventory, inventory.pullMatching? descriptor = inventory.pullMatching? other

/-- Keys are told apart by maps as far as they are different items. -/
theorem sameKey_iff {β : Type} (value : β) (key other : Item) :
    SameKey β key other ↔ key == other := by
  constructor
  · intro h
    have hfind := h.find (ItemMap.empty.insert key value)
    cases hsame : key == other with
    | true => rfl
    | false =>
        rw [ItemMap.find?_insert_self, ItemMap.find?_insert_of_ne hsame,
          ItemMap.find?_empty] at hfind
        cases hfind
  · intro h
    exact ⟨fun _ => ItemMap.find?_congr h, fun _ => ItemMap.erase_congr h⟩

/-- A single unit is brought up by the descriptors that are the same item. -/
theorem pullMatching?_single (unit descriptor : Item) :
    Inventory.pullMatching? ⟨[.used unit 1]⟩ descriptor =
      if unit == descriptor then some (unit, ⟨[.used unit 0]⟩) else none := by
  have hheld : (Stack.used unit 1).held? = some unit := Stack.held?_used (by decide)
  have hleft : (1 : UInt32) - 1 = 0 := by decide
  rw [Inventory.pullMatching?, Inventory.pullWanted?, Inventory.pullFrom?_cons_of_held hheld,
    Stack.count_used, hleft]
  split <;> rfl

theorem sameDescriptor_iff (descriptor other : Item) :
    SameDescriptor descriptor other ↔ descriptor == other := by
  constructor
  · intro h
    have hone := h ⟨[.used descriptor 1]⟩
    rw [pullMatching?_single, pullMatching?_single, if_pos BEq.rfl] at hone
    cases hsame : descriptor == other with
    | true => rfl
    | false =>
        rw [hsame] at hone
        cases hone
  · intro h inventory
    have hwanted : (fun item : Item => item == descriptor) = fun item => item == other := by
      funext item
      exact BEq.congr_right h
    rw [Inventory.pullMatching?, Inventory.pullMatching?, hwanted]

/-- Boxes are the same item if their contents are, whatever their limits are. -/
theorem box_beq_box (a b : Inventory) (limit limit' : UInt32) :
    ((Item.box a).withLimit limit == (Item.box b).withLimit limit') = (a == b) := by
  rw [BEq.congr_left (Item.withLimit_beq _ _), BEq.congr_right (Item.withLimit_beq _ _)]
  rfl

/-- Inventories are the same exactly if they have equally many slots and agree in their slots in
use, by index, item and count. Exactly then boxes of them, with any limits, are one key of a
store, one key of a furnace, and one descriptor to pull by. -/
theorem Inventory.same_iff_occupied (a b : Inventory) (limit limit' : UInt32) :
    (a == b ↔ a.size = b.size ∧ a.occupied == b.occupied) ∧
    (SameKey Inventory ((Item.box a).withLimit limit) ((Item.box b).withLimit limit') ↔
      a.size = b.size ∧ a.occupied == b.occupied) ∧
    (SameKey Item ((Item.box a).withLimit limit) ((Item.box b).withLimit limit') ↔
      a.size = b.size ∧ a.occupied == b.occupied) ∧
    (SameDescriptor ((Item.box a).withLimit limit) ((Item.box b).withLimit limit') ↔
      a.size = b.size ∧ a.occupied == b.occupied) := by
  rw [sameKey_iff .chest, sameKey_iff (.ofKind "stone"), sameDescriptor_iff, box_beq_box]
  have hsame := beq_iff_occupied a b
  exact ⟨hsame, hsame, hsame, hsame⟩

namespace Cupboards

/-- A stone in the only slot. -/
def narrow : Inventory :=
  ⟨[.used (.ofKind "stone") 1]⟩

/-- A stone in the first of two slots. -/
def wide : Inventory :=
  ⟨[.used (.ofKind "stone") 1, .fresh]⟩

/-- The slots in use agree, but a vacant slot more makes another inventory of it, and another
key and descriptor of its box. -/
theorem cupboards_differ :
    narrow.occupied == wide.occupied ∧ (narrow == wide) = false ∧
      ((ItemMap.empty.insert (.box narrow) .chest : Store).find? (.box wide)).isNone ∧
      ((ItemMap.empty.insert (.box narrow) (.ofKind "ash") : Furnace).find? (.box wide)).isNone ∧
      (Inventory.pullMatching? ⟨[.used (.box narrow) 1]⟩ (.box wide)).isNone := by
  decide

end Cupboards
end ChestMachine
