import ChestMachine.Proofs.Counting
import ChestMachine.Proofs.Delivery

/-!
Adding one unit and pulling one unit. Main statement: a unit is added as by trying the slots
one after the other, with counts that are numbers and not words; a unit is pulled as long as
there is one; and either way one slot changes, and the count of the one item with it.
-/
namespace ChestMachine

namespace Stack

/-- Adds one unit, where the next count is compared with the limit as a number. -/
def addExact? (s : Stack) (item : Item) : Option Stack :=
  match s.held? with
  | none =>
      if item.limit.toNat < s.count.toNat + 1 then none else some (.used item (s.count + 1))
  | some held =>
      if held == item then
        if held.limit.toNat < s.count.toNat + 1 then none else some (.used held (s.count + 1))
      else none

/-- The slots that accept a unit beforehand are those that take it. -/
theorem addExact?_eq (s : Stack) (item : Item) :
    s.addExact? item = if s.accepts item then s.add? item else none := by
  by_cases ha : s.accepts item
  · have hlt := count_of_accepts ha
    rw [if_pos ha, add?_of_accepts ha]
    cases hs : s.held? with
    | none =>
        rw [hs, Option.getD_none] at hlt
        simp only [addExact?, hs, if_neg (Nat.not_lt.2 hlt), Option.getD_none]
    | some held =>
        rw [hs, Option.getD_some] at hlt
        simp only [accepts, hs, Bool.and_eq_true] at ha
        simp only [addExact?, hs, ha.1, if_true, if_neg (Nat.not_lt.2 hlt), Option.getD_some]
  · rw [if_neg ha]
    cases hs : s.held? with
    | none =>
        simp only [accepts, hs, decide_eq_true_eq, UInt32.lt_iff_toNat_lt, UInt32.toNat_zero] at ha
        have hfull : item.limit.toNat < s.count.toNat + 1 := by omega
        simp only [addExact?, hs, if_pos hfull]
    | some held =>
        by_cases hsame : held == item
        · simp only [accepts, hs, hsame, isFull, Bool.true_and, Bool.not_eq_true',
            decide_eq_false_iff_not, Decidable.not_not, UInt32.le_iff_toNat_le] at ha
          simp only [addExact?, hs, hsame, if_true, if_pos (Nat.lt_succ_of_le ha)]
        · simp only [addExact?, hs, if_neg hsame]

end Stack

namespace Inventory

/-- Tries the slots one after the other until one takes the unit. Tells whether one has, and
what the slots are then. -/
def tryEach (item : Item) : List Stack → Bool × List Stack
  | [] => (false, [])
  | s :: rest =>
      match s.addExact? item with
      | some t => (true, t :: rest)
      | none =>
          let (taken, rest') := tryEach item rest
          (taken, s :: rest')

variable {inventory inventory' rest : Inventory} {item unit : Item} {wanted : Item → Bool}

theorem tryEach_eq (item : Item) (slots : List Stack) :
    tryEach item slots = ((addTo? item slots).isSome, (addTo? item slots).getD slots) := by
  induction slots with
  | nil => rfl
  | cons s rest ih =>
      by_cases ha : s.accepts item
      · simp only [tryEach, addTo?, Stack.addExact?_eq, if_pos ha, Stack.add?_of_accepts ha]
        rfl
      · simp only [tryEach, addTo?, Stack.addExact?_eq, if_neg ha, ih, Option.isSome_map]
        cases addTo? item rest <;> rfl

/-- The slot at the index is exchanged for another one, and no other slot changes. -/
structure Exchanges (index : Nat) (s t : Stack) (inventory inventory' : Inventory) : Prop where
  before : inventory.slots[index]? = some s
  after : inventory'.slots = inventory.slots.set index t

/-- One slot has taken the unit. -/
structure Gains (item : Item) (inventory inventory' : Inventory) : Prop where
  slot : ∃ index s t, Exchanges index s t inventory inventory' ∧
    t.holds item ∧ t.count.toNat = s.count.toNat + 1
  counts : ∀ x, inventory'.countOf x = inventory.countOf x + if item == x then 1 else 0

/-- The first slot with a wanted item has given a unit of it. -/
structure Gives (wanted : Item → Bool) (unit : Item) (inventory rest : Inventory) : Prop where
  isWanted : wanted unit
  slot : ∃ index s, inventory.slots.findIdx? (·.held?.any wanted) = some index ∧
    s.held? = some unit ∧ Exchanges index s (.used unit (s.count - 1)) inventory rest
  counts : ∀ x, inventory.countOf x = rest.countOf x + if unit == x then 1 else 0

theorem gains_of_add? (h : inventory.add? item = some inventory') :
    Gains item inventory inventory' := by
  have hcounts := countOf_add? h
  obtain ⟨index, s, t, _, hs, _, hholds, hcount, rfl⟩ := stored_of_add? h
  exact ⟨⟨index, s, t, ⟨hs, rfl⟩, hholds, hcount⟩, hcounts⟩

theorem gives_of_pullWanted? (h : inventory.pullWanted? wanted = some (unit, rest)) :
    Gives wanted unit inventory rest := by
  have hcounts := countOf_pullWanted? h
  obtain ⟨⟨found, slots'⟩, hp, heq⟩ := Option.map_eq_some_iff.1 h
  cases heq
  obtain ⟨front, s, t, back, hold, rfl, hfront, hw, hpull⟩ := pullFrom?_split hp
  obtain ⟨hheld, rfl⟩ := Stack.pull?_eq_some_iff.1 hpull
  have hnone : front.findIdx? (·.held?.any wanted) = none := by
    rw [List.findIdx?_eq_none_iff]
    intro r hr
    cases hr' : r.held? with
    | none => rfl
    | some held => exact hfront r hr held hr'
  refine ⟨hw, ⟨front.length, s, ?_, hheld, ⟨?_, ?_⟩⟩, hcounts⟩
  · rw [hold, List.findIdx?_append, hnone, List.findIdx?_cons, hheld, Option.any_some, if_pos hw,
      Option.map_some, Nat.zero_add, Option.none_or]
  · rw [hold, List.getElem?_append_right (Nat.le_refl _), Nat.sub_self]
    rfl
  · rw [hold, List.set_append_right _ _ (Nat.le_refl _), Nat.sub_self]
    rfl

theorem pull?_isSome_iff (inventory : Inventory) :
    inventory.pull?.isSome ↔ 0 < inventory.totalCount := by
  rw [← length_units, List.length_pos_iff, ne_eq, ← pull?_eq_none_iff, Option.isSome_iff_ne_none]

theorem pullMatching?_isSome_iff (inventory : Inventory) (descriptor : Item) :
    (inventory.pullMatching? descriptor).isSome ↔ 0 < inventory.countOf descriptor := by
  rw [Nat.pos_iff_ne_zero, ne_eq, ← pullMatching?_eq_none_iff, Option.isSome_iff_ne_none]

/-- Adding gives the same as trying the slots one after the other, and leaves them alone if
none takes the unit; otherwise one slot has taken it. A pull returns a unit exactly if there is
one, of any item or of the item that is wanted, and the first slot with such a unit gives it. -/
theorem adds_and_pulls (inventory : Inventory) (item : Item) :
    (tryEach item inventory.slots = match inventory.add? item with
      | some inventory' => (true, inventory'.slots)
      | none => (false, inventory.slots)) ∧
    (∀ inventory', inventory.add? item = some inventory' → Gains item inventory inventory') ∧
    (inventory.pull?.isSome ↔ 0 < inventory.totalCount) ∧
    (∀ unit rest, inventory.pull? = some (unit, rest) →
      Gives (fun _ => true) unit inventory rest) ∧
    ((inventory.pullMatching? item).isSome ↔ 0 < inventory.countOf item) ∧
    ∀ unit rest, inventory.pullMatching? item = some (unit, rest) →
      Gives (· == item) unit inventory rest := by
  refine ⟨?_, fun _ => gains_of_add?, pull?_isSome_iff inventory, fun _ _ => gives_of_pullWanted?,
    pullMatching?_isSome_iff inventory item, fun _ _ => gives_of_pullWanted?⟩
  rw [tryEach_eq, add?]
  cases addTo? item inventory.slots <;> rfl

end Inventory

namespace Ledge

def stone : Item :=
  .ofKind "stone"

/-- A full slot, one that only remembers, and one of the same item with places left. -/
def slots : Inventory :=
  ⟨[.used (stone.withLimit 2) 2, .used (.ofKind "ash") 0, .used stone 3]⟩

/-- The last slot takes a stone that would not stack by itself, and the first one gives the
stone that it is looked for with. -/
theorem ledge_adds_and_pulls :
    Inventory.tryEach (stone.withLimit 0) slots.slots =
      (true, [.used (stone.withLimit 2) 2, .used (.ofKind "ash") 0, .used stone 4]) ∧
    Inventory.Gains (stone.withLimit 0) slots
      ⟨[.used (stone.withLimit 2) 2, .used (.ofKind "ash") 0, .used stone 4]⟩ ∧
    Inventory.Gives (· == stone.withLimit 0) (stone.withLimit 2) slots
      ⟨[.used (stone.withLimit 2) 1, .used (.ofKind "ash") 0, .used stone 3]⟩ := by
  obtain ⟨htry, hgains, _, _, _, hgives⟩ := Inventory.adds_and_pulls slots (stone.withLimit 0)
  exact ⟨htry, hgains _ rfl, hgives _ _ rfl⟩

end Ledge
end ChestMachine
