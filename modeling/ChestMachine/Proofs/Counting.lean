import ChestMachine.Proofs.Slotwise

/-!
Counts as words. Checked operations do the arithmetic of the plain ones, one unit at a time,
and stop where a count would leave its range. Main statements: no operation on inventories
ever stops there; and the slot that is picked for a unit takes it.
-/
namespace ChestMachine

/-- Where a count would leave the range of its word. -/
inductive OutOfRange where
  | above
  | below

abbrev Checked := Except OutOfRange

def increment (count : UInt32) : Checked UInt32 :=
  if count.toNat + 1 < UInt32.size then return count + 1 else throw .above

def decrement (count : UInt32) : Checked UInt32 :=
  if count = 0 then throw .below else return count - 1

theorem decrement_of_ne_zero {count : UInt32} (h : count ≠ 0) :
    decrement count = .ok (count - 1) :=
  if_neg h

namespace Stack

/-- The next count is compared with the limit before it is stored. -/
def addChecked (s : Stack) (item : Item) : Checked (Option Stack) :=
  match s.held? with
  | none => do
      let next ← increment s.count
      return if item.limit < next then none else some (.used item next)
  | some held => do
      if held == item then
        let next ← increment s.count
        return if held.limit < next then none else some (.used held next)
      else return none

def pullChecked : Stack → Checked (Option (Item × Stack))
  | .fresh => return none
  | .used item count => do
      if count = 0 then return none else return some (item, .used item (← decrement count))

variable {s : Stack} {item : Item}

theorem increment_of_accepts (h : s.accepts item) : increment s.count = .ok (s.count + 1) := by
  have hlt := count_of_accepts h
  have hmax := (s.held?.getD item).limit.toNat_lt
  have hfits : s.count.toNat + 1 < UInt32.size := by
    rw [UInt32.size]
    omega
  exact if_pos hfits

/-- A stack that accepts the unit holds it then, as one unit more. -/
theorem holds_of_add? {t : Stack} (h : s.accepts item) (hadd : s.add? item = some t) :
    t.holds item ∧ t.count.toNat = s.count.toNat + 1 := by
  rw [add?_of_accepts h, Option.some.injEq] at hadd
  subst hadd
  refine ⟨?_, toNat_count_add_one h⟩
  rw [holds, held?_used (count_add_one_ne_zero h)]
  cases hs : s.held? with
  | none => exact BEq.rfl
  | some held =>
      simp only [accepts, hs, Bool.and_eq_true] at h
      exact h.1

/-- A stack that accepts the unit can count it. -/
theorem addChecked_of_accepts (h : s.accepts item) : s.addChecked item = .ok (s.add? item) := by
  have hnext := increment_of_accepts h
  cases hs : s.held? with
  | none =>
      simp only [addChecked, add?, hs, hnext]
      rfl
  | some held =>
      simp only [accepts, hs, Bool.and_eq_true] at h
      simp only [addChecked, add?, hs, h.1, if_true, hnext]
      rfl

theorem pullChecked_eq (s : Stack) : s.pullChecked = .ok s.pull? := by
  cases s with
  | fresh => rfl
  | used item count =>
      by_cases h : count = 0
      · simp only [pullChecked, pull?, if_pos h]
        rfl
      · simp only [pullChecked, pull?, if_neg h, decrement_of_ne_zero h]
        rfl

end Stack

namespace Inventory

def addToChecked (item : Item) : List Stack → Checked (Option (List Stack))
  | [] => return none
  | s :: rest => do
      if s.accepts item then return (← s.addChecked item).map (· :: rest)
      else return (← addToChecked item rest).map (s :: ·)

def addChecked (inventory : Inventory) (item : Item) : Checked (Option Inventory) :=
  return (← addToChecked item inventory.slots).map .mk

def pullFromChecked (wanted : Item → Bool) : List Stack → Checked (Option (Item × List Stack))
  | [] => return none
  | s :: rest => do
      if s.held?.any wanted then
        return (← s.pullChecked).map fun (item, s') => (item, s' :: rest)
      else return (← pullFromChecked wanted rest).map fun (item, rest') => (item, s :: rest')

def pullChecked (inventory : Inventory) (wanted : Item → Bool) :
    Checked (Option (Item × Inventory)) :=
  return (← pullFromChecked wanted inventory.slots).map fun (item, slots) => (item, ⟨slots⟩)

theorem addToChecked_eq (item : Item) (slots : List Stack) :
    addToChecked item slots = .ok (addTo? item slots) := by
  induction slots with
  | nil => rfl
  | cons s rest ih =>
      by_cases h : s.accepts item
      · simp only [addToChecked, addTo?, if_pos h, Stack.addChecked_of_accepts h]
        rfl
      · simp only [addToChecked, addTo?, if_neg h, ih]
        rfl

theorem addChecked_eq (inventory : Inventory) (item : Item) :
    inventory.addChecked item = .ok (inventory.add? item) := by
  rw [addChecked, addToChecked_eq]
  rfl

theorem pullFromChecked_eq (wanted : Item → Bool) (slots : List Stack) :
    pullFromChecked wanted slots = .ok (pullFrom? wanted slots) := by
  induction slots with
  | nil => rfl
  | cons s rest ih =>
      simp only [pullFromChecked, pullFrom?, Stack.pullChecked_eq, ih]
      cases hs : s.pull? with
      | none =>
          have hvacant := (Stack.held?_eq_none_iff s).2 ((Stack.pull?_eq_none_iff s).1 hs)
          simp only [hvacant, Option.any_none, Bool.false_eq_true, if_false]
          rfl
      | some found =>
          obtain ⟨item, t⟩ := found
          simp only [Stack.held?_of_pull? hs, Option.any_some]
          split <;> rfl

theorem pullChecked_eq (inventory : Inventory) (wanted : Item → Bool) :
    inventory.pullChecked wanted = .ok (inventory.pullWanted? wanted) := by
  rw [pullChecked, pullFromChecked_eq]
  rfl

end Inventory

/-- Pulls and adds unit by unit, as long as the quota lasts and no unit is refused, but not
more often than there are units. -/
def Stack.pourChecked : Nat → Stack → Option Nat → Inventory → Checked Poured
  | 0, s, quota, target => return ⟨s, quota, target⟩
  | _ + 1, s, some 0, target => return ⟨s, some 0, target⟩
  | n + 1, s, quota, target => do
      match ← s.pullChecked with
      | none => return ⟨s, quota, target⟩
      | some (item, s') =>
          match ← target.addChecked item with
          | none => return ⟨s', quota, target⟩
          | some target' => pourChecked n s' (quota.map (· - 1)) target'

namespace Inventory

def pourAllChecked : List Stack → Option Nat → Inventory → Checked (List Stack × Inventory)
  | [], _, target => return ([], target)
  | s :: rest, quota, target => do
      let poured ← s.pourChecked s.count.toNat quota target
      let (rest', target') ← pourAllChecked rest poured.quota poured.target
      return (poured.stack :: rest', target')

def transferChecked (source target : Inventory) (limit : Option Nat) : Checked Transfer := do
  let (slots, target') ← pourAllChecked source.slots limit target
  return ⟨⟨slots⟩, target'⟩

end Inventory

namespace Stack

theorem pourChecked_succ {s s' : Stack} {item : Item} {quota : Option Nat} (n : Nat)
    (target : Inventory) (hquota : quota = some 0 → False) (h : s.pull? = some (item, s')) :
    pourChecked (n + 1) s quota target =
      match target.add? item with
      | none => .ok ⟨s', quota, target⟩
      | some target' => pourChecked n s' (quota.map (· - 1)) target' := by
  rw [pourChecked, pullChecked_eq, h]
  · change (target.addChecked item >>= _) = _
    rw [Inventory.addChecked_eq]
    rfl
  · exact hquota

/-- Pouring unit by unit leaves what pouring by number leaves. -/
theorem pourChecked_used (item : Item) (n : Nat) (quota : Option Nat) (target : Inventory)
    (h : n < UInt32.size) :
    pourChecked n (.used item n.toUInt32) quota target =
      .ok ⟨.used item (pourUnits item n quota target).1.toUInt32,
        (pourUnits item n quota target).2.1, (pourUnits item n quota target).2.2⟩ := by
  fun_induction pourUnits item n quota target with
  | case1 quota target => rfl
  | case2 n target => rfl
  | case3 n quota target hquota target' hadd ih =>
      rw [pourChecked_succ n target hquota (pull?_used_succ item h), hadd]
      exact ih (Nat.lt_of_succ_lt h)
  | case4 n quota target hquota hadd =>
      rw [pourChecked_succ n target hquota (pull?_used_succ item h), hadd]

theorem pourChecked_eq (s : Stack) (quota : Option Nat) (target : Inventory) :
    s.pourChecked s.count.toNat quota target = .ok (s.pour quota target) := by
  cases s with
  | fresh => rfl
  | used item count =>
      have h := pourChecked_used item count.toNat quota target count.toNat_lt
      rwa [Nat.toUInt32, UInt32.ofNat_toNat] at h

end Stack

namespace Inventory

theorem pourAllChecked_eq (slots : List Stack) (quota : Option Nat) (target : Inventory) :
    pourAllChecked slots quota target = .ok (pourAll slots quota target) := by
  induction slots generalizing quota target with
  | nil => rfl
  | cons s rest ih =>
      rw [pourAllChecked, Stack.pourChecked_eq]
      change (pourAllChecked rest _ _ >>= _) = _
      rw [ih]
      rfl

theorem transferChecked_eq (source target : Inventory) (limit : Option Nat) :
    source.transferChecked target limit = .ok (source.transfer target limit) := by
  rw [transferChecked, pourAllChecked_eq]
  rfl

/-- The slot that a unit is added to. -/
def slotFor? (inventory : Inventory) (item : Item) : Option Nat :=
  inventory.slots.findIdx? (·.accepts item)

/-- The unit is refused if there is no slot for it, and otherwise the slot that is picked
takes it, and no other slot changes. -/
def Stores (inventory : Inventory) (item : Item) : Prop :=
  match inventory.slotFor? item with
  | none => inventory.add? item = none
  | some index => ∃ s t, inventory.slots[index]? = some s ∧ s.add? item = some t ∧
      t.holds item ∧ t.count.toNat = s.count.toNat + 1 ∧
        inventory.add? item = some ⟨inventory.slots.set index t⟩

theorem addTo?_of_findIdx? {item : Item} {slots : List Stack} {index : Nat}
    (h : slots.findIdx? (·.accepts item) = some index) :
    ∃ s t, slots[index]? = some s ∧ s.accepts item ∧ s.add? item = some t ∧
      addTo? item slots = some (slots.set index t) := by
  induction slots generalizing index with
  | nil => cases h
  | cons s rest ih =>
      rw [List.findIdx?_cons] at h
      by_cases ha : s.accepts item
      · rw [if_pos ha] at h
        cases h
        refine ⟨s, _, rfl, ha, Stack.add?_of_accepts ha, ?_⟩
        rw [addTo?, if_pos ha, Stack.add?_of_accepts ha]
        rfl
      · rw [if_neg ha] at h
        obtain ⟨later, hlater, rfl⟩ := Option.map_eq_some_iff.1 h
        obtain ⟨r, t, hr, haccepts, hadd, hrest⟩ := ih hlater
        refine ⟨r, t, hr, haccepts, hadd, ?_⟩
        rw [addTo?, if_neg ha, hrest]
        rfl

theorem stores (inventory : Inventory) (item : Item) : inventory.Stores item := by
  rw [Stores]
  cases h : inventory.slotFor? item with
  | none =>
      have hnone := List.findIdx?_eq_none_iff.1 h
      have hrefused := addTo?_isSome_iff item inventory.slots
      cases ha : addTo? item inventory.slots with
      | none => rw [add?, ha, Option.map_none]
      | some slots =>
          obtain ⟨s, hs, haccepts⟩ := hrefused.1 (by rw [ha]; rfl)
          rw [hnone s hs] at haccepts
          cases haccepts
  | some index =>
      obtain ⟨s, t, hs, haccepts, hadd, hslots⟩ := addTo?_of_findIdx? h
      obtain ⟨hholds, hcount⟩ := Stack.holds_of_add? haccepts hadd
      refine ⟨s, t, hs, hadd, hholds, hcount, ?_⟩
      rw [add?, hslots, Option.map_some]

theorem stored_of_add? {inventory inventory' : Inventory} {item : Item}
    (h : inventory.add? item = some inventory') :
    ∃ index s t, inventory.slotFor? item = some index ∧ inventory.slots[index]? = some s ∧
      s.add? item = some t ∧ t.holds item ∧ t.count.toNat = s.count.toNat + 1 ∧
        inventory' = ⟨inventory.slots.set index t⟩ := by
  have hstores := inventory.stores item
  rw [Stores] at hstores
  cases hslot : inventory.slotFor? item with
  | none =>
      rw [hslot, h] at hstores
      cases hstores
  | some index =>
      rw [hslot, h] at hstores
      obtain ⟨s, t, hs, hadd, hholds, hcount, hnext⟩ := hstores
      exact ⟨index, s, t, rfl, hs, hadd, hholds, hcount, Option.some.inj hnext⟩

end Inventory
end ChestMachine
