import Mathlib.Algebra.Ring.Nat
import ChestMachine.Proofs.Layout

/-!
What pulling leaves behind. Main statements: pulling one unit after the other lowers the
slots from the first on, and nothing else changes; and an inventory that has given all its
units stays as it is.
-/
namespace ChestMachine
namespace Stack

/-- The slot with so many units less. -/
def lowered (k : Nat) : Stack → Stack
  | .fresh => .fresh
  | .used item count => .used item (UInt32.ofNat (count.toNat - k))

theorem lowered_zero (s : Stack) : s.lowered 0 = s := by
  cases s <;> simp [lowered]

theorem lowered_of_vacant {s : Stack} (h : s.count = 0) (k : Nat) : s.lowered k = s := by
  cases s with
  | fresh => rfl
  | used item n =>
      rw [count_used] at h
      subst h
      simp [lowered]

theorem toNat_count_lowered (s : Stack) (k : Nat) :
    (s.lowered k).count.toNat = s.count.toNat - k := by
  cases s with
  | fresh => exact (Nat.zero_sub k).symm
  | used item n =>
      have hmax := n.toNat_lt
      rw [lowered, count_used, count_used, UInt32.toNat_ofNat', Nat.mod_eq_of_lt (by omega)]

theorem lowered_pull? {s t : Stack} {item : Item} (h : s.pull? = some (item, t)) (k : Nat) :
    t.lowered k = s.lowered (k + 1) := by
  obtain ⟨hheld, rfl⟩ := pull?_eq_some_iff.1 h
  cases s with
  | fresh => cases hheld
  | used held n =>
      have hn : n ≠ 0 := count_ne_zero hheld
      rw [held?_used hn, Option.some.injEq] at hheld
      simp only [lowered, count_used, hheld, word_toNat_sub_one hn]
      congr 2
      omega

end Stack

namespace Inventory

/-- The slots without the first units in them, slot for slot. -/
def withoutFrom : Nat → List Stack → List Stack
  | _, [] => []
  | k, s :: rest => s.lowered k :: withoutFrom (k - s.count.toNat) rest

/-- The inventory without its first units. -/
def without (inventory : Inventory) (k : Nat) : Inventory :=
  ⟨withoutFrom k inventory.slots⟩

theorem withoutFrom_zero (slots : List Stack) : withoutFrom 0 slots = slots := by
  induction slots with
  | nil => rfl
  | cons s rest ih => rw [withoutFrom, Stack.lowered_zero, Nat.zero_sub, ih]

theorem without_zero (inventory : Inventory) : inventory.without 0 = inventory := by
  obtain ⟨slots⟩ := inventory
  exact congrArg Inventory.mk (withoutFrom_zero slots)

theorem withoutFrom_vacant {front : List Stack} (h : ∀ s ∈ front, s.count = 0) (k : Nat)
    (back : List Stack) : withoutFrom k (front ++ back) = front ++ withoutFrom k back := by
  induction front with
  | nil => rfl
  | cons s rest ih =>
      obtain ⟨hs, hrest⟩ := List.forall_mem_cons.1 h
      simp only [List.cons_append, withoutFrom, Stack.lowered_of_vacant hs, hs,
        UInt32.toNat_zero, Nat.sub_zero, ih hrest]

theorem without_of_none {inventory : Inventory} (h : inventory.pull? = none) (k : Nat) :
    inventory.without k = inventory := by
  have hvacant : ∀ s ∈ inventory.slots, s.count = 0 := by
    have := (isEmpty_iff inventory).2 ((pull?_eq_none_iff inventory).1 h)
    simpa only [isEmpty, List.all_eq_true, Stack.isVacant, beq_iff_eq] using this
  obtain ⟨slots⟩ := inventory
  have hslots := withoutFrom_vacant hvacant k []
  rw [List.append_nil, withoutFrom, List.append_nil] at hslots
  exact congrArg Inventory.mk hslots

theorem without_of_pull? {inventory rest : Inventory} {item : Item}
    (h : inventory.pull? = some (item, rest)) (k : Nat) :
    rest.without k = inventory.without (k + 1) := by
  obtain ⟨⟨i, slots'⟩, hp, heq⟩ := Option.map_eq_some_iff.1 h
  cases heq
  obtain ⟨front, s, t, back, hold, rfl, hfront, _, hpull⟩ := pullFrom?_split hp
  have hvacant : ∀ r ∈ front, r.count = 0 := by
    intro r hr
    cases hheld : r.held? with
    | none => exact (Stack.held?_eq_none_iff r).1 hheld
    | some held => exact nomatch hfront r hr held hheld
  have hne := Stack.count_ne_zero (Stack.held?_of_pull? hpull)
  have hpos := word_toNat_ne_zero hne
  -- behind the slot that gave the unit, as many units are to go as before
  have hbehind : k - t.count.toNat = k + 1 - s.count.toNat := by
    rw [Stack.count_of_pull? hpull, word_toNat_sub_one hne]
    omega
  rw [without, without, hold, withoutFrom_vacant hvacant, withoutFrom_vacant hvacant,
    withoutFrom, withoutFrom, Stack.lowered_pull? hpull, hbehind]

/-- Pulling units one by one lowers the slots from the first on. -/
theorem snd_pullMany (inventory : Inventory) (k : Nat) :
    (inventory.pullMany k).2 = inventory.without k := by
  induction k generalizing inventory with
  | zero => rw [pullMany, without_zero]
  | succ k ih =>
      cases h : inventory.pull? with
      | none => rw [pullMany_of_none h, without_of_none h]
      | some found => rw [pullMany_succ_of_pull? h, ih, without_of_pull? h]

theorem size_without (inventory : Inventory) (k : Nat) :
    (inventory.without k).size = inventory.size := by
  rw [← snd_pullMany, size_pullMany]

theorem units_without (inventory : Inventory) (k : Nat) :
    (inventory.without k).units = inventory.units.drop k := by
  rw [← snd_pullMany]
  exact (pullMany_units k inventory).2

/-- The first unit comes out, and the others stay. -/
theorem pull?_of_units {inventory : Inventory} {unit : Item} {later : List Item}
    (h : inventory.units = unit :: later) :
    inventory.pull? = some (unit, inventory.without 1) := by
  cases hp : inventory.pull? with
  | none =>
      rw [(pull?_eq_none_iff inventory).1 hp] at h
      cases h
  | some found =>
      rw [units_of_pull? hp] at h
      rw [← without_of_pull? hp, without_zero, ← (List.cons.inj h).1]

theorem exists_pull?_of_head? {inventory : Inventory} {unit : Item}
    (h : inventory.units.head? = some unit) :
    ∃ rest, inventory.pull? = some (unit, rest) := by
  obtain ⟨later, hunits⟩ := List.head?_eq_some_iff.1 h
  exact ⟨_, pull?_of_units hunits⟩

theorem without_without (inventory : Inventory) (m k : Nat) :
    (inventory.without m).without k = inventory.without (m + k) := by
  rw [← snd_pullMany, ← snd_pullMany, ← snd_pullMany, pullMany_add]

/-- An inventory that has given all its units gives no more. -/
theorem without_of_length_le {inventory : Inventory} {k m : Nat}
    (h : inventory.units.length ≤ k) (hk : k ≤ m) : inventory.without m = inventory.without k := by
  obtain ⟨j, rfl⟩ := Nat.exists_eq_add_of_le hk
  have hnone : (inventory.without k).pull? = none := by
    rw [pull?_eq_none_iff, units_without]
    exact List.drop_eq_nil_of_le h
  rw [← without_without, without_of_none hnone]

end Inventory

end ChestMachine
