import ChestMachine.Proofs.Slots

/-!
Properties of single slots. Main statements: what accepted units and pulls keep true of a
slot, all operations on inventories keep true of their slots; and to keep within its limit is
such a property.
-/
namespace ChestMachine

/-- The property of a slot outlasts every unit that it accepts, if that unit has a property of
its own, and every pull, which then returns a unit with it that stacks. -/
structure Stack.Keeps (unit : Item → Prop) (slot : Stack → Prop) : Prop where
  add : ∀ {s t : Stack} {item : Item}, slot s → unit item → s.accepts item →
    s.add? item = some t → slot t
  pull : ∀ {s t : Stack} {item : Item}, slot s → s.pull? = some (item, t) →
    (unit item ∧ 0 < item.limit) ∧ slot t

/-- All slots have the property. -/
def Inventory.Every (slot : Stack → Prop) (inventory : Inventory) : Prop :=
  ∀ s ∈ inventory.slots, slot s

variable {unit : Item → Prop} {slot : Stack → Prop} {inventory inventory' target : Inventory}
  {item : Item}

namespace Inventory

/-- One slot may be exchanged for another with the property. -/
theorem every_exchange {front back : List Stack} {s t : Stack}
    (hs : ∀ r ∈ front ++ s :: back, slot r) (ht : slot t) : ∀ r ∈ front ++ t :: back, slot r := by
  rw [List.forall_mem_append, List.forall_mem_cons] at hs ⊢
  exact ⟨hs.1, ht, hs.2.2⟩

theorem every_empty (h : slot .fresh) (size : Nat) : (empty size).Every slot := by
  intro s hs
  rw [List.eq_of_mem_replicate hs]
  exact h

theorem every_add? (hk : Stack.Keeps unit slot) (hs : inventory.Every slot) (hitem : unit item)
    (h : inventory.add? item = some inventory') : inventory'.Every slot := by
  obtain ⟨slots, ht, rfl⟩ := Option.map_eq_some_iff.1 h
  obtain ⟨front, s, t, back, hold, rfl, _, ha, hadd⟩ := addTo?_split ht
  rw [Every, hold] at hs
  have hmid := hs s (List.mem_append_right _ List.mem_cons_self)
  exact every_exchange hs (hk.add hmid hitem ha hadd)

theorem every_pullWanted? {wanted : Item → Bool} (hk : Stack.Keeps unit slot)
    (hs : inventory.Every slot) (h : inventory.pullWanted? wanted = some (item, inventory')) :
    (unit item ∧ 0 < item.limit) ∧ inventory'.Every slot := by
  obtain ⟨⟨found, slots⟩, hp, heq⟩ := Option.map_eq_some_iff.1 h
  cases heq
  obtain ⟨front, s, t, back, hold, rfl, _, _, hpull⟩ := pullFrom?_split hp
  rw [Every, hold] at hs
  have hmid := hs s (List.mem_append_right _ List.mem_cons_self)
  obtain ⟨hitem, ht⟩ := hk.pull hmid hpull
  exact ⟨hitem, every_exchange hs ht⟩

end Inventory

namespace Stack

theorem keeps_pourUnits (hk : Keeps unit slot) (n : Nat) (quota : Option Nat)
    (hn : n < UInt32.size) (hs : slot (.used item n.toUInt32)) (ht : target.Every slot) :
    slot (.used item (pourUnits item n quota target).1.toUInt32) ∧
      (pourUnits item n quota target).2.2.Every slot := by
  fun_induction pourUnits item n quota target with
  | case1 quota target => exact ⟨hs, ht⟩
  | case2 n target => exact ⟨hs, ht⟩
  | case3 n quota target _ target' hadd ih =>
      obtain ⟨⟨hitem, _⟩, hnext⟩ := hk.pull hs (pull?_used_succ item hn)
      exact ih (Nat.lt_of_succ_lt hn) hnext (Inventory.every_add? hk ht hitem hadd)
  | case4 n quota target _ hadd =>
      obtain ⟨_, hnext⟩ := hk.pull hs (pull?_used_succ item hn)
      exact ⟨hnext, ht⟩

theorem keeps_pour {s : Stack} (hk : Keeps unit slot) (hs : slot s) (ht : target.Every slot)
    (quota : Option Nat) :
    slot (s.pour quota target).stack ∧ (s.pour quota target).target.Every slot := by
  cases s with
  | fresh => exact ⟨hs, ht⟩
  | used item count =>
      apply keeps_pourUnits hk count.toNat quota count.toNat_lt _ ht
      rwa [Nat.toUInt32, UInt32.ofNat_toNat]

end Stack

namespace Inventory

theorem every_pourAll {slots : List Stack} (hk : Stack.Keeps unit slot) (hs : ∀ s ∈ slots, slot s)
    (ht : target.Every slot) (quota : Option Nat) :
    (∀ s ∈ (pourAll slots quota target).1, slot s) ∧
      (pourAll slots quota target).2.Every slot := by
  induction slots generalizing quota target with
  | nil => exact ⟨hs, ht⟩
  | cons s rest ih =>
      obtain ⟨hhead, hrest⟩ := List.forall_mem_cons.1 hs
      obtain ⟨hpoured, htarget⟩ := Stack.keeps_pour hk hhead ht quota
      obtain ⟨hlater, hlast⟩ := ih hrest htarget (s.pour quota target).quota
      exact ⟨List.forall_mem_cons.2 ⟨hpoured, hlater⟩, hlast⟩

theorem every_transfer {source : Inventory} (hk : Stack.Keeps unit slot) (hs : source.Every slot)
    (ht : target.Every slot) (limit : Option Nat) :
    (source.transfer target limit).source.Every slot ∧
      (source.transfer target limit).target.Every slot :=
  every_pourAll hk hs ht limit

end Inventory

/-- The slot has no more units than the item in it allows. -/
def Stack.WithinLimit (s : Stack) : Prop :=
  ∀ item, s.held? = some item → s.count ≤ item.limit

/-- So it is in all slots; boxes are not looked into. -/
abbrev Inventory.WithinLimits (inventory : Inventory) : Prop :=
  inventory.Every Stack.WithinLimit

namespace Stack

variable {s t : Stack}

theorem withinLimit_of_count (h : s.count = 0) : s.WithinLimit := by
  intro item hheld
  exact absurd h (count_ne_zero hheld)

theorem withinLimit_add? (ha : s.accepts item) (h : s.add? item = some t) : t.WithinLimit := by
  rw [add?_of_accepts ha, Option.some.injEq] at h
  subst h
  intro held hheld
  rw [held?_used (count_add_one_ne_zero ha), Option.some.injEq] at hheld
  subst hheld
  rw [count_used, UInt32.le_iff_toNat_le, toNat_count_add_one ha]
  exact count_of_accepts ha

/-- What is held within its limit has one. -/
theorem limit_pos_of_held (h : s.WithinLimit) (hheld : s.held? = some item) : 0 < item.limit := by
  have hpos := word_toNat_ne_zero (count_ne_zero hheld)
  have hle := UInt32.le_iff_toNat_le.1 (h item hheld)
  rw [UInt32.lt_iff_toNat_lt, UInt32.toNat_zero]
  omega

theorem withinLimit_pull? (h : s.WithinLimit) (hp : s.pull? = some (item, t)) :
    t.WithinLimit := by
  obtain ⟨hheld, rfl⟩ := pull?_eq_some_iff.1 hp
  have hle := UInt32.le_iff_toNat_le.1 (h item hheld)
  have hsub := word_toNat_sub_one (count_ne_zero hheld)
  intro held hlater
  have hne : s.count - 1 ≠ 0 := count_ne_zero hlater
  rw [held?_used hne, Option.some.injEq] at hlater
  subst hlater
  rw [count_used, UInt32.le_iff_toNat_le, hsub]
  omega

theorem keeps_withinLimit : Keeps (fun _ => True) WithinLimit where
  add _ _ := withinLimit_add?
  pull hs hp := ⟨⟨trivial, limit_pos_of_held hs (held?_of_pull? hp)⟩, withinLimit_pull? hs hp⟩

end Stack

namespace Inventory

theorem withinLimits_of_isEmpty (h : inventory.isEmpty) : inventory.WithinLimits := by
  simp only [isEmpty, List.all_eq_true, Stack.isVacant, beq_iff_eq] at h
  intro s hs
  exact Stack.withinLimit_of_count (h s hs)

theorem withinLimits_chest : chest.WithinLimits :=
  withinLimits_of_isEmpty isEmpty_chest

theorem withinLimits_add? (hw : inventory.WithinLimits)
    (h : inventory.add? item = some inventory') : inventory'.WithinLimits :=
  every_add? Stack.keeps_withinLimit hw trivial h

end Inventory
end ChestMachine
