import Mathlib.Algebra.Ring.Nat
import ChestMachine.Proofs.Delivery

/-!
Places: how many more units of an item an inventory takes. Main statements: a unit that
is added takes one place, and a unit that is pulled frees one; and so many units of an
item fit exactly when there are as many places.
-/
namespace ChestMachine

namespace Stack

/-- How many more units of the item go into the slot. -/
def places (s : Stack) (item : Item) : Nat :=
  match s.held? with
  | none => item.limit.toNat
  | some held => if held == item then held.limit.toNat - s.count.toNat else 0

variable {s t : Stack} {item : Item}

theorem places_of_vacant (h : s.held? = none) (item : Item) : s.places item = item.limit.toNat := by
  simp only [places, h]

theorem places_of_held {held : Item} (h : s.held? = some held) (hsame : held == item) :
    s.places item = held.limit.toNat - s.count.toNat := by
  simp only [places, h, hsame, if_true]

theorem accepts_iff_places (s : Stack) (item : Item) : s.accepts item ↔ 0 < s.places item := by
  cases hs : s.held? with
  | none =>
      rw [places_of_vacant hs]
      simp only [accepts, hs, decide_eq_true_eq, UInt32.lt_iff_toNat_lt, UInt32.toNat_zero]
  | some held =>
      by_cases hsame : held == item
      · rw [places_of_held hs hsame]
        simp only [accepts, hs, hsame, isFull, Bool.true_and, Bool.not_eq_true',
          decide_eq_false_iff_not, UInt32.le_iff_toNat_le]
        omega
      · simp only [accepts, places, hs, hsame]
        simp

theorem places_add? (ha : s.accepts item) (h : s.add? item = some t) :
    t.places item + 1 = s.places item := by
  rw [add?_of_accepts ha, Option.some.injEq] at h
  subst h
  have hlt := count_of_accepts ha
  have hnext := toNat_count_add_one ha
  have hne := count_add_one_ne_zero ha
  cases hs : s.held? with
  | none =>
      have hcount : s.count.toNat = 0 := by rw [(held?_eq_none_iff s).1 hs, UInt32.toNat_zero]
      simp only [hs, Option.getD_none] at hlt ⊢
      rw [places_of_vacant hs, places_of_held (held?_used hne) BEq.rfl, count_used, hnext]
      omega
  | some held =>
      have hsame : held == item := by
        simp only [accepts, hs, Bool.and_eq_true] at ha
        exact ha.1
      simp only [hs, Option.getD_some] at hlt ⊢
      rw [places_of_held hs hsame, places_of_held (held?_used hne) hsame, count_used, hnext]
      omega

theorem places_pull? {rule : Item → Bool} (hs : s.obeys rule) (h : s.pull? = some (item, t)) :
    t.places item = s.places item + 1 := by
  obtain ⟨hheld, rfl⟩ := pull?_eq_some_iff.1 h
  have hne := count_ne_zero hheld
  have hpos := word_toNat_ne_zero hne
  have hsub := word_toNat_sub_one hne
  have hle := UInt32.le_iff_toNat_le.1 ((obeys_iff s).1 hs item hheld).1
  rw [places_of_held hheld BEq.rfl]
  by_cases hlast : s.count - 1 = 0
  · rw [hlast] at hsub ⊢
    rw [places_of_vacant rfl]
    rw [UInt32.toNat_zero] at hsub
    omega
  · rw [places_of_held (held?_used hlast) BEq.rfl, count_used, hsub]
    omega

end Stack

namespace Inventory

/-- How many more units of the item the inventory takes. -/
def places (inventory : Inventory) (item : Item) : Nat :=
  (inventory.slots.map (·.places item)).sum

variable {inventory inventory' : Inventory} {item : Item}

theorem add?_isSome_iff_places (inventory : Inventory) (item : Item) :
    (inventory.add? item).isSome ↔ 0 < inventory.places item := by
  rw [add?_isSome_iff, places, List.sum_pos_iff_exists_pos_nat]
  simp only [List.mem_map, Stack.accepts_iff_places]
  constructor
  · intro ⟨s, hs, hpos⟩
    exact ⟨_, ⟨s, hs, rfl⟩, hpos⟩
  · intro ⟨_, ⟨s, hs, rfl⟩, hpos⟩
    exact ⟨s, hs, hpos⟩

/-- A unit takes the place that it is put in. -/
theorem places_add? (h : inventory.add? item = some inventory') :
    inventory'.places item + 1 = inventory.places item := by
  obtain ⟨slots, hs, rfl⟩ := Option.map_eq_some_iff.1 h
  obtain ⟨front, s, t, back, hold, rfl, _, ha, ht⟩ := addTo?_split hs
  have hone := Stack.places_add? ha ht
  simp only [places, hold, List.map_append, List.map_cons, List.sum_append, List.sum_cons]
  omega

/-- A unit that is pulled leaves its place free. -/
theorem places_pullWanted? {rule : Item → Bool} {wanted : Item → Bool}
    (hs : inventory.obeys rule) (h : inventory.pullWanted? wanted = some (item, inventory')) :
    inventory'.places item = inventory.places item + 1 := by
  obtain ⟨⟨i, slots⟩, hp, heq⟩ := Option.map_eq_some_iff.1 h
  cases heq
  obtain ⟨front, s, t, back, hold, rfl, _, _, hpull⟩ := pullFrom?_split hp
  rw [obeys_iff, hold] at hs
  have hone := Stack.places_pull? (hs s (List.mem_append_right _ List.mem_cons_self)) hpull
  simp only [places, hold, List.map_append, List.map_cons, List.sum_append, List.sum_cons]
  omega

/-- Units of one item fit as long as there are places. -/
theorem addAll?_replicate_isSome_iff (inventory : Inventory) (item : Item) (n : Nat) :
    (inventory.addAll? (List.replicate n item)).isSome ↔ n ≤ inventory.places item := by
  induction n generalizing inventory with
  | zero => exact ⟨fun _ => Nat.zero_le _, fun _ => rfl⟩
  | succ n ih =>
      have hfirst := add?_isSome_iff_places inventory item
      rw [List.replicate_succ, addAll?_cons]
      cases h : inventory.add? item with
      | none =>
          rw [h] at hfirst
          have hnone : ¬ 0 < inventory.places item := fun hpos => nomatch hfirst.2 hpos
          simp only [Option.bind_none, Option.isSome_none, Bool.false_eq_true, false_iff]
          omega
      | some next =>
          have hone := places_add? h
          rw [Option.bind_some, ih]
          omega

/-- Where one more unit of the key fits, a key that was pulled goes back twice. -/
theorem addAll?_pair_isSome_iff {rule : Item → Bool} (hs : inventory.obeys rule)
    (h : inventory.pull? = some (item, inventory')) :
    (inventory'.addAll? [item, item]).isSome ↔ (inventory.add? item).isSome := by
  have hplaces := places_pullWanted? hs h
  have htwo := addAll?_replicate_isSome_iff inventory' item 2
  rw [add?_isSome_iff_places]
  exact htwo.trans (by omega)

theorem countOf_addAll?_pair {twice : Inventory} (h : inventory.pull? = some (item, inventory'))
    (htwice : inventory'.addAll? [item, item] = some twice) (x : Item) :
    twice.countOf x = inventory.countOf x + if item == x then 1 else 0 := by
  rw [countOf_addAll? htwice x, countOf_pull? h x, List.countP_cons, List.countP_singleton]
  omega

/-- How an item stacks does not matter where some unit of it goes in. -/
theorem places_pos_of_beq {other : Item} (hsame : item == other) (hstacks : 0 < other.limit)
    (h : 0 < inventory.places item) : 0 < inventory.places other := by
  rw [← add?_isSome_iff_places, add?_isSome_iff] at h ⊢
  obtain ⟨s, hs, ha⟩ := h
  refine ⟨s, hs, ?_⟩
  cases hheld : s.held? with
  | none => simpa only [Stack.accepts, hheld] using decide_eq_true hstacks
  | some held =>
      simp only [Stack.accepts, hheld] at ha ⊢
      rwa [← BEq.congr_right hsame]

end Inventory
end ChestMachine
