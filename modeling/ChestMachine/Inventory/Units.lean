import ChestMachine.Inventory.Transfer

/-!
The units of an inventory in scan order, as a view of it. Main statements:
pulling takes the first unit of the view, counting units counts the view, and
adding gains one unit exactly when some slot accepts it.
-/
namespace ChestMachine

namespace Stack

theorem length_units (s : Stack) : s.units.length = s.count.toNat := by
  cases s with
  | fresh => rfl
  | used item n =>
      by_cases h : n = 0 <;> simp [units, held?, h]

theorem units_eq_nil_iff (s : Stack) : s.units = [] ↔ s.count = 0 := by
  rw [← List.length_eq_zero_iff, length_units, ← UInt32.toNat_inj]
  rfl

theorem units_of_pull? {s t : Stack} {item : Item} (h : s.pull? = some (item, t)) :
    s.units = item :: t.units := by
  cases s with
  | fresh => simp [pull?] at h
  | used held n =>
      by_cases hn : n = 0
      · simp [pull?, hn] at h
      · simp only [pull?, hn, if_false, Option.some.injEq, Prod.mk.injEq] at h
        obtain ⟨rfl, rfl⟩ := h
        have hpos : n.toNat ≠ 0 := fun h0 => hn (UInt32.toNat_inj.1 h0)
        have hle : (1 : UInt32) ≤ n := by
          rw [UInt32.le_iff_toNat_le]
          exact Nat.one_le_iff_ne_zero.2 hpos
        have hsub : (n - 1).toNat = n.toNat - 1 := UInt32.toNat_sub_of_le n 1 hle
        have hrep : List.replicate n.toNat held = held :: List.replicate (n - 1).toNat held := by
          rw [hsub, ← List.replicate_succ, Nat.sub_add_cancel (Nat.one_le_iff_ne_zero.2 hpos)]
        by_cases h1 : n - 1 = 0
        · simpa [units, held?, hn, h1] using hrep
        · simpa [units, held?, hn, h1] using hrep

/-- A stack takes what it accepts; the count does not pass the limit. -/
theorem add?_of_accepts {s : Stack} {item : Item} (h : s.accepts item) :
    s.add? item = some (.used (s.held?.getD item) (s.count + 1)) := by
  unfold accepts at h
  unfold add?
  cases hs : s.held? with
  | none =>
      simp only [hs, decide_eq_true_eq, UInt32.lt_iff_toNat_lt] at h
      have hc := (held?_eq_none_iff s).1 hs
      have : ¬ item.limit < s.count + 1 := by
        rw [UInt32.lt_iff_toNat_lt, hc]
        simpa using Nat.ne_of_gt h
      simp [this]
  | some held =>
      simp only [hs, isFull, Bool.and_eq_true, Bool.not_eq_true', decide_eq_false_iff_not,
        UInt32.not_le, UInt32.lt_iff_toNat_lt] at h
      have hlt := held.limit.toNat_lt
      have : ¬ held.limit < s.count + 1 := by
        rw [UInt32.lt_iff_toNat_lt, UInt32.toNat_add, UInt32.toNat_one]
        omega
      simp [h.1, this]

end Stack

namespace Inventory

@[simp] theorem units_empty (size : Nat) : (empty size).units = [] := by
  induction size with
  | zero => rfl
  | succ size ih => simp [empty, units, Stack.units, Stack.held?]

theorem length_flatMap_units (slots : List Stack) :
    (slots.flatMap Stack.units).length = countAll slots := by
  induction slots with
  | nil => rfl
  | cons s rest ih =>
      rw [List.flatMap_cons, List.length_append, Stack.length_units, ih, countAll, countAll,
        List.foldr_cons]

theorem length_units (inventory : Inventory) :
    inventory.units.length = inventory.totalCount :=
  length_flatMap_units inventory.slots

theorem isEmpty_iff (inventory : Inventory) : inventory.isEmpty ↔ inventory.units = [] := by
  simp [isEmpty, units, Stack.isVacant, Stack.units_eq_nil_iff]

theorem flatMap_units_of_pullFrom? {item : Item} {slots slots' : List Stack}
    (h : pullFrom? (fun _ => true) slots = some (item, slots')) :
    slots.flatMap Stack.units = item :: slots'.flatMap Stack.units := by
  induction slots generalizing slots' with
  | nil => simp [pullFrom?] at h
  | cons s rest ih =>
      simp only [pullFrom?] at h
      split at h
      · rename_i found s' hs
        simp only [if_true, Option.some.injEq, Prod.mk.injEq] at h
        obtain ⟨rfl, rfl⟩ := h
        simp [Stack.units_of_pull? hs]
      · rename_i hs
        simp only [Option.map_eq_some_iff, Prod.mk.injEq] at h
        obtain ⟨⟨i, r⟩, hr, rfl, rfl⟩ := h
        have hv := (Stack.units_eq_nil_iff s).2 ((Stack.pull?_eq_none_iff s).1 hs)
        simp [ih hr, hv]

theorem pullFrom?_eq_none_iff (slots : List Stack) :
    pullFrom? (fun _ => true) slots = none ↔ slots.flatMap Stack.units = [] := by
  induction slots with
  | nil => simp [pullFrom?]
  | cons s rest ih =>
      simp only [pullFrom?]
      split
      · rename_i found s' hs
        simp [Stack.units_of_pull? hs]
      · rename_i hs
        have hv := (Stack.units_eq_nil_iff s).2 ((Stack.pull?_eq_none_iff s).1 hs)
        simpa [hv] using ih

theorem units_of_pull? {inventory inventory' : Inventory} {item : Item}
    (h : inventory.pull? = some (item, inventory')) :
    inventory.units = item :: inventory'.units := by
  simp only [pull?, pullWanted?, Option.map_eq_some_iff, Prod.mk.injEq] at h
  obtain ⟨⟨i, slots⟩, hs, rfl, rfl⟩ := h
  exact flatMap_units_of_pullFrom? hs

theorem pull?_eq_none_iff (inventory : Inventory) :
    inventory.pull? = none ↔ inventory.units = [] := by
  simp only [pull?, pullWanted?, Option.map_eq_none_iff]
  exact pullFrom?_eq_none_iff inventory.slots

/-- Pulling many units splits the view. -/
theorem pullMany_units (n : Nat) (inventory : Inventory) :
    (inventory.pullMany n).1 = inventory.units.take n ∧
      (inventory.pullMany n).2.units = inventory.units.drop n := by
  induction n generalizing inventory with
  | zero => simp [pullMany]
  | succ n ih =>
      simp only [pullMany]
      split
      · rename_i h
        simp [(pull?_eq_none_iff inventory).1 h]
      · rename_i item rest h
        simp [units_of_pull? h, ih rest]

@[simp] theorem fst_pullAll (inventory : Inventory) :
    inventory.pullAll.1 = inventory.units := by
  simp [pullAll, (pullMany_units _ inventory).1, ← length_units]

@[simp] theorem units_snd_pullAll (inventory : Inventory) :
    inventory.pullAll.2.units = [] := by
  simp [pullAll, (pullMany_units _ inventory).2, ← length_units]

theorem isEmpty_chest : chest.isEmpty := rfl

theorem isEmpty_pullAll (inventory : Inventory) : inventory.pullAll.2.isEmpty := by
  rw [isEmpty_iff, units_snd_pullAll]

theorem addTo?_isSome_iff (item : Item) (slots : List Stack) :
    (addTo? item slots).isSome ↔ ∃ s ∈ slots, s.accepts item := by
  induction slots with
  | nil => simp [addTo?]
  | cons s rest ih =>
      by_cases h : s.accepts item
      · simp [addTo?, h, Stack.add?_of_accepts h]
      · simp [addTo?, h, ih]

theorem add?_isSome_iff (inventory : Inventory) (item : Item) :
    (inventory.add? item).isSome ↔ ∃ s ∈ inventory.slots, s.accepts item := by
  simp only [add?, Option.isSome_map]
  exact addTo?_isSome_iff item inventory.slots

end Inventory
end ChestMachine
