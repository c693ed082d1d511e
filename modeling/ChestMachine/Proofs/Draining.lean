import Mathlib.Data.List.Basic
import ChestMachine.Proofs.Filling
import ChestMachine.Proofs.Pulling

/-!
Transfers that lose nothing. Main statements: where the units fit, a limit lets the first
of them through and leaves the others where they are; and an empty inventory with a slot
for each slot in use takes them all, without gaps and with full slots ahead of further ones
of the same item, which is how another empty inventory takes them again.
-/
namespace ChestMachine

namespace Stack

theorem pourUnits_some_of_fit {item : Item} {n quota : Nat} {target : Inventory}
    (h : Inventory.refusals (List.replicate (min n quota) item) target = []) :
    pourUnits item n (some quota) target =
      (n - quota, some (quota - n), target.fill (List.replicate (min n quota) item)) := by
  induction n generalizing quota target with
  | zero =>
      rw [Nat.zero_min, Nat.zero_sub]
      rfl
  | succ n ih =>
      cases quota with
      | zero =>
          rw [Nat.min_zero, Nat.zero_sub]
          rfl
      | succ quota =>
          rw [Nat.succ_min_succ, List.replicate_succ] at h ⊢
          cases hadd : target.add? item with
          | none =>
              simp only [Inventory.refusals, hadd] at h
              cases h
          | some next =>
              simp only [Inventory.refusals, hadd] at h
              simp only [pourUnits, hadd, Option.map_some, Nat.add_sub_cancel, ih h,
                Inventory.fill_cons_some _ hadd, Nat.add_sub_add_right]

theorem pour_some_of_fit {s : Stack} {quota : Nat} {target : Inventory}
    (h : Inventory.refusals (s.units.take quota) target = []) :
    s.pour (some quota) target =
      ⟨s.lowered quota, some (quota - s.count.toNat), target.fill (s.units.take quota)⟩ := by
  cases s with
  | fresh =>
      show _ = (⟨.fresh, some (quota - 0), target.fill (List.take quota [])⟩ : Poured)
      rw [List.take_nil]
      rfl
  | used item n =>
      rw [units_used, List.take_replicate, Nat.min_comm] at h ⊢
      simp only [pour, pourUnits_some_of_fit h]
      rfl

theorem withinLimit_lowered {s : Stack} (h : s.WithinLimit) (k : Nat) :
    (s.lowered k).WithinLimit := by
  cases s with
  | fresh => exact h
  | used item n =>
      have hcount : (UInt32.ofNat (n.toNat - k)).toNat = n.toNat - k :=
        toNat_count_lowered (.used item n) k
      intro held hheld
      have hne : UInt32.ofNat (n.toNat - k) ≠ 0 := count_ne_zero hheld
      have hpos := word_toNat_ne_zero hne
      rw [lowered, held?_used hne, Option.some.injEq] at hheld
      subst hheld
      have hn : n ≠ 0 := by
        rintro rfl
        rw [hcount, UInt32.toNat_zero] at hpos
        omega
      have hle := UInt32.le_iff_toNat_le.1 (h item (held?_used hn))
      rw [count_used] at hle
      rw [lowered, count_used, UInt32.le_iff_toNat_le, hcount]
      omega

end Stack

namespace Inventory

variable {source target inventory : Inventory} {rows : Rows} {size : Nat}

theorem refusals_take {units : List Item} (h : refusals units target = []) (n : Nat) :
    refusals (units.take n) target = [] := by
  rw [← List.take_append_drop n units, refusals_append] at h
  exact (List.append_eq_nil_iff.1 h).1

theorem pourAll_some_of_fit {slots : List Stack} {quota : Nat}
    (h : refusals ((slots.flatMap Stack.units).take quota) target = []) :
    pourAll slots (some quota) target =
      (withoutFrom quota slots, target.fill ((slots.flatMap Stack.units).take quota)) := by
  induction slots generalizing quota target with
  | nil =>
      rw [List.flatMap_nil, List.take_nil]
      rfl
  | cons s rest ih =>
      rw [List.flatMap_cons, List.take_append, Stack.length_units] at h ⊢
      rw [refusals_append] at h
      obtain ⟨hfirst, hlater⟩ := List.append_eq_nil_iff.1 h
      simp only [pourAll, Stack.pour_some_of_fit hfirst, ih hlater, withoutFrom, fill_append]

/-- Units that fit are moved in scan order, up to the limit. -/
theorem transfer_some_of_fit {n : Nat} (h : refusals (source.units.take n) target = []) :
    source.transfer target (some n) =
      ⟨source.without n, target.fill (source.units.take n)⟩ := by
  simp only [transfer, pourAll_some_of_fit h, without, units]

theorem withinLimits_without (h : inventory.WithinLimits) (k : Nat) :
    (inventory.without k).WithinLimits := by
  obtain ⟨slots⟩ := inventory
  simp only [WithinLimits, Every, without] at h ⊢
  induction slots generalizing k with
  | nil =>
      intro s hs
      cases hs
  | cons s rest ih =>
      obtain ⟨hs, hrest⟩ := List.forall_mem_cons.1 h
      exact List.forall_mem_cons.2 ⟨Stack.withinLimit_lowered hs k, ih _ hrest⟩

/-- What goes into a fresh inventory goes into an emptied one, and lies there as it would in
the fresh one. -/
theorem fill_of_isEmpty {units : List Item} (he : target.isEmpty)
    (h : (empty target.size).addAll? units = some inventory) :
    refusals units target = [] ∧ (target.fill units).settled = inventory := by
  rw [← settled_of_isEmpty he, addAll?_eq_some_iff, refusals_settled, fill_settled] at h
  exact h

/-- An empty inventory with a slot for each slot in use refuses nothing. -/
theorem exists_rows_of_isEmpty (hs : source.WithinLimits) (he : target.isEmpty)
    (hl : source.items.length ≤ target.size) :
    ∃ rows, refusals source.units target = [] ∧
      (target.fill source.units).settled = ofRows target.size rows ∧
      Rows.Stocked rows ∧ Rows.Tight rows ∧ rows.length ≤ source.items.length := by
  obtain ⟨rows, hall, hstocked, htight, hlen⟩ :=
    addAll?_units_of_stocked (stocked_of_withinLimits hs) hl
  rw [← units_eq_units_items] at hall
  obtain ⟨hnone, hfill⟩ := fill_of_isEmpty he hall
  exact ⟨rows, hnone, hfill, hstocked, htight, hlen⟩

theorem refusals_of_size_le (hs : source.WithinLimits) (he : target.isEmpty)
    (hl : source.size ≤ target.size) : refusals source.units target = [] := by
  obtain ⟨_, hnone, _⟩ :=
    exists_rows_of_isEmpty hs he (Nat.le_trans source.length_items_le_size hl)
  exact hnone

theorem items_of_settled (h : inventory.settled = ofRows size rows) (hs : Rows.Stocked rows) :
    inventory.items = rows := by
  rw [← items_settled, h, items_ofRows hs]

theorem occupied_settled (inventory : Inventory) :
    inventory.settled.occupied = inventory.occupied := by
  simp only [occupied, settled, List.zipIdx_map, List.filterMap_map]
  congr 1
  funext slot
  simp only [Function.comp_apply, Prod.map, id_eq, Stack.held?_settled, Stack.count_settled]

/-- Rows lie in the first slots, one in each. -/
theorem occupied_ofRows (hs : Rows.Stocked rows) (size : Nat) :
    (ofRows size rows).occupied = rows.zipIdx.map fun (row, index) => (index, row.1, row.2) := by
  simp only [occupied, ofRows, List.zipIdx_append, List.filterMap_append, List.zipIdx_map,
    List.filterMap_map]
  refine (congrArg₂ (· ++ ·) ?_ (List.filterMap_eq_nil_iff.2 ?_)).trans (List.append_nil _)
  · refine List.filterMap_eq_map_iff_forall_eq_some.2 ?_
    rintro ⟨row, index⟩ hrow
    have hpos := (hs row (List.fst_mem_of_mem_zipIdx hrow)).1
    simp only [Function.comp_apply, Prod.map, id_eq, Stack.ofRow, Stack.held?_used hpos,
      Option.map_some, Stack.count_used]
  · rintro ⟨slot, index⟩ hslot
    rw [List.eq_of_mem_replicate (List.fst_mem_of_mem_zipIdx hslot)]
    rfl

/-- The slots in use are the first ones, and an item goes on in a further slot only behind full
ones. -/
structure Compact (inventory : Inventory) : Prop where
  first : inventory.occupied.map (·.1) = List.range inventory.items.length
  full : Rows.Tight inventory.items

/-- What becomes of a source that is transferred into an empty target. -/
structure Packs (source target : Inventory) : Prop where
  complete : (source.transfer target none).isComplete
  keeps : ∀ x, (source.transfer target none).target.countOf x = source.countOf x
  compact : (source.transfer target none).target.Compact
  length_le : (source.transfer target none).target.items.length ≤ source.items.length
  /-- Once more transferred, the units come to lie in the same slots. -/
  again : ∀ other : Inventory, other.isEmpty →
    (source.transfer target none).target.items.length ≤ other.size →
      ((source.transfer target none).target.transfer other none).isComplete ∧
        ((source.transfer target none).target.transfer other none).target.occupied =
          (source.transfer target none).target.occupied
  limited : ∀ n, (source.transfer target (some n)).target.totalCount = min n source.totalCount ∧
    ∀ x, (source.transfer target (some n)).source.countOf x +
      (source.transfer target (some n)).target.countOf x = source.countOf x

theorem compact_of_settled (h : inventory.settled = ofRows size rows) (hs : Rows.Stocked rows)
    (ht : Rows.Tight rows) : inventory.Compact where
  first := by
    rw [← occupied_settled, h, occupied_ofRows hs, items_of_settled h hs, List.map_map,
      List.range_eq_range', ← List.zipIdx_map_snd]
    rfl
  full := by rwa [items_of_settled h hs]

/-- Tight rows are transferred into the same slots of any empty inventory. -/
theorem transfer_of_settled (h : inventory.settled = ofRows size rows) (hs : Rows.Stocked rows)
    (ht : Rows.Tight rows) (he : target.isEmpty) (hl : rows.length ≤ target.size) :
    (inventory.transfer target none).isComplete ∧
      (inventory.transfer target none).target.occupied = inventory.occupied := by
  have hall := addAll?_units_of_tight hs ht hl
  rw [← items_of_settled h hs, ← units_eq_units_items, items_of_settled h hs] at hall
  obtain ⟨hnone, hfill⟩ := fill_of_isEmpty he hall
  refine ⟨isComplete_transfer_none hnone, ?_⟩
  rw [target_transfer_none, ← occupied_settled, hfill, ← occupied_settled inventory, h,
    occupied_ofRows hs, occupied_ofRows hs]

/-- As many units as the limit allows go into an empty target, if they fit. -/
theorem counts_transfer_some (he : target.isEmpty) (h : refusals source.units target = [])
    (n : Nat) :
    (source.transfer target (some n)).target.totalCount = min n source.totalCount ∧
      ∀ x, (source.transfer target (some n)).source.countOf x +
        (source.transfer target (some n)).target.countOf x = source.countOf x := by
  have hnone := refusals_take h n
  rw [transfer_some_of_fit hnone]
  refine ⟨?_, ?_⟩
  · have htotal := totalCount_fill_of_isEmpty he (source.units.take n)
    rwa [hnone, List.length_nil, Nat.add_zero, List.length_take, length_units] at htotal
  · intro x
    have hcount := countOf_fill_of_isEmpty he (source.units.take n) x
    rw [hnone, List.countP_nil, Nat.add_zero] at hcount
    dsimp only
    rw [hcount, countOf_eq_countP, units_without, Nat.add_comm, ← List.countP_append,
      List.take_append_drop, countOf_eq_countP]

/-- An empty inventory with a slot for each slot in use takes all units, or as many as a limit
allows, and packs them. -/
theorem transfer_packs (hs : source.WithinLimits) (he : target.isEmpty)
    (hl : source.items.length ≤ target.size) : Packs source target := by
  obtain ⟨rows, hnone, hfill, hstocked, htight, hlen⟩ := exists_rows_of_isEmpty hs he hl
  rw [← target_transfer_none] at hfill
  have hitems := items_of_settled hfill hstocked
  refine ⟨isComplete_transfer_none hnone, ?_, compact_of_settled hfill hstocked htight,
    by rwa [hitems], ?_, counts_transfer_some he hnone⟩
  · intro x
    have hcount := countOf_fill_of_isEmpty he source.units x
    rwa [hnone, List.countP_nil, Nat.add_zero, ← target_transfer_none, ← countOf_eq_countP]
      at hcount
  · intro other hempty hroom
    rw [hitems] at hroom
    exact transfer_of_settled hfill hstocked htight hempty hroom

end Inventory

namespace Hoard

/-- A gap, a slot that only remembers, and one item under two limits. -/
def source : Inventory :=
  ⟨[.fresh, .used ((Item.ofKind "stone").withLimit 2) 2, .used (.ofKind "ash") 0,
    .used (.ofKind "ash") 1, .used (.ofKind "stone") 3]⟩

/-- Three slots, two of which were in use before. -/
def target : Inventory :=
  ⟨[.fresh, .used (.ofKind "stone") 0, .used (.ofKind "ash") 0]⟩

/-- The stones that stack less fill their slot, and the others go into another one. -/
theorem hoard_packs :
    source.WithinLimits ∧ target.isEmpty ∧ source.items.length ≤ target.size ∧
      Inventory.Packs source target ∧
      (source.transfer target none).target.items =
        [((Item.ofKind "stone").withLimit 2, 2), (.ofKind "ash", 1), (.ofKind "stone", 3)] := by
  have hsound : source.Sound := rfl
  have hlimits := Inventory.withinLimits_of_obeys hsound
  exact ⟨hlimits, rfl, Nat.le_refl 3,
    Inventory.transfer_packs hlimits rfl (Nat.le_refl 3), rfl⟩

end Hoard
end ChestMachine
