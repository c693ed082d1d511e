import ChestMachine.Proofs.Filling
import ChestMachine.Proofs.Pulling

/-!
Putting back what was taken out. Main statements: what a complete transfer leaves of its
source are slots without units; units that take just the slots that others were in
leave no trace of these; and units of one item that were pulled go back to where they
were.
-/
namespace ChestMachine

namespace Stack

/-- The slot without its units, which remembers the item. -/
def emptied : Stack → Stack
  | .fresh => .fresh
  | .used item _ => .used item 0

theorem count_emptied (s : Stack) : s.emptied.count = 0 := by
  cases s <;> rfl

theorem emptied_of_vacant {s : Stack} (h : s.count = 0) : s.emptied = s := by
  cases s with
  | fresh => rfl
  | used item n => exact congrArg (used item) h.symm

theorem emptied_eq_lowered {s : Stack} {k : Nat} (h : s.count.toNat ≤ k) :
    s.lowered k = s.emptied := by
  cases s with
  | fresh => rfl
  | used item n =>
      rw [count_used] at h
      rw [lowered, Nat.sub_eq_zero_of_le h]
      rfl

theorem stack_pour {s : Stack} {quota : Option Nat} {target : Inventory}
    (h : (s.pour quota target).stack.count = 0) : (s.pour quota target).stack = s.emptied := by
  cases s with
  | fresh => rfl
  | used item n => exact congrArg (used item) h

end Stack

namespace Inventory

def emptied (inventory : Inventory) : Inventory :=
  ⟨inventory.slots.map Stack.emptied⟩

@[simp] theorem size_emptied (inventory : Inventory) : inventory.emptied.size = inventory.size := by
  simp [emptied, size]

theorem emptied_of_isEmpty {inventory : Inventory} (h : inventory.isEmpty) :
    inventory.emptied = inventory := by
  simp only [isEmpty, List.all_eq_true, Stack.isVacant, beq_iff_eq] at h
  obtain ⟨slots⟩ := inventory
  have hslots := List.map_congr_left fun s hs => Stack.emptied_of_vacant (h s hs)
  rw [List.map_id'] at hslots
  exact congrArg Inventory.mk hslots

theorem isEmpty_emptied (inventory : Inventory) : inventory.emptied.isEmpty := by
  simp only [isEmpty, emptied, List.all_eq_true, Stack.isVacant, beq_iff_eq]
  intro s hs
  obtain ⟨t, _, rfl⟩ := List.mem_map.1 hs
  exact t.count_emptied

theorem withoutFrom_eq_emptied {slots : List Stack} {k : Nat}
    (h : (slots.flatMap Stack.units).length ≤ k) :
    withoutFrom k slots = slots.map Stack.emptied := by
  induction slots generalizing k with
  | nil => rfl
  | cons s rest ih =>
      rw [List.flatMap_cons, List.length_append, Stack.length_units] at h
      rw [withoutFrom, List.map_cons, Stack.emptied_eq_lowered (by omega), ih (by omega)]

/-- All that is left when every unit has gone. -/
theorem without_eq_emptied {inventory : Inventory} {k : Nat} (h : inventory.units.length ≤ k) :
    inventory.without k = inventory.emptied :=
  congrArg Inventory.mk (withoutFrom_eq_emptied h)

theorem fst_pourAll_of_vacant {slots : List Stack} {quota : Option Nat} {target : Inventory}
    (h : ∀ s ∈ (pourAll slots quota target).1, s.count = 0) :
    (pourAll slots quota target).1 = slots.map Stack.emptied := by
  induction slots generalizing quota target with
  | nil => rfl
  | cons s rest ih =>
      obtain ⟨hs, hrest⟩ := List.forall_mem_cons.1 h
      exact congr (congrArg List.cons (Stack.stack_pour hs)) (ih hrest)

/-- A source that a transfer leaves without units is otherwise as it was. -/
theorem source_transfer_of_isComplete {source target : Inventory} {limit : Option Nat}
    (h : (source.transfer target limit).isComplete) :
    (source.transfer target limit).source = source.emptied := by
  simp only [Transfer.isComplete, isEmpty, List.all_eq_true, Stack.isVacant, beq_iff_eq] at h
  exact congrArg Inventory.mk (fst_pourAll_of_vacant h)

variable {rows : Rows} {size : Nat}

theorem addTo?_append_of_some {item : Item} {front front' : List Stack}
    (h : addTo? item front = some front') (back : List Stack) :
    addTo? item (front ++ back) = some (front' ++ back) := by
  induction front generalizing front' with
  | nil => cases h
  | cons s rest ih =>
      simp only [List.cons_append, addTo?] at h ⊢
      split at h
      · rename_i ha
        obtain ⟨t, ht, rfl⟩ := Option.map_eq_some_iff.1 h
        rw [if_pos ha, ht]
        rfl
      · rename_i ha
        obtain ⟨rest', hr, rfl⟩ := Option.map_eq_some_iff.1 h
        rw [if_neg ha, ih hr]
        rfl

/-- Units that fit into the first slots leave the others alone. -/
theorem addAll?_append_of_some {items : List Item} {front front' : List Stack}
    (h : addAll? ⟨front⟩ items = some ⟨front'⟩) (back : List Stack) :
    addAll? ⟨front ++ back⟩ items = some ⟨front' ++ back⟩ := by
  induction items generalizing front with
  | nil =>
      cases h
      rfl
  | cons item rest ih =>
      rw [addAll?_cons, Option.bind_eq_some_iff] at h
      obtain ⟨next, hadd, hrest⟩ := h
      obtain ⟨mid, hmid, rfl⟩ := Option.map_eq_some_iff.1 hadd
      have hfirst : add? ⟨front ++ back⟩ item = some ⟨mid ++ back⟩ :=
        congrArg (Option.map Inventory.mk) (addTo?_append_of_some hmid back)
      rw [addAll?_cons, hfirst]
      exact ih hrest

/-- Where all slots are in use, there is nothing to remember. -/
theorem settled_eq_self {slots : List Stack} (h : ∀ s ∈ slots.map Stack.settled, s.count ≠ 0) :
    slots.map Stack.settled = slots := by
  have hslots : ∀ s ∈ slots, s.settled = s := by
    intro s hs
    have := h _ (List.mem_map_of_mem hs)
    rw [Stack.count_settled] at this
    exact Stack.settled_of_used this
  have hmap := List.map_congr_left hslots
  rwa [List.map_id'] at hmap

/-- Units that take just the slots that others were in before leave no trace of these. -/
theorem addAll?_emptied {old : Rows} (hs : Rows.Stocked rows) (ht : Rows.Tight rows)
    (hl : old.length = rows.length) :
    (ofRows size old).emptied.addAll? (Rows.units rows) = some (ofRows size rows) := by
  have hsettled : settled ⟨(old.map Stack.ofRow).map Stack.emptied⟩ = empty rows.length := by
    have := settled_of_isEmpty (isEmpty_emptied ⟨old.map Stack.ofRow⟩)
    rwa [size_emptied, Inventory.size, List.length_map, hl] at this
  have hall := addAll?_settled ⟨(old.map Stack.ofRow).map Stack.emptied⟩ (Rows.units rows)
  rw [hsettled, addAll?_units_of_tight hs ht (Nat.le_refl _)] at hall
  obtain ⟨⟨front⟩, hfront, hrows⟩ := Option.map_eq_some_iff.1 hall.symm
  have hslots : front.map Stack.settled = rows.map Stack.ofRow := by
    have := (Inventory.mk.inj hrows)
    rwa [Nat.sub_self, List.replicate_zero, List.append_nil] at this
  have hused : ∀ s ∈ front.map Stack.settled, s.count ≠ 0 := by
    rw [hslots]
    intro s hmem
    obtain ⟨row, hrow, rfl⟩ := List.mem_map.1 hmem
    exact (hs row hrow).1
  rw [← settled_eq_self hused, hslots] at hfront
  have hback : (List.replicate (size - old.length) Stack.fresh).map Stack.emptied =
      List.replicate (size - rows.length) .fresh := by
    rw [List.map_replicate, hl]
    rfl
  rw [emptied, ofRows, List.map_append, hback]
  exact addAll?_append_of_some hfront _

/-- An inventory that was filled and then emptied takes its units back, each into its slot. -/
theorem addAll?_emptied_fill (size : Nat) (items : List Item) :
    ((empty size).fill items).emptied.addAll? ((empty size).fill items).units =
      some ((empty size).fill items) := by
  obtain ⟨rows, hrows, hs, ht, _⟩ := fill_empty (P := fun _ => True) size fun item _ => trivial
  rw [hrows, units_eq_units_items, items_ofRows hs]
  exact addAll?_emptied hs ht rfl

/-- The first slot takes what it has a place for. -/
theorem addAll?_replicate_first {key : Item} {m j : Nat} (h : m + j ≤ key.limit.toNat)
    (rest : List Stack) :
    addAll? ⟨.used key (UInt32.ofNat m) :: rest⟩ (List.replicate j key) =
      some ⟨.used key (UInt32.ofNat (m + j)) :: rest⟩ := by
  induction j generalizing m with
  | zero => rfl
  | succ j ih =>
      have hmax := key.limit.toNat_lt
      have hlt : UInt32.ofNat m < key.limit := by
        rw [UInt32.lt_iff_toNat_lt, UInt32.toNat_ofNat', Nat.mod_eq_of_lt (by omega)]
        omega
      have hfirst : add? ⟨.used key (UInt32.ofNat m) :: rest⟩ key =
          some ⟨.used key (UInt32.ofNat (m + 1)) :: rest⟩ := by
        simp only [add?, addTo?, if_pos (Stack.accepts_used hlt), Stack.add?_used hlt,
          Option.map_some]
        rw [UInt32.ofNat_add m 1]
        rfl
      rw [List.replicate_succ, addAll?_cons, hfirst, Option.bind_some, ih (by omega),
        Nat.add_assoc, Nat.add_comm 1 j]

/-- A first slot that refuses the units stays as it is. -/
theorem addAll?_replicate_behind {key : Item} {s : Stack} (h : s.accepts key = false)
    {rest rest' : List Stack} {j : Nat}
    (hrest : addAll? ⟨rest⟩ (List.replicate j key) = some ⟨rest'⟩) :
    addAll? ⟨s :: rest⟩ (List.replicate j key) = some ⟨s :: rest'⟩ := by
  induction j generalizing rest with
  | zero =>
      cases hrest
      rfl
  | succ j ih =>
      rw [List.replicate_succ, addAll?_cons, Option.bind_eq_some_iff] at hrest ⊢
      obtain ⟨next, hadd, hlater⟩ := hrest
      obtain ⟨mid, hmid, rfl⟩ := Option.map_eq_some_iff.1 hadd
      refine ⟨⟨s :: mid⟩, ?_, ih hlater⟩
      simp only [add?, addTo?, h, Bool.false_eq_true, if_false, hmid, Option.map_some]

/-- Units of one item go back to the slots that they were pulled from, since all slots ahead
of the last one were full. -/
theorem addAll?_withoutFrom {key : Item} (hs : Rows.Stocked rows) (ht : Rows.Tight rows)
    (hkey : ∀ row ∈ rows, row.1 = key) (back : List Stack) {k : Nat}
    (hk : k ≤ (Rows.units rows).length) :
    addAll? ⟨withoutFrom k (rows.map Stack.ofRow ++ back)⟩ (List.replicate k key) =
      some ⟨rows.map Stack.ofRow ++ back⟩ := by
  induction rows generalizing k with
  | nil =>
      obtain rfl : k = 0 := Nat.le_zero.1 hk
      rw [withoutFrom_zero]
      rfl
  | cons row rest ih =>
      obtain ⟨item, count⟩ := row
      obtain ⟨hitem, hrest⟩ := List.forall_mem_cons.1 hkey
      obtain ⟨⟨hpos, hle⟩, hstocked⟩ := List.forall_mem_cons.1 hs
      obtain rfl : item = key := hitem
      have hle : count.toNat ≤ item.limit.toNat := UInt32.le_iff_toNat_le.1 hle
      have hcount : UInt32.ofNat count.toNat = count := UInt32.ofNat_toNat
      simp only [List.map_cons, List.cons_append, withoutFrom, Stack.ofRow, Stack.lowered,
        Stack.count_used]
      by_cases hfirst : k ≤ count.toNat
      · -- all of them came from the first slot
        rw [Nat.sub_eq_zero_of_le hfirst, withoutFrom_zero,
          addAll?_replicate_first (by omega), Nat.sub_add_cancel hfirst, hcount]
      · obtain ⟨j, rfl⟩ := Nat.exists_eq_add_of_le (Nat.le_of_not_le hfirst)
        have hlater : j ≤ (Rows.units rest).length := by
          rw [Rows.units, List.flatMap_cons, List.length_append, List.length_replicate] at hk
          exact Nat.le_of_add_le_add_left hk
        have hne : rest ≠ [] := by
          rintro rfl
          rw [Nat.le_zero.1 hlater] at hfirst
          exact hfirst (Nat.le_refl _)
        have hrefuses := Stack.accepts_used_of_full hpos (Rows.full_of_tight ht hrest hne) item
        rw [Nat.sub_eq_zero_of_le (Nat.le_add_right _ _), Nat.add_sub_cancel_left,
          ← List.replicate_append_replicate, addAll?_append, addAll?_replicate_first (by omega),
          Nat.zero_add, hcount, Option.bind_some]
        exact addAll?_replicate_behind hrefuses
          (ih hstocked (List.pairwise_cons.1 ht).2 hrest hlater)

/-- A unit that is pulled from the first row can be put straight back. -/
theorem pullWanted?_ofRows {row : Item × UInt32} (hs : Rows.Stocked (row :: rows))
    {wanted : Item → Bool} (hw : wanted row.1) :
    ∃ mid, (ofRows size (row :: rows)).pullWanted? wanted = some (row.1, mid) ∧
      mid.add? row.1 = some (ofRows size (row :: rows)) := by
  obtain ⟨item, count⟩ := row
  obtain ⟨⟨hpos, hle⟩, _⟩ := List.forall_mem_cons.1 hs
  have hlt : count - 1 < item.limit := by
    have hne := word_toNat_ne_zero hpos
    have hle := UInt32.le_iff_toNat_le.1 hle
    rw [UInt32.lt_iff_toNat_lt, word_toNat_sub_one hpos]
    exact Nat.lt_of_lt_of_le (Nat.sub_one_lt hne) hle
  have hpull : (Stack.used item count).pull? = some (item, .used item (count - 1)) :=
    if_neg hpos
  refine ⟨⟨.used item (count - 1) :: (ofRows size ((item, count) :: rows)).slots.tail⟩, ?_, ?_⟩
  · have hw : wanted item = true := hw
    simp only [pullWanted?, ofRows, List.map_cons, List.cons_append, Stack.ofRow, pullFrom?, hpull,
      hw, if_true, Option.map_some, List.tail_cons]
  · simp only [add?, addTo?, if_pos (Stack.accepts_used hlt), Stack.add?_used hlt,
      Option.map_some, UInt32.sub_add_cancel]
    rfl

section Replicate

variable (size n : Nat) (key : Item)

theorem units_fill_replicate :
    ∀ unit ∈ ((empty size).fill (List.replicate n key)).units, unit = key := by
  obtain ⟨rows, hrows, hs, _, _, hkey⟩ :=
    fill_empty (P := (· = key)) size fun item h => List.eq_of_mem_replicate h
  rw [hrows, units_eq_units_items, items_ofRows hs]
  intro unit hunit
  obtain ⟨row, hrow, hmem⟩ := List.mem_flatMap.1 hunit
  rw [List.eq_of_mem_replicate hmem]
  exact hkey row hrow

theorem addAll?_without_fill {k : Nat}
    (hk : k ≤ ((empty size).fill (List.replicate n key)).units.length) :
    (((empty size).fill (List.replicate n key)).without k).addAll? (List.replicate k key) =
      some ((empty size).fill (List.replicate n key)) := by
  obtain ⟨rows, hrows, hs, ht, _, hkey⟩ :=
    fill_empty (P := (· = key)) size fun item h => List.eq_of_mem_replicate h
  rw [hrows, units_eq_units_items, items_ofRows hs] at hk
  rw [hrows]
  exact addAll?_withoutFrom hs ht hkey _ hk

end Replicate

end Inventory
end ChestMachine
