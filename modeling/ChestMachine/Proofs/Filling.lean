import ChestMachine.Proofs.Layout

/-!
Filling inventories. Main statements: what fits and what does not add up to all units
that were offered, and no slot accepts what does not fit when its turn comes; an inventory
without gaps has none after it has been filled; tight rows are what their units make in an
empty inventory; and units make the same rows in every empty inventory with enough slots.
-/
namespace ChestMachine

theorem Stack.length_units_add? {s t : Stack} {item : Item} (ha : s.accepts item)
    (h : s.add? item = some t) : t.units.length = s.units.length + 1 := by
  rw [add?_of_accepts ha, Option.some.injEq] at h
  rw [length_units, length_units, ← h, count_used, toNat_count_add_one ha]

namespace Inventory

theorem totalCount_add? {inventory inventory' : Inventory} {item : Item}
    (h : inventory.add? item = some inventory') :
    inventory'.totalCount = inventory.totalCount + 1 := by
  obtain ⟨slots, hs, rfl⟩ := Option.map_eq_some_iff.1 h
  obtain ⟨front, s, t, back, hold, rfl, _, ha, ht⟩ := addTo?_split hs
  simp only [← length_units, units, hold, List.flatMap_append, List.flatMap_cons,
    List.length_append, Stack.length_units_add? ha ht]
  omega

theorem totalCount_fill (items : List Item) (target : Inventory) :
    (target.fill items).totalCount + (refusals items target).length =
      target.totalCount + items.length := by
  induction items generalizing target with
  | nil => rfl
  | cons item rest ih =>
      cases h : target.add? item with
      | some next =>
          have := ih next
          simp only [fill_cons_some _ h, refusals, h, List.length_cons]
          rw [totalCount_add? h] at this
          omega
      | none =>
          have := ih target
          simp only [fill_cons_none _ h, refusals, h, List.length_cons]
          omega

theorem totalCount_fill_of_isEmpty {target : Inventory} (he : target.isEmpty)
    (items : List Item) :
    (target.fill items).totalCount + (refusals items target).length = items.length := by
  rw [totalCount_fill, ← length_units target, (isEmpty_iff target).1 he, List.length_nil,
    Nat.zero_add]

theorem isEmpty_fill_of_fit {target : Inventory} {items : List Item} (he : target.isEmpty)
    (h : refusals items target = []) : (target.fill items).isEmpty ↔ items = [] := by
  have htotal := totalCount_fill_of_isEmpty he items
  rw [h, List.length_nil, Nat.add_zero] at htotal
  rw [isEmpty_iff, ← List.length_eq_zero_iff, length_units, htotal, List.length_eq_zero_iff]

theorem length_refusals_le (items : List Item) (target : Inventory) :
    (refusals items target).length ≤ items.length := by
  induction items generalizing target with
  | nil => exact Nat.le_refl 0
  | cons item rest ih =>
      cases h : target.add? item with
      | some next =>
          simp only [refusals, h]
          exact Nat.le_succ_of_le (ih next)
      | none =>
          simp only [refusals, h]
          exact Nat.succ_le_succ (ih target)

theorem refused_deliver (items : List Item) (target : Inventory) :
    (deliver items target).refused = (refusals items target).length := by
  induction items generalizing target with
  | nil => rfl
  | cons item rest ih =>
      cases h : target.add? item with
      | some next => simp only [deliver, refusals, h, ih]
      | none => simp only [deliver, refusals, h, ih, List.length_cons]

/-- The units are offered one after the other. Some are taken, and those that no slot accepts
by then are lost. -/
inductive Offers : Inventory → List Item → List Item → List Item → Inventory → Prop where
  | done (target : Inventory) : Offers target [] [] [] target
  | takes {target next last : Inventory} {unit : Item} {units taken lost : List Item} :
      target.add? unit = some next → Offers next units taken lost last →
      Offers target (unit :: units) (unit :: taken) lost last
  | loses {target last : Inventory} {unit : Item} {units taken lost : List Item} :
      (∀ s ∈ target.slots, ¬ s.accepts unit) → Offers target units taken lost last →
      Offers target (unit :: units) taken (unit :: lost) last

theorem offers_fill (units : List Item) (target : Inventory) :
    ∃ taken, Offers target units taken (refusals units target) (target.fill units) := by
  induction units generalizing target with
  | nil => exact ⟨[], .done target⟩
  | cons unit rest ih =>
      cases h : target.add? unit with
      | some next =>
          obtain ⟨taken, hoffers⟩ := ih next
          simp only [refusals, h, fill_cons_some _ h]
          exact ⟨unit :: taken, .takes h hoffers⟩
      | none =>
          obtain ⟨taken, hoffers⟩ := ih target
          have hfull : ∀ s ∈ target.slots, ¬ s.accepts unit := by
            intro s hs ha
            have hsome := (add?_isSome_iff target unit).2 ⟨s, hs, ha⟩
            rw [h] at hsome
            cases hsome
          simp only [refusals, h, fill_cons_none _ h]
          exact ⟨taken, .loses hfull hoffers⟩

/-- What is in the inventory in the end was there before or has been taken. -/
theorem countOf_of_offers {target last : Inventory} {units taken lost : List Item}
    (h : Offers target units taken lost last) (x : Item) :
    last.countOf x = target.countOf x + taken.countP (· == x) := by
  induction h with
  | done target => rfl
  | takes hadd _ ih =>
      rw [ih, countOf_add? hadd, List.countP_cons]
      omega
  | loses _ _ ih => exact ih

variable {rows : Rows} {size : Nat}

/-- Filling an inventory without gaps leaves none, whatever does not fit. -/
theorem fill_ofRows {P : Item → Prop} {items : List Item} (hs : Rows.Stocked rows)
    (ht : Rows.Tight rows) (hl : rows.length ≤ size) (hp : ∀ row ∈ rows, P row.1)
    (hi : ∀ item ∈ items, P item) :
    ∃ rows', (ofRows size rows).fill items = ofRows size rows' ∧ Rows.Stocked rows' ∧
      Rows.Tight rows' ∧ rows'.length ≤ size ∧ ∀ row ∈ rows', P row.1 := by
  induction items generalizing rows with
  | nil => exact ⟨rows, rfl, hs, ht, hl, hp⟩
  | cons item rest ih =>
      obtain ⟨hitem, hrest⟩ := List.forall_mem_cons.1 hi
      have hadd : (ofRows size rows).add? item = _ := add?_ofRows hs
      by_cases hf : Rows.fits size item rows
      · rw [if_pos hf] at hadd
        rw [fill_cons_some _ hadd]
        refine ih (Rows.stocked_place hs hf) (Rows.tight_place ht) (Rows.length_place_le hf hl) ?_
          hrest
        intro row hrow
        cases Rows.placed_of_mem hrow with
        | kept hm => exact hp _ hm
        | @raised old hm _ => exact hp old hm
        | opened _ => exact hitem
      · rw [if_neg hf] at hadd
        rw [fill_cons_none _ hadd]
        exact ih hs ht hl hp hrest

theorem fill_empty {P : Item → Prop} {items : List Item} (size : Nat)
    (hi : ∀ item ∈ items, P item) :
    ∃ rows, (empty size).fill items = ofRows size rows ∧ Rows.Stocked rows ∧
      Rows.Tight rows ∧ rows.length ≤ size ∧ ∀ row ∈ rows, P row.1 := by
  rw [← ofRows_nil]
  exact fill_ofRows Rows.stocked_nil .nil (Nat.zero_le size) nofun hi

theorem stocked_items_fill (size : Nat) (items : List Item) :
    Rows.Stocked ((empty size).fill items).items := by
  obtain ⟨rows, hrows, hstocked, _⟩ := fill_empty (P := fun _ => True) size fun item _ => trivial
  rw [hrows, items_ofRows hstocked]
  exact hstocked

theorem refusals_units (hs : Rows.Stocked rows) (hl : rows.length ≤ size) :
    refusals (Rows.units rows) (empty size) = [] := by
  obtain ⟨rows', hall, _⟩ := addAll?_units_of_stocked hs hl
  exact (addAll?_eq_some_iff.1 hall).1

/-- Tight rows are what their units make when they fill an empty inventory. -/
theorem addAll?_units_of_tight (hs : Rows.Stocked rows) (ht : Rows.Tight rows)
    (hl : rows.length ≤ size) :
    (empty size).addAll? (Rows.units rows) = some (ofRows size rows) := by
  have hstow : Rows.stow? size (Rows.units rows) [] = some rows := by
    apply Rows.stow?_units_of_tight hs ht (fun _ _ => rfl)
    rwa [List.length_nil, Nat.zero_add]
  rw [addAll?_empty, hstow, Option.map_some]

/-- So it is with whatever an empty inventory was filled with. -/
theorem addAll?_units_fill (size : Nat) (items : List Item) :
    (empty size).addAll? ((empty size).fill items).units = some ((empty size).fill items) := by
  obtain ⟨rows, hrows, hs, ht, hl, _⟩ := fill_empty (P := fun _ => True) size fun item _ => trivial
  rw [hrows, units_eq_units_items, items_ofRows hs]
  exact addAll?_units_of_tight hs ht hl

/-- Filling an empty inventory leaves nothing to repack. -/
theorem repacked_fill (size : Nat) (items : List Item) :
    ((empty size).fill items).repacked = (empty size).fill items := by
  rw [repacked, size_fill, size_empty]
  exact (addAll?_eq_some_iff.1 (addAll?_units_fill size items)).2

/-- Wherever there is a slot for each slot that they are in, the units make the rows that
they make when they are repacked. -/
theorem addAll?_units_of_items_le {rule : Item → Bool} {inventory : Inventory}
    (h : inventory.obeys rule) (hl : inventory.items.length ≤ size) :
    (empty size).addAll? inventory.units = some (ofRows size inventory.repacked.items) := by
  obtain ⟨hnone, _, _, hlen⟩ := repacked_spec h
  have hall : (empty inventory.size).addAll? inventory.units = some inventory.repacked :=
    addAll?_eq_some_iff.2 ⟨hnone, rfl⟩
  rw [addAll?_empty, Option.map_eq_some_iff] at hall
  obtain ⟨rows, hrows, hrepacked⟩ := hall
  have hitems : inventory.repacked.items = rows := by
    rw [← hrepacked, items_ofRows (Rows.stocked_stow? hrows Rows.stocked_nil)]
  rw [hitems] at hlen ⊢
  rw [addAll?_empty, Rows.stow?_of_length_le hrows (Nat.le_trans hlen hl), Option.map_some]

/-- An empty inventory takes as many units as it has slots. -/
theorem le_totalCount_fill {key : Item} (h : 0 < key.limit) {k n : Nat} (hn : k ≤ n)
    (hk : k ≤ size) : k ≤ ((empty size).fill (List.replicate n key)).totalCount := by
  obtain ⟨later, rfl⟩ := Nat.exists_eq_add_of_le hn
  have hstacks : ∀ item ∈ List.replicate k key, 0 < item.limit := by
    intro item hitem
    rwa [List.eq_of_mem_replicate hitem]
  have hroom : ([] : Rows).length + (List.replicate k key).length ≤ size := by
    rwa [List.length_nil, Nat.zero_add, List.length_replicate]
  obtain ⟨rows', hrows⟩ := Rows.stow?_of_room hstacks hroom
  have hall : (empty size).addAll? (List.replicate k key) = some (ofRows size rows') := by
    rw [addAll?_empty, hrows, Option.map_some]
  obtain ⟨hnone, hfill⟩ := addAll?_eq_some_iff.1 hall
  have hfront := totalCount_fill (List.replicate k key) (empty size)
  have hback := totalCount_fill (List.replicate later key) (ofRows size rows')
  have hle := length_refusals_le (List.replicate later key) (ofRows size rows')
  rw [hnone, hfill, List.length_replicate, List.length_nil] at hfront
  rw [← List.replicate_append_replicate, fill_append, hfill]
  omega

end Inventory
end ChestMachine
