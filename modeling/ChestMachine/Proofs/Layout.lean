import ChestMachine.Proofs.Rows

/-!
Inventories up to what vacant slots remember, and the inventories that rows
stand for. Main statements: adding does not see what vacant slots remember;
adding to an inventory without gaps places into its rows; and a pull takes its
unit from the first row.
-/
namespace ChestMachine
namespace Stack

/-- The stack with what it remembers of the past left out. -/
def settled (s : Stack) : Stack :=
  if s.isVacant then .fresh else s

def ofRow (row : Item × UInt32) : Stack :=
  .used row.1 row.2

theorem settled_of_vacant {s : Stack} (h : s.count = 0) : s.settled = .fresh := by
  simp [settled, isVacant, h]

theorem settled_of_used {s : Stack} (h : s.count ≠ 0) : s.settled = s := by
  simp [settled, isVacant, h]

@[simp] theorem count_settled (s : Stack) : s.settled.count = s.count := by
  by_cases h : s.count = 0
  · rw [settled_of_vacant h, h, count_fresh]
  · rw [settled_of_used h]

@[simp] theorem held?_settled (s : Stack) : s.settled.held? = s.held? := by
  by_cases h : s.count = 0
  · rw [settled_of_vacant h, (held?_eq_none_iff s).2 h]
    rfl
  · rw [settled_of_used h]

theorem accepts_settled (s : Stack) (item : Item) : s.settled.accepts item = s.accepts item := by
  simp only [accepts, isFull, held?_settled, count_settled]

theorem add?_settled (s : Stack) (item : Item) : s.settled.add? item = s.add? item := by
  simp only [add?, held?_settled, count_settled]

theorem settled_of_add? {s t : Stack} {item : Item} (ha : s.accepts item)
    (h : s.add? item = some t) : t.settled = t := by
  rw [add?_of_accepts ha, Option.some.injEq] at h
  subst h
  exact settled_of_used (count_add_one_ne_zero ha)

theorem accepts_ofRow {row : Item × UInt32} (h : row.2 ≠ 0) (item : Item) :
    (ofRow row).accepts item = Rows.takes item row := by
  simp only [accepts, ofRow, held?_used h, isFull, count_used, Rows.takes, ← UInt32.not_lt,
    decide_not, Bool.not_not]

theorem add?_ofRow {row : Item × UInt32} {item : Item} (h : row.2 ≠ 0)
    (ht : Rows.takes item row) : (ofRow row).add? item = some (ofRow (row.1, row.2 + 1)) := by
  rw [add?_of_accepts (by rw [accepts_ofRow h, ht])]
  simp only [ofRow, held?_used h, Option.getD_some, count_used]

end Stack

namespace Inventory

def settled (inventory : Inventory) : Inventory :=
  ⟨inventory.slots.map Stack.settled⟩

/-- So many slots, with the rows in the first of them. -/
def ofRows (size : Nat) (rows : Rows) : Inventory :=
  ⟨rows.map Stack.ofRow ++ List.replicate (size - rows.length) .fresh⟩

@[simp] theorem size_settled (inventory : Inventory) : inventory.settled.size = inventory.size := by
  simp [settled, size]

theorem ofRows_nil (size : Nat) : ofRows size [] = empty size := rfl

theorem addTo?_map_settled (item : Item) (slots : List Stack) :
    addTo? item (slots.map Stack.settled) = (addTo? item slots).map (·.map Stack.settled) := by
  induction slots with
  | nil => rfl
  | cons s rest ih =>
      simp only [List.map_cons, addTo?, Stack.accepts_settled, Stack.add?_settled, ih]
      split
      · rename_i ha
        rw [Stack.add?_of_accepts ha]
        simp only [Option.map_some, List.map_cons]
        rw [Stack.settled_of_add? ha (Stack.add?_of_accepts ha)]
      · cases addTo? item rest <;> rfl

theorem add?_settled (inventory : Inventory) (item : Item) :
    inventory.settled.add? item = (inventory.add? item).map settled := by
  simp only [add?, settled, addTo?_map_settled]
  cases addTo? item inventory.slots <;> rfl

theorem addAll?_settled (inventory : Inventory) (items : List Item) :
    inventory.settled.addAll? items = (inventory.addAll? items).map settled := by
  induction items generalizing inventory with
  | nil => rfl
  | cons item rest ih =>
      rw [addAll?_cons, addAll?_cons, add?_settled]
      cases inventory.add? item with
      | none => rfl
      | some next => exact ih next

theorem refusals_settled (items : List Item) (inventory : Inventory) :
    refusals items inventory.settled = refusals items inventory := by
  induction items generalizing inventory with
  | nil => rfl
  | cons item rest ih =>
      simp only [refusals, add?_settled]
      cases h : inventory.add? item with
      | none => simp only [Option.map_none, ih]
      | some next => simp only [Option.map_some, ih]

theorem fill_settled (items : List Item) (inventory : Inventory) :
    inventory.settled.fill items = (inventory.fill items).settled := by
  induction items generalizing inventory with
  | nil => rfl
  | cons item rest ih =>
      have hs := add?_settled inventory item
      cases h : inventory.add? item with
      | none =>
          rw [h] at hs
          rw [fill_cons_none _ h, fill_cons_none _ hs, ih]
      | some next =>
          rw [h] at hs
          rw [fill_cons_some _ h, fill_cons_some _ hs, ih]

variable {item : Item} {rows : Rows} {size : Nat}

theorem addTo?_ofRows_of_any (hs : Rows.Stocked rows) (h : rows.any (Rows.takes item))
    (tail : List Stack) :
    addTo? item (rows.map Stack.ofRow ++ tail) =
      some ((Rows.place item rows).map Stack.ofRow ++ tail) := by
  induction rows with
  | nil => cases h
  | cons row rest ih =>
      obtain ⟨⟨hpos, _⟩, hrest⟩ := List.forall_mem_cons.1 hs
      simp only [List.map_cons, List.cons_append, addTo?, Stack.accepts_ofRow hpos, Rows.place]
      by_cases ht : Rows.takes item row
      · rw [if_pos ht, if_pos ht, Stack.add?_ofRow hpos ht]
        rfl
      · rw [List.any_cons, Bool.eq_false_iff.2 ht, Bool.false_or] at h
        rw [if_neg ht, if_neg ht, ih hrest h]
        rfl

theorem addTo?_ofRows_of_none (hs : Rows.Stocked rows) (h : rows.any (Rows.takes item) = false)
    (tail : List Stack) :
    addTo? item (rows.map Stack.ofRow ++ tail) =
      (addTo? item tail).map (rows.map Stack.ofRow ++ ·) := by
  induction rows with
  | nil => cases h' : addTo? item tail <;> simp [h']
  | cons row rest ih =>
      obtain ⟨⟨hpos, _⟩, hrest⟩ := List.forall_mem_cons.1 hs
      rw [List.any_cons, Bool.or_eq_false_iff] at h
      simp only [List.map_cons, List.cons_append, addTo?, Stack.accepts_ofRow hpos, h.1,
        Bool.false_eq_true, if_false, ih hrest h.2]
      cases addTo? item tail <;> rfl

theorem addTo?_fresh (item : Item) (n : Nat) :
    addTo? item (List.replicate n .fresh) =
      if 0 < n ∧ 0 < item.limit then some (.used item 1 :: List.replicate (n - 1) .fresh)
      else none := by
  induction n with
  | zero => rfl
  | succ n ih =>
      have ha : Stack.fresh.accepts item = decide (0 < item.limit) := rfl
      simp only [List.replicate_succ, addTo?, ha]
      by_cases h : 0 < item.limit
      · simp only [h, decide_true, if_true, Nat.succ_pos, and_self]
        rw [Stack.add?_of_accepts (by rw [ha]; exact decide_eq_true h)]
        rfl
      · simp only [h, decide_false, Bool.false_eq_true, if_false, and_false, ih]
        rfl

/-- Adding to an inventory without gaps places into its rows. -/
theorem add?_ofRows (hs : Rows.Stocked rows) :
    (ofRows size rows).add? item =
      if Rows.fits size item rows then some (ofRows size (Rows.place item rows)) else none := by
  simp only [add?, ofRows]
  cases hany : rows.any (Rows.takes item) with
  | true =>
      rw [addTo?_ofRows_of_any hs hany, if_pos (by simp only [Rows.fits, hany, Bool.true_or])]
      rw [Rows.length_place, hany]
      rfl
  | false =>
      rw [addTo?_ofRows_of_none hs hany, addTo?_fresh]
      have hfits : Rows.fits size item rows ↔ 0 < size - rows.length ∧ 0 < item.limit := by
        simp only [Rows.fits, hany, Bool.false_or, Bool.and_eq_true, decide_eq_true_eq,
          Nat.sub_pos_iff_lt]
      by_cases h : 0 < size - rows.length ∧ 0 < item.limit
      · have hlen : size - (rows ++ [(item, 1)]).length = size - rows.length - 1 := by
          rw [List.length_append, List.length_singleton, Nat.sub_sub]
        rw [if_pos h, if_pos (hfits.2 h), Rows.place_eq_append hany, hlen, List.map_append]
        simp only [Option.map_some, List.append_assoc]
        rfl
      · rw [if_neg h, if_neg (fun hf => h (hfits.1 hf))]
        rfl

theorem addAll?_ofRows (hs : Rows.Stocked rows) (items : List Item) :
    (ofRows size rows).addAll? items = (Rows.stow? size items rows).map (ofRows size) := by
  induction items generalizing rows with
  | nil => rfl
  | cons item rest ih =>
      rw [addAll?_cons, add?_ofRows hs]
      simp only [Rows.stow?]
      split
      · rename_i hf
        exact ih (Rows.stocked_place hs hf)
      · rfl

theorem addAll?_empty (size : Nat) (items : List Item) :
    (empty size).addAll? items = (Rows.stow? size items []).map (ofRows size) := by
  rw [← ofRows_nil, addAll?_ofRows Rows.stocked_nil]

/-- The inventory is the rows, then vacant slots. -/
theorem addAll?_of_settled {inventory : Inventory} (h : inventory.settled = ofRows size rows)
    (hs : Rows.Stocked rows) (items : List Item) :
    (inventory.addAll? items).map settled = (Rows.stow? size items rows).map (ofRows size) := by
  rw [← addAll?_settled, h, addAll?_ofRows hs]

theorem items_ofRows (hs : Rows.Stocked rows) : (ofRows size rows).items = rows := by
  have hvacant : (List.replicate (size - rows.length) Stack.fresh).filterMap
      (fun s => s.held?.map (·, s.count)) = [] := by
    rw [List.filterMap_eq_nil_iff]
    intro s hm
    rw [List.eq_of_mem_replicate hm]
    rfl
  simp only [items, ofRows, List.filterMap_append, hvacant, List.append_nil]
  clear hvacant
  induction rows with
  | nil => rfl
  | cons row rest ih =>
      obtain ⟨⟨hpos, _⟩, hrest⟩ := List.forall_mem_cons.1 hs
      simp only [List.map_cons, List.filterMap_cons, Stack.ofRow, Stack.held?_used hpos,
        Option.map_some, Stack.count_used]
      rw [ih hrest]

theorem items_settled (inventory : Inventory) : inventory.settled.items = inventory.items := by
  simp only [items, settled, List.filterMap_map]
  congr 1
  funext s
  simp only [Function.comp_apply, Stack.held?_settled, Stack.count_settled]

theorem units_eq_units_items (inventory : Inventory) :
    inventory.units = Rows.units inventory.items := by
  obtain ⟨slots⟩ := inventory
  simp only [units, items, Rows.units]
  induction slots with
  | nil => rfl
  | cons s rest ih =>
      rw [List.flatMap_cons, ih]
      cases hs : s.held? with
      | none => simp [Stack.units, hs]
      | some held => simp [Stack.units, hs]

theorem length_items_le_size (inventory : Inventory) :
    inventory.items.length ≤ inventory.size :=
  List.length_filterMap_le _ _

variable {rule : Item → Bool}

theorem obeys_items {inventory : Inventory} (h : inventory.obeys rule) :
    ∀ row ∈ inventory.items, row.2 ≠ 0 ∧ row.2 ≤ row.1.limit ∧ row.1.obeys rule := by
  intro row hrow
  obtain ⟨s, hs, hmap⟩ := List.mem_filterMap.1 hrow
  obtain ⟨held, hheld, rfl⟩ := Option.map_eq_some_iff.1 hmap
  obtain ⟨hle, hobeys⟩ := (Stack.obeys_iff s).1 ((obeys_iff _).1 h s hs) held hheld
  refine ⟨?_, hle, hobeys⟩
  intro h0
  rw [(Stack.held?_eq_none_iff s).2 h0] at hheld
  cases hheld

theorem stocked_of_withinLimits {inventory : Inventory} (h : inventory.WithinLimits) :
    Rows.Stocked inventory.items := by
  intro row hrow
  obtain ⟨s, hs, hmap⟩ := List.mem_filterMap.1 hrow
  obtain ⟨held, hheld, rfl⟩ := Option.map_eq_some_iff.1 hmap
  exact ⟨Stack.count_ne_zero hheld, h s hs held hheld⟩

theorem stocked_items {inventory : Inventory} (h : inventory.obeys rule) :
    Rows.Stocked inventory.items :=
  stocked_of_withinLimits (withinLimits_of_obeys h)

/-- A pull takes its unit from the first row. -/
theorem items_of_pull? {inventory inventory' : Inventory}
    (h : inventory.pull? = some (item, inventory')) :
    ∃ count tail, inventory.items = (item, count) :: tail ∧
      inventory'.items = if count - 1 = 0 then tail else (item, count - 1) :: tail := by
  obtain ⟨⟨i, slots'⟩, hp, heq⟩ := Option.map_eq_some_iff.1 h
  cases heq
  obtain ⟨front, s, t, back, hold, rfl, hfront, _, hpull⟩ := pullFrom?_split hp
  obtain ⟨hheld, rfl⟩ := Stack.pull?_eq_some_iff.1 hpull
  have hvacant : front.filterMap (fun s => s.held?.map (·, s.count)) = [] := by
    rw [List.filterMap_eq_nil_iff]
    intro r hr
    cases hr' : r.held? with
    | none => rfl
    | some held => exact nomatch hfront r hr held hr'
  refine ⟨s.count, back.filterMap fun s => s.held?.map (·, s.count), ?_, ?_⟩
  · simp only [items, hold, List.filterMap_append, hvacant, List.nil_append, List.filterMap_cons,
      hheld, Option.map_some]
  · simp only [items, List.filterMap_append, hvacant, List.nil_append, List.filterMap_cons]
    by_cases hlater : s.count - 1 = 0
    · simp [Stack.held?, hlater]
    · simp [Stack.held?_used hlater, hlater]

theorem length_items_pull? {inventory inventory' : Inventory}
    (h : inventory.pull? = some (item, inventory')) :
    inventory'.items.length ≤ inventory.items.length := by
  obtain ⟨count, tail, hold, hnew⟩ := items_of_pull? h
  rw [hold, hnew, List.length_cons]
  split
  · exact Nat.le_succ _
  · exact Nat.le_refl _

/-- Pulling a box frees its slot. -/
theorem items_pull?_of_box {inventory inventory' : Inventory} (hs : inventory.SingleBoxes)
    (h : inventory.pull? = some (item, inventory')) (hb : item.isBox) :
    inventory.items = (item, 1) :: inventory'.items := by
  obtain ⟨count, tail, hold, hnew⟩ := items_of_pull? h
  have hrow : (item, count) ∈ inventory.items := by
    rw [hold]
    exact List.mem_cons_self
  obtain ⟨hpos, hle, hobeys⟩ := obeys_items hs _ hrow
  have hone : count = 1 := by
    rw [Item.limit_of_singleBox (Item.singleBox_of_obeys hobeys) hb, UInt32.le_iff_toNat_le] at hle
    apply UInt32.toNat_inj.1
    have hne : count.toNat ≠ 0 := word_toNat_ne_zero hpos
    have h1 : (1 : UInt32).toNat = 1 := rfl
    simp only [h1] at hle ⊢
    omega
  subst hone
  rw [hold, hnew, if_pos (by decide)]

/-- The unit pulled before a box leaves its slot as well. -/
theorem items_pull?_before_box {first second third : Inventory} {unit box : Item}
    (hs : first.SingleBoxes) (h₁ : first.pull? = some (unit, second))
    (h₂ : second.pull? = some (box, third)) (hb : box.isBox) :
    first.items = (unit, 1) :: (box, 1) :: third.items := by
  obtain ⟨_, hs'⟩ := obeys_pull? hs h₁
  have hsecond := items_pull?_of_box hs' h₂ hb
  obtain ⟨count, tail, hold, hnew⟩ := items_of_pull? h₁
  by_cases hc : count - 1 = 0
  · rw [if_pos hc] at hnew
    have hone : count = 1 := by
      have := congrArg (· + 1) hc
      simpa using this
    rw [hold, hone, ← hsecond, hnew]
  · rw [if_neg hc, hsecond] at hnew
    have hbox : unit = box := (Prod.mk.inj (List.cons.inj hnew).1).1.symm
    have := items_pull?_of_box hs h₁ (hbox ▸ hb)
    rw [hold] at this
    have hone : count = 1 := (Prod.mk.inj (List.cons.inj this).1).2
    subst hone
    exact absurd (by decide) hc

theorem pullMany_succ_of_pull? {inventory rest : Inventory} {item : Item}
    (h : inventory.pull? = some (item, rest)) (n : Nat) :
    inventory.pullMany (n + 1) = (item :: (rest.pullMany n).1, (rest.pullMany n).2) := by
  simp only [pullMany, h]

theorem pullMany_of_none {inventory : Inventory} (h : inventory.pull? = none) (n : Nat) :
    inventory.pullMany n = ([], inventory) := by
  cases n with
  | zero => rfl
  | succ n => simp only [pullMany, h]

/-- Pulling goes on where it stopped. -/
theorem pullMany_add (inventory : Inventory) (m n : Nat) :
    inventory.pullMany (m + n) =
      ((inventory.pullMany m).1 ++ ((inventory.pullMany m).2.pullMany n).1,
        ((inventory.pullMany m).2.pullMany n).2) := by
  induction m generalizing inventory with
  | zero => rw [Nat.zero_add]; rfl
  | succ m ih =>
      rw [Nat.succ_add]
      cases h : inventory.pull? with
      | none =>
          rw [pullMany_of_none h, pullMany_of_none h, pullMany_of_none h]
          rfl
      | some found =>
          rw [pullMany_succ_of_pull? h, pullMany_succ_of_pull? h, ih]
          rfl

theorem size_pullMany (inventory : Inventory) (n : Nat) :
    (inventory.pullMany n).2.size = inventory.size := by
  induction n generalizing inventory with
  | zero => rfl
  | succ n ih =>
      cases h : inventory.pull? with
      | none => rw [pullMany_of_none h]
      | some found =>
          rw [pullMany_succ_of_pull? h, ih]
          exact size_pullWanted? h

theorem size_pullAll (inventory : Inventory) : inventory.pullAll.2.size = inventory.size :=
  size_pullMany inventory inventory.totalCount

theorem length_pullMany_le (inventory : Inventory) (n : Nat) :
    (inventory.pullMany n).1.length ≤ n := by
  rw [(pullMany_units n inventory).1, List.length_take]
  exact Nat.min_le_left _ _

theorem pullMany_eq_cons_iff {inventory rest : Inventory} {item : Item} {items : List Item}
    {n : Nat} :
    inventory.pullMany (n + 1) = (item :: items, rest) ↔
      ∃ mid, inventory.pull? = some (item, mid) ∧ mid.pullMany n = (items, rest) := by
  cases h : inventory.pull? with
  | none => simp [pullMany_of_none h]
  | some found =>
      rw [pullMany_succ_of_pull? h]
      constructor
      · intro heq
        obtain ⟨hlist, hrest⟩ := Prod.mk.inj heq
        obtain ⟨hitem, hitems⟩ := List.cons.inj hlist
        exact ⟨found.2, congrArg some (Prod.ext hitem rfl), Prod.ext hitems hrest⟩
      · intro ⟨mid, hmid, htail⟩
        obtain rfl := Option.some.inj hmid
        rw [htail]

theorem pullMany_eq_snoc_iff {inventory rest : Inventory} {item : Item} {items : List Item}
    {n : Nat} (hl : items.length = n) :
    inventory.pullMany (n + 1) = (items ++ [item], rest) ↔
      ∃ mid, inventory.pullMany n = (items, mid) ∧ mid.pull? = some (item, rest) := by
  rw [pullMany_add]
  constructor
  · intro heq
    obtain ⟨hlist, hrest⟩ := Prod.mk.inj heq
    cases hp : (inventory.pullMany n).2.pull? with
    | none =>
        rw [pullMany_of_none hp, List.append_nil] at hlist
        have hlen := inventory.length_pullMany_le n
        rw [hlist, List.length_append, hl] at hlen
        exact absurd hlen (Nat.not_succ_le_self n)
    | some found =>
        rw [pullMany_succ_of_pull? hp] at hlist hrest
        obtain ⟨hfront, hlast⟩ := List.append_inj' hlist rfl
        refine ⟨_, Prod.ext hfront rfl, hp.trans (congrArg some (Prod.ext ?_ hrest))⟩
        exact List.head_eq_of_cons_eq hlast
  · intro ⟨mid, hfront, hlast⟩
    rw [hfront, pullMany_succ_of_pull? hlast]
    rfl

theorem length_items_pullMany (inventory : Inventory) (n : Nat) :
    (inventory.pullMany n).2.items.length ≤ inventory.items.length := by
  induction n generalizing inventory with
  | zero => exact Nat.le_refl _
  | succ n ih =>
      cases h : inventory.pull? with
      | none => exact Nat.le_of_eq (by rw [pullMany_of_none h])
      | some found =>
          rw [pullMany_succ_of_pull? h]
          exact Nat.le_trans (ih found.2) (length_items_pull? h)

/-- Pulling boxes frees their slots. -/
theorem items_pullMany_of_boxes {inventory rest : Inventory} {items : List Item} {n : Nat}
    (hs : inventory.SingleBoxes) (h : inventory.pullMany n = (items, rest))
    (hl : items.length = n) (hb : ∀ box ∈ items, box.isBox) :
    inventory.items = items.map (·, 1) ++ rest.items := by
  subst hl
  induction items generalizing inventory with
  | nil =>
      cases h
      rfl
  | cons box later ih =>
      obtain ⟨hbox, hlater⟩ := List.forall_mem_cons.1 hb
      obtain ⟨mid, hpull, hmany⟩ := pullMany_eq_cons_iff.1 h
      rw [items_pull?_of_box hs hpull hbox, ih (obeys_pull? hs hpull).2 hlater hmany]
      rfl

/-- What the units make when they are added again, in scan order, to an empty
inventory of the same size. -/
def repacked (inventory : Inventory) : Inventory :=
  (empty inventory.size).fill inventory.units

@[simp] theorem size_repacked (inventory : Inventory) :
    inventory.repacked.size = inventory.size := by
  rw [repacked, size_fill, size_empty]

/-- The units of stocked rows make tight rows wherever there is a slot for each of those that
they were in. -/
theorem addAll?_units_of_stocked {moved : Rows} (hs : Rows.Stocked moved)
    (hl : moved.length ≤ size) :
    ∃ rows, (empty size).addAll? (Rows.units moved) = some (ofRows size rows) ∧
      Rows.Stocked rows ∧ Rows.Tight rows ∧ rows.length ≤ moved.length := by
  obtain ⟨rows, hrows, hlen⟩ := Rows.stow?_units [] hs (by simpa using hl)
  refine ⟨rows, ?_, Rows.stocked_stow? hrows Rows.stocked_nil, Rows.tight_stow? hrows .nil,
    by simpa using hlen⟩
  rw [addAll?_empty, hrows, Option.map_some]

/-- Repacking loses nothing, takes no more slots than before, and leaves tight
rows without gaps. -/
theorem repacked_spec {inventory : Inventory} (h : inventory.obeys rule) :
    refusals inventory.units (empty inventory.size) = [] ∧
      inventory.repacked = ofRows inventory.size inventory.repacked.items ∧
      Rows.Tight inventory.repacked.items ∧
      inventory.repacked.items.length ≤ inventory.items.length := by
  obtain ⟨rows, hall, hstocked, htight, hlen⟩ :=
    addAll?_units_of_stocked (stocked_items h) (length_items_le_size inventory)
  rw [← units_eq_units_items] at hall
  obtain ⟨hnone, hfill⟩ := addAll?_eq_some_iff.1 hall
  have hitems : inventory.repacked.items = rows := by
    rw [repacked, hfill, items_ofRows hstocked]
  rw [hitems]
  exact ⟨hnone, hfill, htight, hlen⟩

theorem obeys_repacked {inventory : Inventory} (h : inventory.obeys rule) :
    inventory.repacked.obeys rule :=
  obeys_fill (obeys_empty _) fun unit hunit => (obeys_units h unit hunit).1

theorem countOf_repacked {inventory : Inventory} (h : inventory.obeys rule) (x : Item) :
    inventory.repacked.countOf x = inventory.countOf x := by
  have := countOf_fill inventory.units (empty inventory.size) x
  rwa [(repacked_spec h).1, List.countP_nil, Nat.add_zero, countOf_empty, Nat.zero_add,
    ← countOf_eq_countP] at this

/-- Nothing but old memories is left of an inventory without units. -/
theorem settled_of_isEmpty {inventory : Inventory} (h : inventory.isEmpty) :
    inventory.settled = empty inventory.size := by
  simp only [isEmpty, List.all_eq_true, Stack.isVacant, beq_iff_eq] at h
  simp only [settled, empty, size]
  congr 1
  rw [List.eq_replicate_iff]
  refine ⟨List.length_map _, ?_⟩
  intro s hs
  obtain ⟨t, ht, rfl⟩ := List.mem_map.1 hs
  exact Stack.settled_of_vacant (h t ht)

theorem settled_source_transfer {source target : Inventory} {limit : Option Nat}
    (h : (source.transfer target limit).isComplete) :
    (source.transfer target limit).source.settled = empty source.size := by
  rw [← size_source_transfer source target limit]
  exact settled_of_isEmpty h

end Inventory
end ChestMachine
