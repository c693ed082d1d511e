import ChestMachine.Proofs.Delivery

/-!
Inventories without gaps, written as the rows of their occupied slots. First-fit
placement is restated on rows, where the number of slots is a bound only.
Main statements: moving whole slots takes at most one new row for each of them;
a row that takes nothing may be put in anywhere at the price of one slot; and
placing keeps rows tight, so that tight rows which are placed again behind other
rows come out as they were.
-/
namespace ChestMachine

abbrev Rows := List (Item × UInt32)

namespace Rows

def units (rows : Rows) : List Item :=
  rows.flatMap fun row => List.replicate row.2.toNat row.1

/-- Whether one more unit goes into the row. -/
def takes (item : Item) (row : Item × UInt32) : Bool :=
  row.1 == item && decide (row.2 < row.1.limit)

/-- Puts one unit into the first row that takes it, else into a new last row. -/
def place (item : Item) : Rows → Rows
  | [] => [(item, 1)]
  | row :: rest =>
      if takes item row then (row.1, row.2 + 1) :: rest else row :: place item rest

def fits (size : Nat) (item : Item) (rows : Rows) : Bool :=
  rows.any (takes item) || (decide (rows.length < size) && decide (0 < item.limit))

/-- Places units that all have to fit into so many slots. -/
def stow? (size : Nat) : List Item → Rows → Option Rows
  | [], rows => some rows
  | item :: rest, rows =>
      if fits size item rows then stow? size rest (place item rows) else none

/-- Rows that slots can hold. -/
def Stocked (rows : Rows) : Prop :=
  ∀ row ∈ rows, row.2 ≠ 0 ∧ row.2 ≤ row.1.limit

/-- Rows as placing lays them out: one comes after full rows of its item only. -/
def Tight (rows : Rows) : Prop :=
  rows.Pairwise fun a b => a.1 == b.1 → a.1.limit ≤ a.2

variable {item : Item} {row : Item × UInt32} {rows rows' : Rows} {size : Nat}

theorem stocked_nil : Stocked [] := fun _ h => absurd h List.not_mem_nil

theorem stocked_one (h : 0 < item.limit) : Stocked [(item, 1)] := by
  intro row hrow
  rw [List.mem_singleton.1 hrow]
  refine ⟨show (1 : UInt32) ≠ 0 by decide, ?_⟩
  rw [UInt32.le_iff_toNat_le]
  exact h

theorem toNat_of_takes (h : takes item row) : (row.2 + 1).toNat = row.2.toNat + 1 := by
  simp only [takes, Bool.and_eq_true, decide_eq_true_eq, UInt32.lt_iff_toNat_lt] at h
  have := row.1.limit.toNat_lt
  rw [UInt32.toNat_add, UInt32.toNat_one]
  omega

theorem takes_false_of_full (h : row.1.limit ≤ row.2) (item : Item) : takes item row = false := by
  simp only [takes, Bool.and_eq_false_iff, decide_eq_false_iff_not, UInt32.not_lt]
  exact Or.inr h

theorem place_append_of_none (h : rows.any (takes item) = false) (tail : Rows) :
    place item (rows ++ tail) = rows ++ place item tail := by
  induction rows with
  | nil => rfl
  | cons first rest ih =>
      rw [List.any_cons, Bool.or_eq_false_iff] at h
      simp only [List.cons_append, place, h.1, Bool.false_eq_true, if_false, ih h.2]

theorem place_eq_append (h : rows.any (takes item) = false) :
    place item rows = rows ++ [(item, 1)] := by
  simpa only [List.append_nil, place] using place_append_of_none h []

theorem length_place (item : Item) (rows : Rows) :
    (place item rows).length = if rows.any (takes item) then rows.length else rows.length + 1 := by
  induction rows with
  | nil => rfl
  | cons row rest ih =>
      by_cases h : takes item row
      · simp [place, h]
      · simp only [place, h, Bool.false_eq_true, if_false, List.length_cons, ih, List.any_cons,
          Bool.false_or]
        split <;> rfl

theorem length_le_length_place (item : Item) (rows : Rows) :
    rows.length ≤ (place item rows).length := by
  rw [length_place]
  split <;> omega

theorem length_place_le (h : fits size item rows) (hl : rows.length ≤ size) :
    (place item rows).length ≤ size := by
  rw [length_place]
  split
  · exact hl
  · rename_i hany
    simp only [fits, hany, Bool.false_or, Bool.and_eq_true, decide_eq_true_eq] at h
    exact h.1

/-- Where a row comes from when a unit has been placed. -/
inductive Placed (item : Item) (rows : Rows) : Item × UInt32 → Prop where
  | kept {row : Item × UInt32} : row ∈ rows → Placed item rows row
  | raised {row : Item × UInt32} :
      row ∈ rows → takes item row → Placed item rows (row.1, row.2 + 1)
  | opened : rows.any (takes item) = false → Placed item rows (item, 1)

theorem placed_of_mem (h : row ∈ place item rows) : Placed item rows row := by
  induction rows with
  | nil =>
      rw [List.mem_singleton.1 h]
      exact .opened rfl
  | cons first rest ih =>
      simp only [place] at h
      split at h
      · rename_i ht
        cases List.mem_cons.1 h with
        | inl heq =>
            rw [heq]
            exact .raised List.mem_cons_self ht
        | inr hr => exact .kept (List.mem_cons_of_mem _ hr)
      · rename_i ht
        cases List.mem_cons.1 h with
        | inl heq =>
            rw [heq]
            exact .kept List.mem_cons_self
        | inr hr =>
            cases ih hr with
            | kept hm => exact .kept (List.mem_cons_of_mem _ hm)
            | raised hm hto => exact .raised (List.mem_cons_of_mem _ hm) hto
            | opened hany =>
                apply Placed.opened
                rw [List.any_cons, hany, Bool.or_false]
                rwa [Bool.not_eq_true] at ht

theorem mem_place_of_mem (h : row ∈ rows) :
    row ∈ place item rows ∨ (takes item row ∧ (row.1, row.2 + 1) ∈ place item rows) := by
  induction rows with
  | nil => cases h
  | cons first rest ih =>
      simp only [place]
      split
      · rename_i ht
        cases List.mem_cons.1 h with
        | inl heq =>
            rw [heq]
            exact Or.inr ⟨ht, List.mem_cons_self⟩
        | inr hr => exact Or.inl (List.mem_cons_of_mem _ hr)
      · cases List.mem_cons.1 h with
        | inl heq =>
            rw [heq]
            exact Or.inl List.mem_cons_self
        | inr hr =>
            cases ih hr with
            | inl hm => exact Or.inl (List.mem_cons_of_mem _ hm)
            | inr hm => exact Or.inr ⟨hm.1, List.mem_cons_of_mem _ hm.2⟩

theorem stocked_place (hs : Stocked rows) (h : fits size item rows) :
    Stocked (place item rows) := by
  intro row hrow
  cases placed_of_mem hrow with
  | kept hm => exact hs row hm
  | @raised old _ ht =>
      have hnat := toNat_of_takes ht
      simp only [takes, Bool.and_eq_true, decide_eq_true_eq, UInt32.lt_iff_toNat_lt] at ht
      refine ⟨?_, ?_⟩
      · intro h0
        have hzero : old.2 + 1 = 0 := h0
        rw [hzero] at hnat
        exact absurd hnat.symm (Nat.succ_ne_zero _)
      · rw [UInt32.le_iff_toNat_le, hnat]
        exact ht.2
  | opened hany =>
      simp only [fits, hany, Bool.false_or, Bool.and_eq_true, decide_eq_true_eq] at h
      exact stocked_one h.2 _ (List.mem_singleton_self _)

/-- The first row that takes the unit has no equal row behind it. -/
theorem tight_place (h : Tight rows) : Tight (place item rows) := by
  induction rows with
  | nil => exact List.pairwise_singleton _ _
  | cons first rest ih =>
      obtain ⟨hfirst, hrest⟩ := List.pairwise_cons.1 h
      simp only [place]
      split
      · rename_i ht
        refine List.pairwise_cons.2 ⟨?_, hrest⟩
        intro later hl hsame
        have hfull := takes_false_of_full (hfirst later hl hsame) item
        rw [ht] at hfull
        cases hfull
      · rename_i ht
        refine List.pairwise_cons.2 ⟨?_, ih hrest⟩
        intro later hl hsame
        cases placed_of_mem hl with
        | kept hm => exact hfirst later hm hsame
        | raised hm _ => exact hfirst _ hm hsame
        | opened _ =>
            have hsame' : (first.1 == item) = true := hsame
            simpa only [takes, hsame', Bool.true_and, decide_eq_true_eq, UInt32.not_lt] using ht

theorem stow?_append (front back : List Item) :
    stow? size (front ++ back) rows = (stow? size front rows).bind (stow? size back) := by
  induction front generalizing rows with
  | nil => rfl
  | cons item rest ih =>
      simp only [List.cons_append, stow?]
      split
      · exact ih
      · rfl

theorem stow?_invariant {P : Rows → Prop} {items : List Item}
    (step : ∀ item ∈ items, ∀ rows, P rows → fits size item rows → P (place item rows))
    (h : stow? size items rows = some rows') (hp : P rows) : P rows' := by
  induction items generalizing rows with
  | nil =>
      cases h
      exact hp
  | cons item rest ih =>
      obtain ⟨hhead, hrest⟩ := List.forall_mem_cons.1 step
      simp only [stow?] at h
      split at h
      · rename_i hf
        exact ih hrest h (hhead rows hp hf)
      · cases h

theorem stocked_stow? {items : List Item} (h : stow? size items rows = some rows')
    (hs : Stocked rows) : Stocked rows' :=
  stow?_invariant (fun _ _ _ hp hf => stocked_place hp hf) h hs

theorem tight_stow? {items : List Item} (h : stow? size items rows = some rows')
    (ht : Tight rows) : Tight rows' :=
  stow?_invariant (fun _ _ _ hp _ => tight_place hp) h ht

theorem length_stow?_le {items : List Item} (h : stow? size items rows = some rows')
    (hl : rows.length ≤ size) : rows'.length ≤ size :=
  stow?_invariant (fun _ _ _ hp hf => length_place_le hf hp) h hl

theorem length_le_length_stow? {items : List Item} (h : stow? size items rows = some rows') :
    rows.length ≤ rows'.length := by
  refine stow?_invariant (P := fun r => rows.length ≤ r.length) ?_ h (Nat.le_refl _)
  intro item _ r hr _
  exact Nat.le_trans hr (length_le_length_place item r)

/-- The first row stays the row of its item. -/
theorem head_stow? {items : List Item} {tail : Rows}
    (h : stow? size items (row :: tail) = some rows') :
    ∃ count tail', rows' = (row.1, count) :: tail' := by
  refine stow?_invariant (P := fun r => ∃ count t, r = (row.1, count) :: t) ?_ h
    ⟨row.2, tail, rfl⟩
  intro item _ r hr _
  obtain ⟨count, t, rfl⟩ := hr
  simp only [place]
  split
  · exact ⟨_, _, rfl⟩
  · exact ⟨_, _, rfl⟩

/-- The number of slots matters only through the rows that come out. -/
theorem stow?_of_length_le {items : List Item} {other : Nat}
    (h : stow? size items rows = some rows') (hl : rows'.length ≤ other) :
    stow? other items rows = some rows' := by
  induction items generalizing rows with
  | nil => exact h
  | cons item rest ih =>
      simp only [stow?] at h ⊢
      split at h
      · rename_i hf
        have hgrow := length_le_length_stow? h
        have hf' : fits other item rows := by
          cases hany : rows.any (takes item) with
          | true => simp [fits, hany]
          | false =>
              rw [length_place, hany] at hgrow
              simp only [fits, hany, Bool.false_or, Bool.and_eq_true, decide_eq_true_eq,
                Bool.false_eq_true, if_false] at hf hgrow ⊢
              exact ⟨by omega, hf.2⟩
        rw [if_pos hf']
        exact ih h
      · cases h

/-- No row is opened for `n` units of the item, or a single one that holds no other. -/
def OpensOne (item : Item) (n : Nat) (rows rows' : Rows) : Prop :=
  rows'.length ≤ rows.length ∨
    (rows'.length = rows.length + 1 ∧ ∃ row ∈ rows', row.1 = item ∧ row.2.toNat ≤ n)

/-- A row that was opened for the item has room for one unit more. -/
theorem length_le_of_opensOne {n : Nat} {mid : Rows} (hn : n + 1 ≤ item.limit.toNat)
    (h : OpensOne item n rows mid) (hany : mid.any (takes item) = false) :
    mid.length ≤ rows.length := by
  cases h with
  | inl hlen => exact hlen
  | inr hnew =>
      obtain ⟨_, row, hrow, hitem, hcount⟩ := hnew
      have htakes : takes item row := by
        subst hitem
        simp only [takes, BEq.rfl, Bool.true_and, decide_eq_true_eq, UInt32.lt_iff_toNat_lt]
        omega
      have := List.any_eq_true.2 ⟨row, hrow, htakes⟩
      rw [hany] at this
      cases this

theorem fits_of_opensOne {n : Nat} {mid : Rows} (hn : n + 1 ≤ item.limit.toNat)
    (hl : rows.length < size) (h : OpensOne item n rows mid) : fits size item mid := by
  cases hany : mid.any (takes item) with
  | true => simp only [fits, hany, Bool.true_or]
  | false =>
      have hshort := length_le_of_opensOne hn h hany
      have hpos : 0 < item.limit := by
        rw [UInt32.lt_iff_toNat_lt, UInt32.toNat_zero]
        omega
      simp only [fits, hany, Bool.false_or, Bool.and_eq_true, decide_eq_true_eq]
      exact ⟨by omega, hpos⟩

theorem opensOne_place {n : Nat} {mid : Rows} (hn : n + 1 ≤ item.limit.toNat)
    (h : OpensOne item n rows mid) : OpensOne item (n + 1) rows (place item mid) := by
  have hgrow := length_place item mid
  cases hany : mid.any (takes item) with
  | true =>
      rw [hany, if_pos rfl] at hgrow
      cases h with
      | inl hlen => exact Or.inl (by omega)
      | inr hnew =>
          obtain ⟨hlen, row, hrow, hitem, hcount⟩ := hnew
          refine Or.inr ⟨by omega, ?_⟩
          cases mem_place_of_mem hrow with
          | inl hm => exact ⟨row, hm, hitem, by omega⟩
          | inr hm =>
              refine ⟨_, hm.2, hitem, ?_⟩
              simp only [toNat_of_takes hm.1]
              omega
  | false =>
      have hshort := length_le_of_opensOne hn h hany
      rw [hany, if_neg Bool.false_ne_true] at hgrow
      by_cases hlt : mid.length < rows.length
      · exact Or.inl (by omega)
      · refine Or.inr ⟨by omega, (item, 1), ?_, rfl, ?_⟩
        · rw [place_eq_append hany]
          exact List.mem_append_right _ (List.mem_singleton_self _)
        · simp

/-- Units of one item open at most one row if they fit into one slot: a row that
was opened for them takes the others. -/
theorem stow?_replicate (rows : Rows) {n : Nat} (hn : n ≤ item.limit.toNat)
    (hl : rows.length < size) :
    ∃ rows', stow? size (List.replicate n item) rows = some rows' ∧ OpensOne item n rows rows' := by
  induction n with
  | zero => exact ⟨rows, rfl, Or.inl (Nat.le_refl _)⟩
  | succ n ih =>
      obtain ⟨mid, hmid, hopens⟩ := ih (Nat.le_of_succ_le hn)
      refine ⟨place item mid, ?_, opensOne_place hn hopens⟩
      rw [List.replicate_succ', stow?_append, hmid]
      exact if_pos (fits_of_opensOne hn hl hopens)

/-- Moving whole slots takes at most one new row for each of them. -/
theorem stow?_units (rows : Rows) {moved : Rows} (hs : Stocked moved)
    (hl : rows.length + moved.length ≤ size) :
    ∃ rows', stow? size (units moved) rows = some rows' ∧
      rows'.length ≤ rows.length + moved.length := by
  induction moved generalizing rows with
  | nil => exact ⟨rows, rfl, Nat.le_refl _⟩
  | cons row rest ih =>
      obtain ⟨hrow, hrest⟩ := List.forall_mem_cons.1 hs
      rw [List.length_cons] at hl ⊢
      have hfree : rows.length < size := by omega
      obtain ⟨mid, hmid, hopens⟩ := stow?_replicate rows (UInt32.le_iff_toNat_le.1 hrow.2) hfree
      have hshort : mid.length ≤ rows.length + 1 := by
        cases hopens with
        | inl h => exact Nat.le_succ_of_le h
        | inr h => exact Nat.le_of_eq h.1
      obtain ⟨last, hlast, hle⟩ := ih mid hrest (by omega)
      refine ⟨last, ?_, by omega⟩
      rw [units, List.flatMap_cons, stow?_append, hmid]
      exact hlast

/-- Units that stack at all fit if there is a slot for each. -/
theorem stow?_of_room {items : List Item} (hi : ∀ item ∈ items, 0 < item.limit)
    (hl : rows.length + items.length ≤ size) : ∃ rows', stow? size items rows = some rows' := by
  induction items generalizing rows with
  | nil => exact ⟨rows, rfl⟩
  | cons item rest ih =>
      obtain ⟨hitem, hrest⟩ := List.forall_mem_cons.1 hi
      rw [List.length_cons] at hl
      have hf : fits size item rows := by
        have hlt : rows.length < size := by omega
        simp [fits, hitem, hlt]
      have hgrow : (place item rows).length ≤ rows.length + 1 := by
        rw [length_place]
        split <;> omega
      simp only [stow?, if_pos hf]
      exact ih hrest (by omega)

/-- A row that takes nothing is passed over. -/
theorem place_insertIdx (hfull : row.1.limit ≤ row.2) (item : Item) {k : Nat}
    (hk : k ≤ rows.length) :
    place item (rows.insertIdx k row) = (place item rows).insertIdx k row := by
  induction rows generalizing k with
  | nil =>
      obtain rfl : k = 0 := Nat.le_zero.1 hk
      simp [place, takes_false_of_full hfull]
  | cons first rest ih =>
      cases k with
      | zero =>
          rw [List.insertIdx_zero, List.insertIdx_zero]
          simp only [place, takes_false_of_full hfull, Bool.false_eq_true, if_false]
      | succ k =>
          rw [List.insertIdx_succ_cons]
          simp only [place]
          split
          · rw [List.insertIdx_succ_cons]
          · rw [List.insertIdx_succ_cons, ih (Nat.le_of_succ_le_succ hk)]

theorem any_takes_insertIdx (hfull : row.1.limit ≤ row.2) (item : Item) {k : Nat}
    (hk : k ≤ rows.length) : (rows.insertIdx k row).any (takes item) = rows.any (takes item) := by
  rw [Bool.eq_iff_iff, List.any_eq_true, List.any_eq_true]
  constructor
  · intro ⟨found, hm, ht⟩
    cases (List.mem_insertIdx hk).1 hm with
    | inl heq =>
        rw [heq, takes_false_of_full hfull] at ht
        cases ht
    | inr hm => exact ⟨found, hm, ht⟩
  · intro ⟨found, hm, ht⟩
    exact ⟨found, (List.mem_insertIdx hk).2 (Or.inr hm), ht⟩

theorem fits_insertIdx (hfull : row.1.limit ≤ row.2) (item : Item) {k : Nat}
    (hk : k ≤ rows.length) : fits (size + 1) item (rows.insertIdx k row) = fits size item rows := by
  simp only [fits, any_takes_insertIdx hfull item hk, List.length_insertIdx_of_le_length hk,
    Nat.add_lt_add_iff_right]

theorem stocked_insertIdx {k : Nat} (hs : Stocked rows) (hk : k ≤ rows.length)
    (hrow : Stocked [row]) : Stocked (rows.insertIdx k row) := by
  intro other hother
  cases (List.mem_insertIdx hk).1 hother with
  | inl heq =>
      rw [heq]
      exact hrow row (List.mem_singleton_self row)
  | inr hm => exact hs other hm

/-- It costs one slot, wherever it stands. -/
theorem stow?_insertIdx (hfull : row.1.limit ≤ row.2) {items : List Item} {k : Nat}
    (hk : k ≤ rows.length) :
    stow? (size + 1) items (rows.insertIdx k row) =
      (stow? size items rows).map (·.insertIdx k row) := by
  induction items generalizing rows with
  | nil => rfl
  | cons item rest ih =>
      simp only [stow?, fits_insertIdx hfull item hk, place_insertIdx hfull item hk]
      split
      · exact ih (Nat.le_trans hk (length_le_length_place item rows))
      · rfl

/-- Units of an item that no row takes fill a row of their own. -/
theorem stow?_replicate_of_none (item : Item) {n : Nat} (hn : n + 1 ≤ item.limit.toNat)
    (hany : rows.any (takes item) = false) (hl : rows.length < size) :
    stow? size (List.replicate (n + 1) item) rows =
      some (rows ++ [(item, UInt32.ofNat (n + 1))]) := by
  have hmax := item.limit.toNat_lt
  induction n with
  | zero =>
      have hf : fits size item rows := by
        simp only [fits, hany, Bool.false_or, Bool.and_eq_true, decide_eq_true_eq,
          UInt32.lt_iff_toNat_lt]
        exact ⟨hl, hn⟩
      simp only [List.replicate_succ, List.replicate_zero, stow?, if_pos hf, place_eq_append hany]
      rfl
  | succ n ih =>
      have hcount : (UInt32.ofNat (n + 1)).toNat = n + 1 := by
        rw [UInt32.toNat_ofNat', Nat.mod_eq_of_lt (by omega)]
      have htakes : takes item (item, UInt32.ofNat (n + 1)) := by
        simp only [takes, BEq.rfl, Bool.true_and, decide_eq_true_eq, UInt32.lt_iff_toNat_lt,
          hcount]
        omega
      have hf : fits size item (rows ++ [(item, UInt32.ofNat (n + 1))]) := by
        simp only [fits, List.any_append, List.any_cons, htakes, Bool.true_or, Bool.or_true]
      rw [List.replicate_succ', stow?_append, ih (by omega), Option.bind_some]
      simp only [stow?, if_pos hf, place_append_of_none hany, place, if_pos htakes]
      rw [UInt32.ofNat_add (n + 1) 1]
      rfl

/-- Tight rows come out as they were behind rows that take none of their units. -/
theorem stow?_units_of_tight {moved : Rows} (hs : Stocked moved) (ht : Tight moved)
    (hnone : ∀ row ∈ moved, rows.any (takes row.1) = false)
    (hl : rows.length + moved.length ≤ size) :
    stow? size (units moved) rows = some (rows ++ moved) := by
  induction moved generalizing rows with
  | nil => rw [List.append_nil]; rfl
  | cons row rest ih =>
      obtain ⟨⟨hpos, hle⟩, hrest⟩ := List.forall_mem_cons.1 hs
      obtain ⟨hrow, htail⟩ := List.pairwise_cons.1 ht
      rw [List.length_cons] at hl
      obtain ⟨n, hn⟩ : ∃ n, row.2.toNat = n + 1 :=
        Nat.exists_eq_succ_of_ne_zero (word_toNat_ne_zero hpos)
      have hcount : UInt32.ofNat (n + 1) = row.2 := by rw [← hn, UInt32.ofNat_toNat]
      have hfit : n + 1 ≤ row.1.limit.toNat := hn ▸ UInt32.le_iff_toNat_le.1 hle
      have hshort : rows.length < size := by omega
      have hone := stow?_replicate_of_none row.1 hfit (hnone row List.mem_cons_self) hshort
      rw [hcount] at hone
      have hnext : ∀ later ∈ rest, (rows ++ [row]).any (takes later.1) = false := by
        intro later hl'
        rw [List.any_append, hnone later (List.mem_cons_of_mem _ hl'), Bool.false_or,
          List.any_cons, List.any_nil, Bool.or_false]
        by_cases hsame : row.1 == later.1
        · exact takes_false_of_full (hrow later hl' hsame) later.1
        · simp [takes, hsame]
      have hroom : (rows ++ [row]).length + rest.length ≤ size := by
        rw [List.length_append, List.length_singleton]
        omega
      have hall := ih hrest htail hnext hroom
      rw [units, List.flatMap_cons, hn, stow?_append, hone, Option.bind_some]
      rw [List.append_assoc, List.singleton_append] at hall
      exact hall

/-- A tight row with more of its item behind it is full. -/
theorem full_of_tight {rest : Rows} (ht : Tight (row :: rest))
    (hsame : ∀ later ∈ rest, later.1 = row.1) (hne : rest ≠ []) : row.1.limit ≤ row.2 := by
  obtain ⟨second, hsecond⟩ := List.exists_mem_of_ne_nil rest hne
  refine (List.pairwise_cons.1 ht).1 second hsecond ?_
  rw [hsame second hsecond]
  exact BEq.rfl

/-- Rows in which no box stacks. -/
def Single (rows : Rows) : Prop :=
  ∀ row ∈ rows, row.1.singleBox

theorem single_place (hs : Single rows) (hi : item.singleBox) : Single (place item rows) := by
  intro row hrow
  cases placed_of_mem hrow with
  | kept hm => exact hs row hm
  | @raised old hm _ => exact hs old hm
  | opened _ => exact hi

theorem single_stow? {items : List Item} (h : stow? size items rows = some rows')
    (hi : ∀ item ∈ items, item.singleBox) (hs : Single rows) : Single rows' :=
  stow?_invariant (fun item hm _ hp _ => single_place hp (hi item hm)) h hs

theorem any_takes_of_box (hs : Stocked rows) (h1 : Single rows) (hb : item.isBox) :
    rows.any (takes item) = false := by
  rw [List.any_eq_false]
  intro row hrow ht
  simp only [takes, Bool.and_eq_true, decide_eq_true_eq, UInt32.lt_iff_toNat_lt] at ht
  have hlimit := Item.limit_of_singleBox (h1 row hrow) ((Item.isBox_congr ht.1).trans hb)
  rw [hlimit, UInt32.toNat_one] at ht
  exact (hs row hrow).1 (UInt32.toNat_inj.1 (Nat.lt_one_iff.1 ht.2))

/-- A box goes behind all rows, if there is a slot. -/
theorem stow?_box (hs : Stocked rows) (h1 : Single rows) (hb : item.isBox)
    (hl : item.limit = 1) :
    stow? size [item] rows = if rows.length < size then some (rows ++ [(item, 1)]) else none := by
  have hany := any_takes_of_box hs h1 hb
  have hpos : 0 < item.limit := by rw [hl]; decide
  simp only [stow?, fits, hany, hpos, decide_true, Bool.and_true, Bool.false_or,
    decide_eq_true_eq, place_eq_append hany]

/-- A box behind all else costs a slot: one slot more may hold the other units, but then
none is left for the box. -/
theorem stow?_append_box {items : List Item} (hs : Stocked rows) (h1 : Single rows)
    (hi : ∀ item ∈ items, item.singleBox) (hb : item.isBox) (hl : item.limit = 1)
    (hlen : rows.length ≤ size) :
    stow? (size + 1) (items ++ [item]) rows =
      (stow? size items rows).map (· ++ [(item, 1)]) := by
  have hlast : ∀ {full}, stow? (size + 1) items rows = some full →
      stow? (size + 1) [item] full =
        if full.length < size + 1 then some (full ++ [(item, 1)]) else none := by
    intro full hfull
    exact stow?_box (stocked_stow? hfull hs) (single_stow? hfull hi h1) hb hl
  rw [stow?_append]
  cases hfull : stow? size items rows with
  | some full =>
      have hle := length_stow?_le hfull hlen
      have hmore := stow?_of_length_le hfull (Nat.le_succ_of_le hle)
      rw [hmore, Option.bind_some, hlast hmore, if_pos (Nat.lt_succ_of_le hle), Option.map_some]
  | none =>
      cases hmore : stow? (size + 1) items rows with
      | none => rfl
      | some full =>
          have hlong : ¬ full.length < size + 1 := by
            intro hlt
            rw [stow?_of_length_le hmore (Nat.le_of_lt_succ hlt)] at hfull
            cases hfull
          rw [Option.bind_some, hlast hmore, if_neg hlong]
          rfl

end Rows
end ChestMachine
