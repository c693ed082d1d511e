import ChestMachine.Proofs.Call.Room

/-!
Where the units are after a call. Main statement: if boxes do not stack and no
saved unit is the same as the next token, the saved state lies behind the next
token as the first repacking has laid it out. Pouring it a second time changes
nothing, since its rows are tight, and the row of the box takes none of it.
-/
namespace ChestMachine
namespace Inventory

theorem head_units_of_settled {inventory : Inventory} {size : Nat} {row : Item × UInt32}
    {rows : Rows} (h : inventory.settled = .ofRows size (row :: rows))
    (hs : Rows.Stocked (row :: rows)) : inventory.units.head? = some row.1 := by
  rw [units_eq_units_items, ← items_settled, h, items_ofRows hs]
  obtain ⟨n, hn⟩ := Nat.exists_eq_succ_of_ne_zero
    (word_toNat_ne_zero (hs row List.mem_cons_self).1)
  rw [Rows.units, List.flatMap_cons, hn, List.replicate_succ]
  rfl

theorem mem_units_of_mem_items {inventory : Inventory} {rule : Item → Bool}
    (h : inventory.obeys rule) {row : Item × UInt32} (hrow : row ∈ inventory.items) :
    row.1 ∈ inventory.units := by
  rw [units_eq_units_items, Rows.units, List.mem_flatMap]
  refine ⟨row, hrow, ?_⟩
  rw [List.mem_replicate]
  exact ⟨word_toNat_ne_zero (obeys_items h row hrow).1, rfl⟩

end Inventory

/-- A saved state without the next token keeps its rows. -/
theorem Frame.Room.behind_eq {frame : Frame} {memory : Inventory} {size : Nat} {behind : Rows}
    (r : frame.Room memory size behind) (ht : Rows.Tight frame.saved.items)
    (hnone : frame.saved.countOf frame.nextToken = 0) :
    behind = (frame.nextToken, 1) :: frame.saved.items := by
  have hlt := r.saved_lt
  have hpass : ∀ row ∈ frame.saved.items, [(frame.nextToken, (1 : UInt32))].any
      (Rows.takes row.1) = false := by
    intro row hrow
    have hunit := Inventory.mem_units_of_mem_items r.single.saved_single hrow
    rw [Inventory.countOf_eq_countP, List.countP_eq_zero] at hnone
    have hother : (frame.nextToken == row.1) = false := by
      rw [BEq.comm]
      exact Bool.eq_false_iff.2 (hnone row.1 hunit)
    simp only [List.any_cons, List.any_nil, Rows.takes, hother, Bool.false_and, Bool.or_self]
  have hall := Rows.stow?_units_of_tight (Inventory.stocked_items r.single.saved_single) ht hpass
    (show 1 + _ ≤ size by omega)
  rw [← Inventory.units_eq_units_items, r.stow_saved] at hall
  exact Option.some.inj hall

namespace Call

variable {n : Nat} {call : Call n} {machine machine' : Machine}

/-- How the call lays out memory: the next token, the saved state repacked, the
box and the results. -/
def Prepared.Layout (p : call.Prepared machine) (memory : Inventory) : Prop :=
  let size := machine.memory.size
  let next := (p.nextToken, (1 : UInt32))
  let box := (p.newBox, (1 : UInt32))
  let saved := p.rest.repacked.items
  match p.context.config.restoreOrder with
  | .stateThenBox =>
      (Inventory.ofRows size (next :: saved ++ [box])).addAll? p.results = some memory
  | .boxThenState =>
      (Inventory.ofRows size (next :: box :: saved)).addAll? p.results = some memory
  | .resultsThenBox => ∃ rows,
      (Inventory.ofRows size (next :: saved)).addAll? p.results = some (.ofRows size rows) ∧
        memory = .ofRows size (rows ++ [box])

/-- The rows are laid out as the order says, if the saved state stays as it was. -/
theorem Prepared.layout_of_rows (p : call.Prepared machine) {size : Nat} {behind full : Rows}
    {memory : Inventory} (r : p.frame.Room p.reached.memory size behind)
    (hsize : machine.memory.size = size + 1)
    (hbehind : behind = (p.nextToken, 1) :: p.rest.repacked.items)
    (hfull : Rows.stow? size p.results behind = some full)
    (hm : memory = .ofRows (size + 1)
      (full.insertIdx (Frame.boxIndex behind full p.context.config.restoreOrder)
        (p.newBox, 1))) : p.Layout memory := by
  have hstocked := r.stocked_behind
  have hfullbox : p.newBox.limit ≤ 1 := r.single.full_box
  have hbox : Rows.Stocked [(p.newBox, 1)] := r.single.stocked_box
  have add : ∀ {k}, k ≤ behind.length →
      (Inventory.ofRows (size + 1) (behind.insertIdx k (p.newBox, 1))).addAll? p.results =
        some (.ofRows (size + 1) (full.insertIdx k (p.newBox, 1))) := by
    intro k hk
    rw [Inventory.addAll?_ofRows (Rows.stocked_insertIdx hstocked hk hbox),
      Rows.stow?_insertIdx hfullbox hk, hfull]
    rfl
  have hlast : behind ++ [(p.newBox, 1)] = behind.insertIdx behind.length (p.newBox, 1) :=
    List.insertIdx_length_self.symm
  simp only [Prepared.Layout, hsize, ← hbehind]
  cases horder : p.context.config.restoreOrder with
  | stateThenBox =>
      rw [horder] at hm
      rw [hm, hlast]
      exact add (Nat.le_refl _)
  | boxThenState =>
      rw [horder] at hm
      have hsecond : (p.nextToken, (1 : UInt32)) :: (p.newBox, 1) :: p.rest.repacked.items =
          behind.insertIdx 1 (p.newBox, 1) := by
        rw [hbehind]
        rfl
      rw [hm, hsecond]
      exact add r.length_pos
  | resultsThenBox =>
      rw [horder] at hm
      have hle := Rows.length_stow?_le hfull r.length_le
      refine ⟨full, ?_, ?_⟩
      · rw [Inventory.addAll?_ofRows hstocked,
          Rows.stow?_of_length_le hfull (Nat.le_succ_of_le hle)]
        rfl
      · rw [hm, Frame.boxIndex, List.insertIdx_length_self]

theorem run_layout (h : machine.memory.SingleBoxes)
    (hr : call.ReturnsSingleBoxes machine) (hrun : call.run machine = .ok () machine') :
    ∃ p : call.Prepared machine,
      machine'.memory.units.head? = some p.nextToken ∧
      machine'.memory.settled = .ofRows machine.memory.size machine'.memory.items ∧
      (p.rest.countOf p.nextToken = 0 → p.Layout machine'.memory.settled) := by
  obtain ⟨p, _, hrestore⟩ := (run_eq_ok_iff h).1 hrun
  obtain ⟨size, behind, hsize, room⟩ := p.exists_room h hr
  obtain ⟨full, hfull, hsettled⟩ := room.rows_of_restore hrestore
  have hstocked := room.stocked_full hfull p.context.config.restoreOrder
  refine ⟨p, ?_, ?_, ?_⟩
  · obtain ⟨count, tail, hfirst⟩ :=
      room.first_row hfull p.context.config.restoreOrder (p.newBox, 1)
    have hnew : p.frame.box = p.newBox := rfl
    rw [hnew, hfirst] at hsettled hstocked
    exact Inventory.head_units_of_settled hsettled hstocked
  · rw [← Inventory.items_settled, hsettled, Inventory.items_ofRows hstocked, hsize]
  · intro hnone
    have hkept : p.frame.saved.countOf p.nextToken = 0 := by
      rw [← hnone]
      exact Inventory.countOf_repacked (p.rest_obeys h) _
    have htight := (Inventory.repacked_spec (p.rest_obeys h)).2.2.1
    exact p.layout_of_rows room hsize (room.behind_eq htight hkept) hfull hsettled

namespace Scattered

def pair : Item :=
  (Item.ofKind "s").withLimit 2

/-- Behind the operands lie a vacant slot, half a pair and a pair. -/
def before : Machine :=
  ⟨⟨[.used (.ofKind "e") 1, .used (.ofKind "a") 1,
      .used (.box ((Inventory.empty 1).fill [.ofKind "n"])) 1, .used (.ofKind "x") 0,
      .used pair 1, .used pair 2]⟩, .ofConfig .standard⟩

def tally : Call 1 :=
  ⟨"tally", fun _ => pure [.ofKind "r"]⟩

theorem tally_returnsSingleBoxes (machine : Machine) : tally.ReturnsSingleBoxes machine := by
  intro p result hresult
  have hresults : [.ofKind "r"] = p.results := (EStateM.Result.ok.inj p.function_ok).1
  rw [← hresults] at hresult
  rw [List.mem_singleton.1 hresult]
  rfl

/-- The box that the return token goes into. -/
def closed : Item :=
  .box ((Inventory.empty 1).fill [.ofKind "e"])

/-- What is in memory afterwards: the saved pairs are repacked, and the box stands where the
order puts it. -/
def layout : RestoreOrder → Rows
  | .stateThenBox => [(.ofKind "n", 1), (pair, 2), (pair, 1), (closed, 1), (.ofKind "r", 1)]
  | .boxThenState => [(.ofKind "n", 1), (closed, 1), (pair, 2), (pair, 1), (.ofKind "r", 1)]
  | .resultsThenBox => [(.ofKind "n", 1), (pair, 2), (pair, 1), (.ofKind "r", 1), (closed, 1)]

def prepared : tally.Prepared before where
  returnToken := .ofKind "e"
  arguments := #v[.ofKind "a"]
  box := .box ((Inventory.empty 1).fill [.ofKind "n"])
  contents := (Inventory.empty 1).fill [.ofKind "n"]
  nextToken := .ofKind "n"
  opened := ⟨[.used (.ofKind "n") 0]⟩
  closed := (Inventory.empty 1).fill [.ofKind "e"]
  rest := ⟨[.used (.ofKind "e") 0, .used (.ofKind "a") 0,
    .used (.box ((Inventory.empty 1).fill [.ofKind "n"])) 0, .used (.ofKind "x") 0,
    .used pair 1, .used pair 2]⟩
  results := [.ofKind "r"]
  context := before.context
  pulled := rfl
  contents_box := rfl
  pull_contents := rfl
  function_ok := rfl
  add_opened := rfl

/-- No saved item is the next token, so that the pairs lie as they were repacked. -/
theorem tally_layout :
    before.memory.SingleBoxes ∧ tally.ReturnsSingleBoxes before ∧
    prepared.rest.countOf prepared.nextToken = 0 ∧
    ∃ after, tally.run before = .ok () after ∧
      after.memory.units.head? = some (.ofKind "n") ∧
      after.memory.settled = .ofRows 6 (layout .stateThenBox) ∧
      prepared.Layout after.memory.settled := by
  have hnone : prepared.rest.countOf prepared.nextToken = 0 := rfl
  obtain ⟨after, hrun, hrows⟩ : ∃ after, tally.run before = .ok () after ∧
      after.memory.settled = .ofRows 6 (layout .stateThenBox) := ⟨_, rfl, rfl⟩
  obtain ⟨p, hfirst, _, hlayout⟩ := run_layout rfl (tally_returnsSingleBoxes before) hrun
  obtain rfl := Subsingleton.elim p prepared
  exact ⟨rfl, tally_returnsSingleBoxes before, hnone, after, hrun, hfirst, hrows, hlayout hnone⟩

end Scattered

end Call
end ChestMachine
