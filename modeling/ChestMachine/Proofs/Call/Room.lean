import ChestMachine.Proofs.Call.Restore

/-!
Restoring memory where boxes do not stack. The continuation box and the unit that
was pulled before it leave two slots vacant, so there is room for the next token,
the saved state and the box. Main statement: the three orders place the same rows
but for the one of the box, so that they all succeed or all fault.
-/
namespace ChestMachine

variable {operation : String} {order : RestoreOrder} {memory memory' : Inventory}

namespace Frame

variable {frame : Frame} {size : Nat} {behind full : Rows}

/-- A frame in which no box stacks. -/
structure SingleBoxes (frame : Frame) : Prop where
  next_stacks : 0 < frame.nextToken.limit
  next_single : frame.nextToken.singleBox
  isBox_box : frame.box.isBox
  limit_box : frame.box.limit = 1
  saved_single : frame.saved.SingleBoxes
  results_single : ∀ result ∈ frame.results, result.singleBox

/-- Vacant memory, with room for the next token, the saved state and the box. The
first two take the given rows. -/
structure Room (frame : Frame) (memory : Inventory) (size : Nat) (behind : Rows) : Prop where
  single : frame.SingleBoxes
  vacant : memory.settled = .empty (size + 1)
  saved_lt : frame.saved.items.length < size
  stow_saved : Rows.stow? size frame.saved.units [(frame.nextToken, 1)] = some behind

/-- Where the row of the box stands among the others. -/
def boxIndex (behind full : Rows) : RestoreOrder → Nat
  | .stateThenBox => behind.length
  | .boxThenState => 1
  | .resultsThenBox => full.length

namespace SingleBoxes

theorem stocked_next (h : frame.SingleBoxes) : Rows.Stocked [(frame.nextToken, 1)] :=
  Rows.stocked_one h.next_stacks

theorem single_next (h : frame.SingleBoxes) : Rows.Single [(frame.nextToken, 1)] := by
  intro row hrow
  rw [List.mem_singleton.1 hrow]
  exact h.next_single

theorem stocked_box (h : frame.SingleBoxes) : Rows.Stocked [(frame.box, 1)] := by
  apply Rows.stocked_one
  rw [h.limit_box]
  decide

theorem full_box (h : frame.SingleBoxes) : frame.box.limit ≤ 1 := by
  rw [h.limit_box]
  exact UInt32.le_refl 1

theorem stow?_next (h : frame.SingleBoxes) (hpos : 0 < size) :
    Rows.stow? size [frame.nextToken] [] = some [(frame.nextToken, 1)] := by
  have hf : Rows.fits size frame.nextToken [] := by
    simp [Rows.fits, hpos, h.next_stacks]
  simp only [Rows.stow?, if_pos hf]
  rfl

theorem front_stacks (h : frame.SingleBoxes) (order : RestoreOrder) :
    ∀ unit ∈ frame.front order, 0 < unit.limit := by
  have hbox : 0 < frame.box.limit := by
    rw [h.limit_box]
    decide
  have hnext := h.next_stacks
  cases order <;> simp [front, hnext, hbox]

theorem exists_room (h : frame.SingleBoxes) (hm : memory.settled = .empty (size + 1))
    (hlt : frame.saved.items.length < size) : ∃ behind, frame.Room memory size behind := by
  obtain ⟨behind, hbehind, _⟩ := Rows.stow?_units [(frame.nextToken, 1)]
    (Inventory.stocked_items h.saved_single) (show 1 + _ ≤ size by omega)
  rw [← Inventory.units_eq_units_items] at hbehind
  exact ⟨behind, h, hm, hlt, hbehind⟩

end SingleBoxes

namespace Room

theorem stocked_behind (r : frame.Room memory size behind) : Rows.Stocked behind :=
  Rows.stocked_stow? r.stow_saved r.single.stocked_next

theorem single_behind (r : frame.Room memory size behind) : Rows.Single behind := by
  apply Rows.single_stow? r.stow_saved _ r.single.single_next
  intro unit hunit
  exact Item.singleBox_of_obeys (Inventory.obeys_units r.single.saved_single unit hunit).1

theorem length_le (r : frame.Room memory size behind) : behind.length ≤ size :=
  Rows.length_stow?_le r.stow_saved (Nat.one_le_of_lt r.saved_lt)

theorem length_pos (r : frame.Room memory size behind) : 1 ≤ behind.length :=
  Rows.length_le_length_stow? r.stow_saved

theorem length_le_saved (r : frame.Room memory size behind) :
    behind.length ≤ frame.saved.items.length + 1 := by
  have hlt := r.saved_lt
  obtain ⟨rows, hrows, hle⟩ := Rows.stow?_units [(frame.nextToken, 1)]
    (Inventory.stocked_items r.single.saved_single) (show 1 + _ ≤ size by omega)
  rw [← Inventory.units_eq_units_items, r.stow_saved] at hrows
  rw [Option.some.inj hrows, Nat.add_comm]
  exact hle

/-- Every order places the rows that the others place, and the row of the box
among them. -/
theorem stow?_units (r : frame.Room memory size behind) (order : RestoreOrder) :
    Rows.stow? (size + 1) (frame.units order) [] =
      (Rows.stow? size frame.results behind).map fun full =>
        full.insertIdx (boxIndex behind full order) (frame.box, 1) := by
  have hnext : Rows.stow? (size + 1) [frame.nextToken] [] = some [(frame.nextToken, 1)] :=
    r.single.stow?_next (Nat.succ_pos size)
  have hsaved : Rows.stow? (size + 1) frame.saved.units [(frame.nextToken, 1)] = some behind :=
    Rows.stow?_of_length_le r.stow_saved (Nat.le_succ_of_le r.length_le)
  have hstocked := r.stocked_behind
  have hsingle := r.single_behind
  have hbox := r.single.isBox_box
  have hone := r.single.limit_box
  have hfullbox := r.single.full_box
  cases order with
  | stateThenBox =>
      have hlast : Rows.stow? (size + 1) [frame.box] behind =
          some (behind.insertIdx behind.length (frame.box, 1)) := by
        rw [Rows.stow?_box hstocked hsingle hbox hone, List.insertIdx_length_self,
          if_pos (Nat.lt_succ_of_le r.length_le)]
      have hunits : frame.units .stateThenBox =
          [frame.nextToken] ++ (frame.saved.units ++ ([frame.box] ++ frame.results)) := by
        simp only [units, front, back, List.cons_append, List.nil_append]
      rw [hunits, Rows.stow?_append, hnext, Option.bind_some, Rows.stow?_append, hsaved,
        Option.bind_some, Rows.stow?_append, hlast, Option.bind_some]
      exact Rows.stow?_insertIdx hfullbox (Nat.le_refl _)
  | boxThenState =>
      have hsecond : Rows.stow? (size + 1) [frame.box] [(frame.nextToken, 1)] =
          some ([(frame.nextToken, 1)].insertIdx 1 (frame.box, 1)) := by
        rw [Rows.stow?_box r.single.stocked_next r.single.single_next hbox hone]
        exact if_pos (Nat.succ_lt_succ (Nat.zero_lt_of_lt r.saved_lt))
      have hunits : frame.units .boxThenState =
          [frame.nextToken] ++ ([frame.box] ++ (frame.saved.units ++ frame.results)) := by
        simp only [units, front, back, List.cons_append, List.nil_append]
      rw [hunits, Rows.stow?_append, hnext, Option.bind_some, Rows.stow?_append, hsecond,
        Option.bind_some, Rows.stow?_append, Rows.stow?_insertIdx hfullbox (Nat.le_refl 1),
        r.stow_saved, Option.map_some, Option.bind_some]
      exact Rows.stow?_insertIdx hfullbox r.length_pos
  | resultsThenBox =>
      have hunits : frame.units .resultsThenBox =
          [frame.nextToken] ++ (frame.saved.units ++ (frame.results ++ [frame.box])) := by
        simp only [units, front, back, List.cons_append, List.nil_append]
      rw [hunits, Rows.stow?_append, hnext, Option.bind_some, Rows.stow?_append, hsaved,
        Option.bind_some, Rows.stow?_append_box hstocked hsingle r.single.results_single hbox hone
          r.length_le]
      simp only [boxIndex, List.insertIdx_length_self]

theorem kept (r : frame.Room memory size behind) (order : RestoreOrder) :
    frame.lost order memory = [] := by
  have hlt := r.saved_lt
  rw [lost_of_settled r.vacant]
  exact lost_of_room r.single.saved_single (r.single.front_stacks order) (by omega)

theorem addAll?_units (r : frame.Room memory size behind) (order : RestoreOrder) :
    (memory.addAll? (frame.units order)).map Inventory.settled =
      (Rows.stow? size frame.results behind).map fun full =>
        .ofRows (size + 1) (full.insertIdx (boxIndex behind full order) (frame.box, 1)) := by
  have hm := r.vacant
  rw [← Inventory.ofRows_nil] at hm
  rw [Inventory.addAll?_of_settled hm Rows.stocked_nil, r.stow?_units, Option.map_map]
  rfl

/-- If the results fit behind the saved state, with a slot kept for the box, the
restore succeeds in every order. -/
theorem restore_of_fit (r : frame.Room memory size behind)
    (hfull : Rows.stow? size frame.results behind = some full) (operation : String)
    (order : RestoreOrder) :
    ∃ memory', frame.restore operation order memory = .ok () memory' ∧
      memory'.settled =
        .ofRows (size + 1) (full.insertIdx (boxIndex behind full order) (frame.box, 1)) := by
  have hadd := r.addAll?_units order
  rw [hfull, Option.map_some] at hadd
  obtain ⟨memory', hall, hsettled⟩ := Option.map_eq_some_iff.1 hadd
  exact ⟨memory', (restore_eq_ok_iff_of_kept (r.kept order)).2 hall, hsettled⟩

/-- If they do not, it faults in every order. -/
theorem restore_of_unfit (r : frame.Room memory size behind)
    (hfull : Rows.stow? size frame.results behind = none) (operation : String)
    (order : RestoreOrder) :
    ∃ text memory', frame.restore operation order memory =
      .error ⟨operation, .containerFull text⟩ memory' := by
  have hadd := r.addAll?_units order
  rw [hfull, Option.map_none, Option.map_eq_none_iff] at hadd
  cases hr : frame.restore operation order memory with
  | ok value memory' =>
      have hall := (restore_eq_ok_iff_of_kept (r.kept order)).1 hr
      rw [hadd] at hall
      cases hall
  | error fault memory' =>
      obtain ⟨text, rfl⟩ := restore_error hr
      exact ⟨text, memory', rfl⟩

/-- The rows that a restore leaves are those of the next token, the saved state and the
results, and the row of the box. -/
theorem rows_of_restore (r : frame.Room memory size behind)
    (hr : frame.restore operation order memory = .ok () memory') :
    ∃ full, Rows.stow? size frame.results behind = some full ∧
      memory'.settled =
        .ofRows (size + 1) (full.insertIdx (boxIndex behind full order) (frame.box, 1)) := by
  cases hfull : Rows.stow? size frame.results behind with
  | none =>
      obtain ⟨text, found, he⟩ := r.restore_of_unfit hfull operation order
      rw [hr] at he
      cases he
  | some full =>
      obtain ⟨found, hok, hsettled⟩ := r.restore_of_fit hfull operation order
      rw [hr] at hok
      cases hok
      exact ⟨full, rfl, hsettled⟩

/-- Whatever the results are, the saved state is poured back. -/
theorem pushSaved_ok (r : frame.Room memory size behind) (operation : String)
    (order : RestoreOrder) :
    ∃ ahead poured, pushAll operation (frame.front order) memory = .ok () ahead ∧
      frame.pushSaved operation ahead = .ok () poured := by
  let bare : Frame := { frame with results := [] }
  have hbare : bare.SingleBoxes := { r.single with results_single := nofun }
  have hroom : bare.Room memory size behind := { r with single := hbare }
  have hfront : bare.front order = frame.front order := by
    cases order <;> rfl
  obtain ⟨memory', hok, _⟩ := hroom.restore_of_fit rfl operation order
  obtain ⟨ahead, hadd, hc, _⟩ := restore_eq_ok_iff.1 hok
  rw [hfront] at hadd
  refine ⟨ahead, ahead.fill frame.saved.units, pushAll_eq_ok_iff.2 hadd, ?_⟩
  rw [pushSaved_eq]
  exact if_pos hc

theorem boxIndex_le (r : frame.Room memory size behind)
    (hfull : Rows.stow? size frame.results behind = some full) (order : RestoreOrder) :
    boxIndex behind full order ≤ full.length := by
  have hgrow := Rows.length_le_length_stow? hfull
  cases order with
  | stateThenBox => exact hgrow
  | boxThenState => exact Nat.le_trans r.length_pos hgrow
  | resultsThenBox => exact Nat.le_refl _

theorem stocked_full (r : frame.Room memory size behind)
    (hfull : Rows.stow? size frame.results behind = some full) (order : RestoreOrder) :
    Rows.Stocked (full.insertIdx (boxIndex behind full order) (frame.box, 1)) :=
  Rows.stocked_insertIdx (Rows.stocked_stow? hfull r.stocked_behind) (r.boxIndex_le hfull order)
    r.single.stocked_box

/-- The next token has the first row, and the box comes behind it in every order. -/
theorem first_row (r : frame.Room memory size behind)
    (hfull : Rows.stow? size frame.results behind = some full) (order : RestoreOrder)
    (row : Item × UInt32) :
    ∃ count tail,
      full.insertIdx (boxIndex behind full order) row = (frame.nextToken, count) :: tail := by
  obtain ⟨_, later, hbehind⟩ := Rows.head_stow? r.stow_saved
  rw [hbehind] at hfull
  obtain ⟨count, tail, rfl⟩ := Rows.head_stow? hfull
  have hindex : ∃ k, boxIndex behind ((frame.nextToken, count) :: tail) order = k + 1 := by
    cases order with
    | stateThenBox => exact ⟨behind.length - 1, (Nat.sub_add_cancel r.length_pos).symm⟩
    | boxThenState => exact ⟨0, rfl⟩
    | resultsThenBox => exact ⟨tail.length, rfl⟩
  obtain ⟨k, hk⟩ := hindex
  rw [hk, List.insertIdx_succ_cons]
  exact ⟨count, _, rfl⟩

end Room

end Frame

namespace Call

variable {n : Nat} {call : Call n} {machine : Machine}

/-- On this machine, the function hands out no box that stacks. -/
def ReturnsSingleBoxes (call : Call n) (machine : Machine) : Prop :=
  ∀ p : call.Prepared machine, ∀ result ∈ p.results, result.singleBox

namespace Prepared

theorem frame_singleBoxes (p : call.Prepared machine) (h : machine.memory.SingleBoxes)
    (hr : call.ReturnsSingleBoxes machine) : p.frame.SingleBoxes where
  next_stacks := (p.next_obeys h).1.2
  next_single := Item.singleBox_of_obeys (p.next_obeys h).1.1
  isBox_box := rfl
  limit_box := rfl
  saved_single := Inventory.obeys_repacked (p.rest_obeys h)
  results_single := hr p

theorem exists_room (p : call.Prepared machine) (h : machine.memory.SingleBoxes)
    (hr : call.ReturnsSingleBoxes machine) :
    ∃ size behind, machine.memory.size = size + 1 ∧
      p.frame.Room p.reached.memory size behind := by
  have hfree := p.two_slots_free h
  have hfit := machine.memory.length_items_le_size
  have hsaved := (Inventory.repacked_spec (p.rest_obeys h)).2.2.2
  have hsize : machine.memory.size = machine.memory.size - 1 + 1 := by omega
  have hlt : p.frame.saved.items.length < machine.memory.size - 1 := by
    show p.rest.repacked.items.length < _
    omega
  have hm := p.settled_reached h
  rw [hsize] at hm
  obtain ⟨behind, room⟩ := (p.frame_singleBoxes h hr).exists_room hm hlt
  exact ⟨_, behind, hsize, room⟩

end Prepared
end Call
end ChestMachine
