import ChestMachine.Proofs.Call.Prepared
import ChestMachine.Proofs.Refilling

/-!
Restoring memory, in any order. Every order pushes some units, pours the saved
state behind them, and pushes the others. Main statements: when a restore
succeeds, and with it the call; that it can fault in one way only; that two
slots to spare are enough for the saved state; and what a call leaves that takes
all units of memory, so that nothing is saved.
-/
namespace ChestMachine

variable {operation : String} {order : RestoreOrder} {memory memory' : Inventory}

namespace Frame

variable {frame : Frame}

/-- The units that go in ahead of the saved state. -/
def front (frame : Frame) : RestoreOrder → List Item
  | .boxThenState => [frame.nextToken, frame.box]
  | .stateThenBox | .resultsThenBox => [frame.nextToken]

/-- The units that go in behind it. -/
def back (frame : Frame) : RestoreOrder → List Item
  | .stateThenBox => frame.box :: frame.results
  | .boxThenState => frame.results
  | .resultsThenBox => frame.results ++ [frame.box]

def units (frame : Frame) (order : RestoreOrder) : List Item :=
  frame.front order ++ frame.saved.units ++ frame.back order

/-- The saved units that memory refuses. -/
def lost (frame : Frame) (order : RestoreOrder) (memory : Inventory) : List Item :=
  Inventory.refusals frame.saved.units (memory.fill (frame.front order))

theorem restore_eq (frame : Frame) (operation : String) (order : RestoreOrder) :
    frame.restore operation order = (do
      pushAll operation (frame.front order)
      frame.pushSaved operation
      pushAll operation (frame.back order)) := by
  have one : ∀ item, pushAll operation [item] = push operation item := by
    intro item
    rw [pushAll_cons]
    exact bind_pure_unit
  cases order with
  | stateThenBox =>
      simp only [restore, front, back, pushAll_cons _ frame.results, one]
      rfl
  | boxThenState =>
      simp only [restore, front, back, pushAll_cons _ [frame.box], one, bind_assoc]
      rfl
  | resultsThenBox =>
      simp only [restore, front, back, pushAll_append, one]
      rfl

theorem pushSaved_eq (frame : Frame) (operation : String) (memory : Inventory) :
    frame.pushSaved operation memory =
      if (frame.saved.transfer memory none).isComplete then
        .ok () (memory.fill frame.saved.units)
      else .error (savedStateFull operation) (memory.fill frame.saved.units) := by
  have : frame.pushSaved operation memory =
      (if (frame.saved.transfer memory none).isComplete then pure ()
      else throw (savedStateFull operation) : MemoryM Unit)
        (frame.saved.transfer memory none).target := rfl
  rw [this, Inventory.target_transfer_none]
  split <;> rfl

theorem restore_eq_ok_iff :
    frame.restore operation order memory = .ok () memory' ↔
      ∃ ahead, memory.addAll? (frame.front order) = some ahead ∧
        (frame.saved.transfer ahead none).isComplete ∧
        (ahead.fill frame.saved.units).addAll? (frame.back order) = some memory' := by
  simp only [restore_eq, bind_eq_ok_iff, pushSaved_eq]
  constructor
  · intro ⟨_, ahead, hfront, _, _, hsaved, hback⟩
    split at hsaved
    · rename_i hc
      cases hsaved
      exact ⟨ahead, pushAll_eq_ok_iff.1 hfront, hc, pushAll_eq_ok_iff.1 hback⟩
    · cases hsaved
  · intro ⟨ahead, hfront, hc, hback⟩
    exact ⟨(), ahead, pushAll_eq_ok_iff.2 hfront, (), _, if_pos hc, pushAll_eq_ok_iff.2 hback⟩

/-- A restore that faults found memory full. -/
theorem restore_error {fault : Fault}
    (h : frame.restore operation order memory = .error fault memory') :
    ∃ text, fault = ⟨operation, .containerFull text⟩ := by
  have hall : FaultsAs (fun fault => ∃ text, fault = ⟨operation, .containerFull text⟩)
      (frame.restore operation order) memory := by
    rw [restore_eq]
    refine .bind (faultsAs_pushAll operation _ memory) ?_
    intro _ ahead _
    refine .bind ?_ ?_
    · intro fault last he
      rw [pushSaved_eq] at he
      split at he
      · cases he
      · cases he
        exact ⟨_, rfl⟩
    · intro _ poured _
      exact faultsAs_pushAll operation _ poured
  exact hall fault memory' h

/-- Nothing is lost by the units that are pushed one by one. -/
theorem countOf_restore (h : frame.restore operation order memory = .ok () memory') (x : Item) :
    memory'.countOf x + (frame.lost order memory).countP (· == x) =
      memory.countOf x + frame.saved.countOf x + (frame.front order ++ frame.back order).countP
        (· == x) := by
  obtain ⟨ahead, hfront, _, hback⟩ := restore_eq_ok_iff.1 h
  have hlost : frame.lost order memory = Inventory.refusals frame.saved.units ahead := by
    rw [lost, (Inventory.addAll?_eq_some_iff.1 hfront).2]
  have hsaved := Inventory.countOf_fill frame.saved.units ahead x
  rw [← Inventory.countOf_eq_countP, Inventory.countOf_addAll? hfront] at hsaved
  rw [hlost, Inventory.countOf_addAll? hback, List.countP_append]
  omega

theorem countP_front_back (frame : Frame) (order : RestoreOrder) (x : Item) :
    (frame.front order ++ frame.back order).countP (· == x) =
      (if frame.nextToken == x then 1 else 0) + (if frame.box == x then 1 else 0) +
        frame.results.countP (· == x) := by
  cases order <;>
    simp only [front, back, List.countP_append, List.countP_cons, List.countP_nil] <;> omega

/-- If no saved unit is lost, restoring is adding one unit after the other. -/
theorem restore_eq_ok_iff_of_kept (h : frame.lost order memory = []) :
    frame.restore operation order memory = .ok () memory' ↔
      memory.addAll? (frame.units order) = some memory' := by
  rw [restore_eq_ok_iff, units, Inventory.addAll?_append, Inventory.addAll?_append]
  cases hfront : memory.addAll? (frame.front order) with
  | none => simp
  | some ahead =>
      have hkept : Inventory.refusals frame.saved.units ahead = [] := by
        rw [lost, (Inventory.addAll?_eq_some_iff.1 hfront).2] at h
        exact h
      have hsaved := Inventory.addAll?_eq_some_iff.2 ⟨hkept, rfl⟩
      have hc := Inventory.isComplete_transfer_none hkept
      simp only [Option.some.injEq, exists_eq_left', hc, true_and, Option.bind_some, hsaved]

/-- What the vacant slots of memory remember does not decide what is lost. -/
theorem lost_of_settled {size : Nat} (h : memory.settled = .empty size) :
    frame.lost order memory = frame.lost order (.empty size) := by
  rw [lost, lost, ← h, Inventory.fill_settled, Inventory.refusals_settled]

theorem length_front_le (frame : Frame) (order : RestoreOrder) :
    (frame.front order).length ≤ 2 := by
  cases order <;> simp [front]

/-- With two slots to spare, all of the saved state goes back. -/
theorem lost_of_room {rule : Item → Bool} {size : Nat} (hs : frame.saved.obeys rule)
    (hf : ∀ unit ∈ frame.front order, 0 < unit.limit)
    (hroom : frame.saved.items.length + 2 ≤ size) :
    frame.lost order (.empty size) = [] := by
  have htwo : ∃ rows, Rows.stow? 2 (frame.front order) [] = some rows := by
    apply Rows.stow?_of_room hf
    simpa using frame.length_front_le order
  obtain ⟨rows, htwo⟩ := htwo
  have hle := Rows.length_stow?_le htwo (Nat.zero_le 2)
  have hfront : Rows.stow? size (frame.front order) [] = some rows :=
    Rows.stow?_of_length_le htwo (by omega)
  have hlen : rows.length + frame.saved.items.length ≤ size := by omega
  obtain ⟨all, hall, _⟩ := Rows.stow?_units rows (Inventory.stocked_items hs) hlen
  have hadd : (Inventory.empty size).addAll? (frame.front order ++ frame.saved.units) =
      some (.ofRows size all) := by
    rw [Inventory.addAll?_empty, Rows.stow?_append,
      hfront, Option.bind_some, Inventory.units_eq_units_items, hall]
    rfl
  have hnone := (Inventory.addAll?_eq_some_iff.1 hadd).1
  rw [Inventory.refusals_append] at hnone
  exact (List.append_eq_nil_iff.1 hnone).2

end Frame

namespace Call

variable {n : Nat} {call : Call n} {machine machine' : Machine}

theorem saveMemory_of_isEmpty (operation : String) {memory : Inventory} (h : memory.isEmpty) :
    saveMemory operation memory = .ok (.empty memory.size) memory := by
  have hkept : Inventory.refusals memory.units (.empty memory.size) = [] := by
    rw [(Inventory.isEmpty_iff memory).1 h]
    rfl
  have hcomplete := Inventory.isComplete_transfer_none hkept
  rw [saveMemory_of_kept operation hkept, Inventory.drained,
    Inventory.source_transfer_of_isComplete hcomplete, Inventory.emptied_of_isEmpty h,
    Inventory.repacked, (Inventory.isEmpty_iff memory).1 h]
  rfl

/-- A call that takes all units of memory refills the same slots: there is no saved state. -/
theorem run_of_units {arguments : Vector Item n} {returnToken box nextToken : Item}
    {contents opened closed memory : Inventory} {results : List Item} {context : Context}
    (hunits : machine.memory.units = returnToken :: (arguments.toList ++ [box]))
    (hcontents : box.contents? = some contents) (hnext : contents.pull? = some (nextToken, opened))
    (hfunction : call.function arguments machine.context = .ok results context)
    (hclosed : opened.add? returnToken = some closed)
    (hrefill : machine.memory.emptied.addAll? (Frame.units
      ⟨nextToken, .empty machine.memory.size, .box closed, results⟩ context.config.restoreOrder) =
        some memory) :
    call.run machine = .ok () ⟨memory, context⟩ := by
  have hlength : machine.memory.units.length = n + 2 := by
    rw [hunits, List.length_cons, List.length_append, Vector.length_toList, List.length_singleton]
  have hpulled : machine.memory.pullMany (n + 2) =
      (returnToken :: (arguments.toList ++ [box]), machine.memory.emptied) := by
    refine Prod.ext ?_ ?_
    · rw [(Inventory.pullMany_units _ _).1, ← hlength, List.take_length, hunits]
    · rw [Inventory.snd_pullMany, Inventory.without_eq_emptied (Nat.le_of_eq hlength)]
  have hsaved := saveMemory_of_isEmpty call.name machine.memory.isEmpty_emptied
  rw [Inventory.size_emptied] at hsaved
  have hpop : onMemory (popOperands call.name n) machine = .ok _ ⟨_, machine.context⟩ :=
    onMemory_eq_ok_iff.2 ⟨popOperands_of_pullMany hpulled hcontents hnext hsaved, rfl⟩
  have hresults : onContext (call.function arguments) ⟨machine.memory.emptied, machine.context⟩ =
      .ok results ⟨machine.memory.emptied, context⟩ := onContext_eq_ok_iff.2 ⟨hfunction, rfl⟩
  have hprepare : call.prepare machine =
      .ok ⟨nextToken, .empty machine.memory.size, .box closed, results⟩
        ⟨machine.memory.emptied, context⟩ := by
    refine (bind_of_ok hpop).trans ?_
    refine (bind_of_ok hresults).trans ?_
    rw [addOrFault_eq_orThrow]
    exact bind_of_ok (orThrow_eq_ok_iff.2 ⟨hclosed, rfl⟩)
  rw [run_of_prepare hprepare, onMemory_eq_ok_iff]
  refine ⟨(Frame.restore_eq_ok_iff_of_kept ?_).2 hrefill, rfl⟩
  rw [Frame.lost, Inventory.units_empty]
  rfl

/-- A successful call was prepared and restored memory. -/
theorem run_eq_ok_iff {rule : Item → Bool} (h : machine.memory.obeys rule) :
    call.run machine = .ok () machine' ↔
      ∃ p : call.Prepared machine, machine'.context = p.context ∧
        p.frame.restore call.name p.context.config.restoreOrder p.reached.memory =
          .ok () machine'.memory := by
  constructor
  · intro hrun
    cases hp : call.prepare machine with
    | error fault middle =>
        rw [run_of_prepare_error hp] at hrun
        cases hrun
    | ok frame middle =>
        obtain ⟨p, rfl, rfl⟩ := (prepare_eq_ok_iff h).1 hp
        rw [run_of_prepare hp, onMemory_eq_ok_iff] at hrun
        exact ⟨p, hrun.2, hrun.1⟩
  · intro hrun
    obtain ⟨p, hcontext, hrestore⟩ := hrun
    rw [run_of_prepare (p.prepare_eq h), onMemory_eq_ok_iff]
    exact ⟨hrestore, hcontext⟩

end Call
end ChestMachine
