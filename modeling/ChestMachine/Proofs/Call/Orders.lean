import ChestMachine.Proofs.Call.Conservation
import ChestMachine.Proofs.Call.Layout

/-!
The same call under each of the restore orders. Main statement: if boxes do
not stack and the function does not look at the order, the calls all succeed, all
fault in the same way before memory is restored, or all find memory full. When
they succeed, memory differs only in the slot where the continuation box lies.
-/
namespace ChestMachine

def Context.withOrder (context : Context) (order : RestoreOrder) : Context :=
  { context with config := { context.config with restoreOrder := order } }

def Machine.withOrder (machine : Machine) (order : RestoreOrder) : Machine :=
  { machine with context := machine.context.withOrder order }

namespace Call

variable {n : Nat} {call : Call n} {machine : Machine}

/-- Whatever the restore order is, the function gives the same results or the same
fault, and results come with the same context but for the order. -/
structure IgnoresOrder (call : Call n) : Prop where
  ok : ∀ {arguments context results after},
    call.function arguments context = .ok results after → ∀ order, ∃ after',
      call.function arguments (context.withOrder order) = .ok results after' ∧
        ∃ set, after' = after.withOrder set
  error : ∀ {arguments context fault after},
    call.function arguments context = .error fault after → ∀ order, ∃ after',
      call.function arguments (context.withOrder order) = .error fault after'

/-- A call is prepared in the same way for every order. -/
theorem Prepared.withOrder (p : call.Prepared machine) (hi : call.IgnoresOrder)
    (order : RestoreOrder) :
    ∃ q : call.Prepared (machine.withOrder order),
      q.frame = p.frame ∧ q.reached.memory = p.reached.memory ∧ q.due = p.due ∧
        q.context.store = p.context.store := by
  obtain ⟨after, hfunction, set, rfl⟩ := hi.ok p.function_ok order
  refine ⟨⟨p.returnToken, p.arguments, p.box, p.contents, p.nextToken, p.opened, p.closed,
    p.rest, p.results, _, p.pulled, p.contents_box, p.pull_contents, hfunction, p.add_opened⟩,
    ?_, ?_, ?_, ?_⟩
  · rfl
  · rfl
  · rfl
  · rfl

/-- Or it faults in the same way for every order. -/
theorem prepare_error_withOrder (hi : call.IgnoresOrder) (machine : Machine)
    (order : RestoreOrder) :
    FaultsAs (fun fault => ∃ middle,
      call.prepare (machine.withOrder order) = .error fault middle) call.prepare machine := by
  simp only [prepare, addOrFault_eq_orThrow]
  refine .bind ?_ ?_
  · intro fault stopped he
    have hpop := (onMemory_eq_error_iff.1 he).1
    exact ⟨⟨stopped.memory, machine.context.withOrder order⟩,
      bind_of_error (onMemory_eq_error_iff.2 ⟨hpop, rfl⟩)⟩
  intro operands middle hok
  obtain ⟨hpop, hcontext⟩ := onMemory_eq_ok_iff.1 hok
  have hsame : onMemory (popOperands call.name n) (machine.withOrder order) =
      .ok operands (middle.withOrder order) :=
    onMemory_eq_ok_iff.2 ⟨hpop, congrArg (Context.withOrder · order) hcontext⟩
  simp only [bind_of_ok hsame]
  refine .bind ?_ ?_
  · intro fault stopped he
    obtain ⟨after, hafter⟩ := hi.error (onContext_eq_error_iff.1 he).1 order
    exact ⟨⟨middle.memory, after⟩, bind_of_error (onContext_eq_error_iff.2 ⟨hafter, rfl⟩)⟩
  intro results last hok
  obtain ⟨after, hafter, _⟩ := hi.ok (onContext_eq_ok_iff.1 hok).1 order
  have hsame : onContext (call.function operands.arguments) (middle.withOrder order) =
      .ok results ⟨middle.memory, after⟩ := onContext_eq_ok_iff.2 ⟨hafter, rfl⟩
  simp only [bind_of_ok hsame]
  refine .orThrow_bind ?_ ?_
  · intro hnone
    exact ⟨⟨middle.memory, after⟩, bind_of_error (orThrow_eq_error_iff.2 ⟨hnone, rfl, rfl⟩)⟩
  · intro closed _
    exact .of_ok rfl

/-- A call whose results fit succeeds, and the row of the box stands among those of
all other units. -/
theorem Prepared.run_of_fit (p : call.Prepared machine) (h : machine.memory.SingleBoxes)
    {size : Nat} {behind full : Rows} (r : p.frame.Room p.reached.memory size behind)
    (hfull : Rows.stow? size p.frame.results behind = some full) :
    ∃ machine', call.run machine = .ok () machine' ∧ machine'.context = p.context ∧
      (∀ x, machine'.memory.countOf x = p.due x) ∧
      ∃ k, machine'.memory.items[k]? = some (p.newBox, 1) ∧
        machine'.memory.items.eraseIdx k = full := by
  obtain ⟨memory, hrestore, hsettled⟩ :=
    r.restore_of_fit hfull call.name p.context.config.restoreOrder
  refine ⟨⟨memory, p.context⟩, (run_eq_ok_iff h).2 ⟨p, rfl, hrestore⟩, rfl, ?_, ?_⟩
  · intro x
    have hcount := countOf_run h p hrestore x
    rwa [lost_of_singleBoxes h p] at hcount
  · have hle := r.boxIndex_le hfull p.context.config.restoreOrder
    have hitems : memory.items =
        full.insertIdx (Frame.boxIndex behind full p.context.config.restoreOrder)
          (p.newBox, 1) := by
      rw [← Inventory.items_settled, hsettled]
      exact Inventory.items_ofRows (r.stocked_full hfull _)
    refine ⟨Frame.boxIndex behind full p.context.config.restoreOrder, ?_, ?_⟩
    · rw [hitems, List.getElem?_insertIdx_self, if_pos hle]
    · rw [hitems, List.eraseIdx_insertIdx_self]

theorem Prepared.run_of_unfit (p : call.Prepared machine) (h : machine.memory.SingleBoxes)
    {size : Nat} {behind : Rows} (r : p.frame.Room p.reached.memory size behind)
    (hfull : Rows.stow? size p.frame.results behind = none) :
    ∃ text machine', call.run machine = .error ⟨call.name, .containerFull text⟩ machine' := by
  obtain ⟨text, memory, hrestore⟩ :=
    r.restore_of_unfit hfull call.name p.context.config.restoreOrder
  refine ⟨text, ⟨memory, p.context⟩, ?_⟩
  rw [run_of_prepare (p.prepare_eq h), onMemory_eq_error_iff]
  exact ⟨hrestore, rfl⟩

theorem run_withOrder (h : machine.memory.SingleBoxes) (hi : call.IgnoresOrder)
    (hr : call.ReturnsSingleBoxes machine) :
    (∃ (p : call.Prepared machine) (rows : Rows), ∀ order, ∃ machine',
      call.run (machine.withOrder order) = .ok () machine' ∧
        machine'.context.store = p.context.store ∧
        (∀ x, machine'.memory.countOf x = p.due x) ∧
        ∃ k, machine'.memory.items[k]? = some (p.newBox, 1) ∧
          machine'.memory.items.eraseIdx k = rows) ∨
    (∃ fault, ∀ order, ∃ machine',
      call.prepare (machine.withOrder order) = .error fault machine' ∧
        call.run (machine.withOrder order) = .error fault machine') ∨
    ∀ order, ∃ frame middle text machine',
      call.prepare (machine.withOrder order) = .ok frame middle ∧
        call.run (machine.withOrder order) =
          .error ⟨call.name, .containerFull text⟩ machine' := by
  cases hp : call.prepare machine with
  | error fault middle =>
      refine Or.inr (Or.inl ⟨fault, ?_⟩)
      intro order
      obtain ⟨machine', he⟩ := prepare_error_withOrder hi machine order fault middle hp
      exact ⟨machine', he, run_of_prepare_error he⟩
  | ok frame middle =>
      obtain ⟨p, _, _⟩ := (prepare_eq_ok_iff h).1 hp
      obtain ⟨size, behind, _, room⟩ := p.exists_room h hr
      have h' : ∀ order, (machine.withOrder order).memory.SingleBoxes := fun _ => h
      have same : ∀ order, ∃ q : call.Prepared (machine.withOrder order),
          q.frame = p.frame ∧ q.due = p.due ∧ q.context.store = p.context.store ∧
            q.frame.Room q.reached.memory size behind := by
        intro order
        obtain ⟨q, hframe, hreached, hdue, hstore⟩ := p.withOrder hi order
        refine ⟨q, hframe, hdue, hstore, ?_⟩
        rw [hframe, hreached]
        exact room
      cases hfull : Rows.stow? size p.frame.results behind with
      | none =>
          refine Or.inr (Or.inr ?_)
          intro order
          obtain ⟨q, hframe, _, _, hq⟩ := same order
          rw [← hframe] at hfull
          obtain ⟨text, machine', hrun⟩ := q.run_of_unfit (h' order) hq hfull
          exact ⟨q.frame, q.reached, text, machine', q.prepare_eq (h' order), hrun⟩
      | some full =>
          refine Or.inl ⟨p, full, ?_⟩
          intro order
          obtain ⟨q, hframe, hdue, hstore, hq⟩ := same order
          have hbox : q.newBox = p.newBox := congrArg Frame.box hframe
          rw [← hframe] at hfull
          obtain ⟨machine', hrun, hcontext, hcount, hrows⟩ := q.run_of_fit (h' order) hq hfull
          rw [hdue] at hcount
          rw [hbox] at hrows
          exact ⟨machine', hrun, by rw [hcontext, hstore], hcount, hrows⟩

namespace Scattered

theorem tally_ignoresOrder : tally.IgnoresOrder where
  ok := by
    intro arguments context results after h order
    cases h
    exact ⟨_, rfl, order, rfl⟩
  error := nofun

/-- All three calls succeed, and memory is the same apart from the row of the box. -/
theorem tally_withOrder :
    before.memory.SingleBoxes ∧ tally.IgnoresOrder ∧ tally.ReturnsSingleBoxes before ∧
    ∃ rows, ∀ order, ∃ after,
      tally.run (before.withOrder order) = .ok () after ∧
        after.memory.items = layout order ∧
        after.context.store = before.context.store ∧
        (∀ x, after.memory.countOf x = prepared.due x) ∧
        ∃ k, after.memory.items[k]? = some (closed, 1) ∧ after.memory.items.eraseIdx k = rows := by
  have hruns : ∀ order, ∃ after, tally.run (before.withOrder order) = .ok () after ∧
      after.memory.items = layout order := by
    intro order
    cases order <;> exact ⟨_, rfl, rfl⟩
  have hcalls := run_withOrder rfl tally_ignoresOrder (tally_returnsSingleBoxes before)
  refine ⟨rfl, tally_ignoresOrder, tally_returnsSingleBoxes before, ?_⟩
  rcases hcalls with ⟨p, rows, hsucceed⟩ | ⟨fault, hfault⟩ | hfull
  · obtain rfl := Subsingleton.elim p prepared
    refine ⟨rows, fun order => ?_⟩
    obtain ⟨after, hrun, hitems⟩ := hruns order
    obtain ⟨after', hrun', hrest⟩ := hsucceed order
    obtain ⟨_, rfl⟩ := EStateM.Result.ok.inj (hrun.symm.trans hrun')
    exact ⟨after, hrun, hitems, hrest⟩
  · obtain ⟨after, hrun, _⟩ := hruns .stateThenBox
    obtain ⟨_, _, hrun'⟩ := hfault .stateThenBox
    cases hrun.symm.trans hrun'
  · obtain ⟨after, hrun, _⟩ := hruns .stateThenBox
    obtain ⟨_, _, _, _, _, hrun'⟩ := hfull .stateThenBox
    cases hrun.symm.trans hrun'

end Scattered

end Call
end ChestMachine
