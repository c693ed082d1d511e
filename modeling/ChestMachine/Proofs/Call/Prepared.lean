import ChestMachine.Proofs.Effects
import ChestMachine.Proofs.Layout

/-!
A call up to the point where memory is restored. Main statements: a call is
its preparation followed by the restore; and the preparation succeeds exactly
when units can be pulled for all operands, the last of them is a box with a
token in it, the function returns, and the box takes the return token. The saved
state is then what is left of memory, repacked, and memory is vacant.
-/
namespace ChestMachine

variable {operation : String} {n : Nat}

theorem popArguments_eq_ok_iff {memory memory' : Inventory} {arguments : Vector Item n} :
    popArguments operation n memory = .ok arguments memory' ↔
      memory.pullMany n = (arguments.toList, memory') := by
  induction n generalizing memory' with
  | zero =>
      obtain rfl : arguments = #v[] := Vector.eq_empty
      simp only [popArguments, pure_eq_ok_iff, true_and, Inventory.pullMany, Vector.toList_empty,
        Prod.mk.injEq, eq_comm]
  | succ n ih =>
      obtain ⟨front, last, rfl⟩ : ∃ front last, arguments = front.push last :=
        ⟨arguments.pop, arguments.back, (Vector.push_pop_back arguments).symm⟩
      rw [Vector.toList_push, Inventory.pullMany_eq_snoc_iff Vector.length_toList]
      simp only [popArguments, bind_eq_ok_iff, pure_eq_ok_iff, ih, pop_eq_ok_iff]
      constructor
      · rintro ⟨items, mid, hitems, item, rest, hitem, heq, hrest⟩
        obtain ⟨rfl, rfl⟩ := Vector.push_eq_push.1 heq
        rw [hrest]
        exact ⟨mid, hitems, hitem⟩
      · rintro ⟨mid, hfront, hlast⟩
        exact ⟨front, mid, hfront, last, memory', hlast, rfl, rfl⟩

/-- What saving leaves behind: vacant slots that remember. -/
def Inventory.drained (memory : Inventory) : Inventory :=
  (memory.transfer (.empty memory.size) none).source

theorem saveMemory_of_kept (operation : String) {memory : Inventory}
    (h : Inventory.refusals memory.units (.empty memory.size) = []) :
    saveMemory operation memory = .ok memory.repacked memory.drained := by
  have hc := Inventory.isComplete_transfer_none h
  have : saveMemory operation memory =
      (if (memory.transfer (.empty memory.size) none).isComplete then
        pure (memory.transfer (.empty memory.size) none).target
      else throw (savedStateFull operation) : MemoryM Inventory) memory.drained := rfl
  rw [this, if_pos hc, Inventory.target_transfer_none]
  rfl

theorem saveMemory_of_obeys (operation : String) {rule : Item → Bool} {memory : Inventory}
    (h : memory.obeys rule) : saveMemory operation memory = .ok memory.repacked memory.drained :=
  saveMemory_of_kept operation (Inventory.repacked_spec h).1

theorem Inventory.settled_drained {rule : Item → Bool} {memory : Inventory}
    (h : memory.obeys rule) : memory.drained.settled = .empty memory.size :=
  settled_source_transfer (isComplete_transfer_none (repacked_spec h).1)

/-- Popping goes through when there is a unit for each operand and the last of them is a box
with a token in it. -/
theorem popOperands_of_pullMany {memory memory' rest contents opened saved : Inventory}
    {returnToken box nextToken : Item} {arguments : Vector Item n}
    (hpulled : memory.pullMany (n + 2) = (returnToken :: (arguments.toList ++ [box]), rest))
    (hcontents : box.contents? = some contents) (hnext : contents.pull? = some (nextToken, opened))
    (hsaved : saveMemory operation rest = .ok saved memory') :
    popOperands operation n memory =
      .ok ⟨returnToken, arguments, opened, nextToken, saved⟩ memory' := by
  obtain ⟨first, htoken, hlater⟩ := Inventory.pullMany_eq_cons_iff.1 hpulled
  obtain ⟨second, harguments, hbox⟩ :=
    (Inventory.pullMany_eq_snoc_iff Vector.length_toList).1 hlater
  rw [popOperands, bind_of_ok (pop_of_pull? htoken),
    bind_of_ok (popArguments_eq_ok_iff.2 harguments), bind_of_ok (pop_of_pull? hbox),
    openBox_eq_orThrow, bind_of_ok (orThrow_eq_ok_iff.2 ⟨hcontents, rfl⟩),
    pullOrFault_eq_orThrow, bind_of_ok (orThrow_eq_ok_iff.2 ⟨hnext, rfl⟩)]
  exact bind_of_ok hsaved

/-- Popping operands is pulling units, opening the last of them, and saving the rest. -/
theorem popOperands_eq_ok_iff_saves {memory memory' : Inventory} {operands : Operands n} :
    popOperands operation n memory = .ok operands memory' ↔
      ∃ box contents rest,
        memory.pullMany (n + 2) =
          (operands.returnToken :: (operands.arguments.toList ++ [box]), rest) ∧
        box.contents? = some contents ∧
        contents.pull? = some (operands.nextToken, operands.box) ∧
        saveMemory operation rest = .ok operands.saved memory' := by
  constructor
  · simp only [popOperands, openBox_eq_orThrow, pullOrFault_eq_orThrow, bind_eq_ok_iff,
      pop_eq_ok_iff, popArguments_eq_ok_iff, orThrow_eq_ok_iff, pure_eq_ok_iff]
    rintro ⟨token, _, htoken, arguments, _, harguments, box, _, hbox, contents, _,
      ⟨hcontents, rfl⟩, ⟨next, opened⟩, _, ⟨hnext, rfl⟩, saved, _, hsaved, rfl, rfl⟩
    have hpulled := Inventory.pullMany_eq_cons_iff.2
      ⟨_, htoken, (Inventory.pullMany_eq_snoc_iff Vector.length_toList).2 ⟨_, harguments, hbox⟩⟩
    exact ⟨box, contents, _, hpulled, hcontents, hnext, hsaved⟩
  · obtain ⟨token, arguments, opened, next, saved⟩ := operands
    rintro ⟨box, contents, rest, hpulled, hcontents, hnext, hsaved⟩
    exact popOperands_of_pullMany hpulled hcontents hnext hsaved

/-- Saving cannot fail in memory that obeys a rule. -/
theorem popOperands_eq_ok_iff {rule : Item → Bool} {memory memory' : Inventory}
    {operands : Operands n} (h : memory.obeys rule) :
    popOperands operation n memory = .ok operands memory' ↔
      ∃ box contents rest,
        memory.pullMany (n + 2) =
          (operands.returnToken :: (operands.arguments.toList ++ [box]), rest) ∧
        box.contents? = some contents ∧
        contents.pull? = some (operands.nextToken, operands.box) ∧
        operands.saved = rest.repacked ∧ memory' = rest.drained := by
  have hsaves : ∀ {items rest}, memory.pullMany (n + 2) = (items, rest) →
      (saveMemory operation rest = .ok operands.saved memory' ↔
        operands.saved = rest.repacked ∧ memory' = rest.drained) := by
    intro items rest hp
    have hrest := (Inventory.obeys_pullMany h (n + 2)).2
    rw [hp] at hrest
    rw [saveMemory_of_obeys operation hrest, EStateM.Result.ok.injEq]
    exact and_congr eq_comm eq_comm
  rw [popOperands_eq_ok_iff_saves]
  refine exists_congr fun box => exists_congr fun contents => exists_congr fun rest => ?_
  exact and_congr_right fun hp => and_congr_right' (and_congr_right' (hsaves hp))

theorem faultsAs_popArguments (operation : String) (n : Nat) (memory : Inventory) :
    FaultsAs (·.cause.category = .protocol) (popArguments operation n) memory := by
  induction n with
  | zero => exact .of_ok rfl
  | succ n ih =>
      simp only [popArguments]
      refine .bind ih ?_
      intro front middle _
      refine .bind (faultsAs_pop rfl) ?_
      intro last rest _
      exact .of_ok rfl

/-- Taking the operands faults over the operands only: saving the rest cannot fail. -/
theorem faultsAs_popOperands {rule : Item → Bool} {memory : Inventory} (h : memory.obeys rule)
    (operation : String) (n : Nat) :
    FaultsAs (·.cause.category = .protocol) (popOperands operation n) memory := by
  simp only [popOperands, openBox_eq_orThrow, pullOrFault_eq_orThrow]
  refine .bind (faultsAs_pop rfl) ?_
  intro token first htoken
  have hfirst := (Inventory.obeys_pull? h (pop_eq_ok_iff.1 htoken)).2
  refine .bind (faultsAs_popArguments operation n first) ?_
  intro arguments second harguments
  have hsecond := (Inventory.obeys_pullMany hfirst n).2
  rw [popArguments_eq_ok_iff.1 harguments] at hsecond
  refine .bind (faultsAs_pop rfl) ?_
  intro box rest hbox
  have hrest := (Inventory.obeys_pull? hsecond (pop_eq_ok_iff.1 hbox)).2
  refine .orThrow_bind (fun _ => rfl) ?_
  intro contents _
  refine .orThrow_bind (fun _ => rfl) ?_
  intro opened _
  refine .bind (.of_ok (saveMemory_of_obeys operation hrest)) ?_
  intro saved last _
  exact .of_ok rfl

section Lift

variable {α : Type} {machine machine' : Machine} {a : α} {fault : Fault}

theorem onMemory_eq_ok_iff {effect : MemoryM α} :
    onMemory effect machine = .ok a machine' ↔
      effect machine.memory = .ok a machine'.memory ∧ machine'.context = machine.context := by
  obtain ⟨memory', context'⟩ := machine'
  simp only [onMemory]
  cases effect machine.memory with
  | ok b memory => simp [and_assoc, eq_comm]
  | error e memory => simp

theorem onMemory_eq_error_iff {effect : MemoryM α} :
    onMemory effect machine = .error fault machine' ↔
      effect machine.memory = .error fault machine'.memory ∧
        machine'.context = machine.context := by
  obtain ⟨memory', context'⟩ := machine'
  simp only [onMemory]
  cases effect machine.memory with
  | ok b memory => simp
  | error e memory => simp [and_assoc, eq_comm]

theorem onContext_eq_ok_iff {effect : ContextM α} :
    onContext effect machine = .ok a machine' ↔
      effect machine.context = .ok a machine'.context ∧ machine'.memory = machine.memory := by
  obtain ⟨memory', context'⟩ := machine'
  simp only [onContext]
  cases effect machine.context with
  | ok b context =>
      simp only [EStateM.Result.ok.injEq, Machine.mk.injEq]
      constructor
      · rintro ⟨rfl, rfl, rfl⟩
        exact ⟨⟨rfl, rfl⟩, rfl⟩
      · rintro ⟨⟨rfl, rfl⟩, rfl⟩
        exact ⟨rfl, rfl, rfl⟩
  | error e context => simp

theorem onContext_eq_error_iff {effect : ContextM α} :
    onContext effect machine = .error fault machine' ↔
      effect machine.context = .error fault machine'.context ∧
        machine'.memory = machine.memory := by
  obtain ⟨memory', context'⟩ := machine'
  simp only [onContext]
  cases effect machine.context with
  | ok b context => simp
  | error e context =>
      simp only [EStateM.Result.error.injEq, Machine.mk.injEq]
      constructor
      · rintro ⟨rfl, rfl, rfl⟩
        exact ⟨⟨rfl, rfl⟩, rfl⟩
      · rintro ⟨⟨rfl, rfl⟩, rfl⟩
        exact ⟨rfl, rfl, rfl⟩

end Lift

namespace Call

variable {call : Call n} {machine machine' : Machine}

/-- Everything that a call does before it restores memory. -/
def prepare (call : Call n) : MachineM Frame := do
  let operands ← onMemory (popOperands call.name n)
  let results ← onContext (call.function operands.arguments)
  let box ← addOrFault call.name operands.box operands.returnToken
  return ⟨operands.nextToken, operands.saved, .box box, results⟩

theorem run_eq_prepare (call : Call n) :
    call.run = (do
      let frame ← call.prepare
      let machine ← get
      onMemory (frame.restore call.name machine.context.config.restoreOrder)) := by
  simp only [run, prepare, bind_assoc, pure_bind]

theorem run_of_prepare {frame : Frame} (h : call.prepare machine = .ok frame machine') :
    call.run machine =
      onMemory (frame.restore call.name machine'.context.config.restoreOrder) machine' := by
  rw [run_eq_prepare, bind_of_ok h]
  rfl

theorem run_of_prepare_error {fault : Fault} (h : call.prepare machine = .error fault machine') :
    call.run machine = .error fault machine' := by
  rw [run_eq_prepare, bind_of_error h]

/-- A call whose preparation succeeds: the operands, and what becomes of them. -/
structure Prepared (call : Call n) (machine : Machine) where
  returnToken : Item
  arguments : Vector Item n
  box : Item
  contents : Inventory
  nextToken : Item
  opened : Inventory
  closed : Inventory
  rest : Inventory
  results : List Item
  context : Context
  pulled : machine.memory.pullMany (n + 2) = (returnToken :: (arguments.toList ++ [box]), rest)
  contents_box : box.contents? = some contents
  pull_contents : contents.pull? = some (nextToken, opened)
  function_ok : call.function arguments machine.context = .ok results context
  add_opened : opened.add? returnToken = some closed

namespace Prepared

/-- The machine determines all of it. -/
instance : Subsingleton (call.Prepared machine) where
  allEq := by
    intro p q
    obtain ⟨token, arguments, box, contents, next, opened, closed, rest, results, context,
      hpulled, hcontents, hnext, hfunction, hclosed⟩ := p
    obtain ⟨token', arguments', box', contents', next', opened', closed', rest', results',
      context', hpulled', hcontents', hnext', hfunction', hclosed'⟩ := q
    obtain ⟨hunits, rfl⟩ := Prod.mk.inj (hpulled.symm.trans hpulled')
    obtain ⟨rfl, hlater⟩ := List.cons.inj hunits
    obtain ⟨harguments, hbox⟩ := List.append_inj' hlater rfl
    obtain rfl := Vector.toList_inj.1 harguments
    obtain rfl := List.head_eq_of_cons_eq hbox
    obtain rfl := Option.some.inj (hcontents.symm.trans hcontents')
    obtain ⟨rfl, rfl⟩ := Prod.mk.inj (Option.some.inj (hnext.symm.trans hnext'))
    obtain ⟨rfl, rfl⟩ := EStateM.Result.ok.inj (hfunction.symm.trans hfunction')
    obtain rfl := Option.some.inj (hclosed.symm.trans hclosed')
    rfl

def newBox (p : call.Prepared machine) : Item :=
  .box p.closed

def frame (p : call.Prepared machine) : Frame :=
  ⟨p.nextToken, p.rest.repacked, p.newBox, p.results⟩

/-- The machine that memory is restored on. -/
def reached (p : call.Prepared machine) : Machine :=
  ⟨p.rest.drained, p.context⟩

theorem size_rest (p : call.Prepared machine) : p.rest.size = machine.memory.size := by
  have := Inventory.size_pullMany machine.memory (n + 2)
  rwa [p.pulled] at this

section Rule

variable {rule : Item → Bool} (p : call.Prepared machine) (h : machine.memory.obeys rule)
include h

theorem rest_obeys : p.rest.obeys rule := by
  have := (Inventory.obeys_pullMany h (n + 2)).2
  rwa [p.pulled] at this

theorem pulled_obeys :
    ∀ item ∈ p.returnToken :: (p.arguments.toList ++ [p.box]),
      item.obeys rule ∧ 0 < item.limit := by
  have := (Inventory.obeys_pullMany h (n + 2)).1
  rwa [p.pulled] at this

theorem contents_obeys : p.contents.obeys rule := by
  apply Item.obeys_contents (p.pulled_obeys h p.box _).1 p.contents_box
  simp

theorem next_obeys : (p.nextToken.obeys rule ∧ 0 < p.nextToken.limit) ∧ p.opened.obeys rule :=
  Inventory.obeys_pull? (p.contents_obeys h) p.pull_contents

theorem closed_obeys : p.closed.obeys rule := by
  apply Inventory.obeys_add? (p.next_obeys h).2 (p.pulled_obeys h p.returnToken _).1 p.add_opened
  exact List.mem_cons_self

theorem settled_reached : p.reached.memory.settled = .empty machine.memory.size := by
  rw [← p.size_rest]
  exact Inventory.settled_drained (p.rest_obeys h)

end Rule

/-- The box, and the unit that is pulled before it, leave two slots vacant. -/
theorem two_slots_free (p : call.Prepared machine) (h : machine.memory.SingleBoxes) :
    p.rest.items.length + 2 ≤ machine.memory.items.length := by
  have hlen : (p.returnToken :: p.arguments.toList).length = n + 1 := by
    rw [List.length_cons, Vector.length_toList]
  obtain ⟨second, hsecond, hbox⟩ := (Inventory.pullMany_eq_snoc_iff hlen).1 p.pulled
  obtain ⟨items, unit, hitems⟩ :
      ∃ items unit, p.returnToken :: p.arguments.toList = items ++ [unit] :=
    ⟨_, _, (List.dropLast_concat_getLast (List.cons_ne_nil _ _)).symm⟩
  have hlast : items.length = n := by
    rw [hitems, List.length_append, List.length_singleton] at hlen
    exact Nat.succ.inj hlen
  rw [hitems] at hsecond
  obtain ⟨first, hfirst, hunit⟩ := (Inventory.pullMany_eq_snoc_iff hlast).1 hsecond
  have hsingle : first.SingleBoxes := by
    have := (Inventory.obeys_pullMany h n).2
    rwa [hfirst] at this
  have hisBox := Item.isBox_of_contents? p.contents_box
  have hgone := Inventory.items_pull?_before_box hsingle hunit hbox hisBox
  have hle := machine.memory.length_items_pullMany n
  rw [hfirst, hgone] at hle
  exact hle

end Prepared

/-- Preparing a call is all of this, and saving what is left of memory. -/
theorem prepare_eq_ok_iff_saves {frame : Frame} :
    call.prepare machine = .ok frame machine' ↔
      ∃ (p : call.Prepared machine) (saved : Inventory),
        saveMemory call.name p.rest = .ok saved machine'.memory ∧
        frame = ⟨p.nextToken, saved, p.newBox, p.results⟩ ∧ machine'.context = p.context := by
  simp only [prepare, addOrFault_eq_orThrow, bind_eq_ok_iff, onMemory_eq_ok_iff,
    onContext_eq_ok_iff, orThrow_eq_ok_iff, pure_eq_ok_iff, popOperands_eq_ok_iff_saves]
  constructor
  · rintro ⟨operands, middle, ⟨⟨box, contents, rest, hpulled, hcontents, hnext, hsaved⟩,
      hcontext⟩, results, last, ⟨hfunction, hkept⟩, closed, _, ⟨hclosed, rfl⟩, rfl, rfl⟩
    rw [hcontext] at hfunction
    rw [← hkept] at hsaved
    exact ⟨⟨_, _, box, contents, _, _, closed, rest, results, _, hpulled, hcontents, hnext,
      hfunction, hclosed⟩, _, hsaved, rfl, rfl⟩
  · rintro ⟨p, saved, hsaved, rfl, hcontext⟩
    exact ⟨⟨p.returnToken, p.arguments, p.opened, p.nextToken, saved⟩,
      ⟨machine'.memory, machine.context⟩,
      ⟨⟨p.box, p.contents, p.rest, p.pulled, p.contents_box, p.pull_contents, hsaved⟩, rfl⟩,
      p.results, machine', ⟨p.function_ok.trans (by rw [hcontext]), rfl⟩, p.closed, machine',
      ⟨p.add_opened, rfl⟩, rfl, rfl⟩

theorem prepare_eq_ok_iff {rule : Item → Bool} {frame : Frame}
    (h : machine.memory.obeys rule) :
    call.prepare machine = .ok frame machine' ↔
      ∃ p : call.Prepared machine, frame = p.frame ∧ machine' = p.reached := by
  rw [prepare_eq_ok_iff_saves]
  refine exists_congr fun p => ?_
  rw [saveMemory_of_obeys call.name (p.rest_obeys h)]
  constructor
  · rintro ⟨saved, hsaved, rfl, hcontext⟩
    obtain ⟨memory, context⟩ := machine'
    cases hsaved
    exact ⟨rfl, congrArg (Machine.mk _) hcontext⟩
  · rintro ⟨rfl, rfl⟩
    exact ⟨_, rfl, rfl, rfl⟩

theorem Prepared.prepare_eq {rule : Item → Bool} (p : call.Prepared machine)
    (h : machine.memory.obeys rule) : call.prepare machine = .ok p.frame p.reached :=
  (prepare_eq_ok_iff h).2 ⟨p, rfl, rfl⟩

end Call
end ChestMachine
