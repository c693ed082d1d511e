import ChestMachine.Proofs.Builtin.Boxes
import ChestMachine.Proofs.Call.Keeps
import ChestMachine.Proofs.Call.Orders

/-!
How the opcodes get by with the slots of memory, where boxes do not stack. Main
statements: the operands of get, set and smelt are a token and boxes, so
that each of them leaves a slot vacant, and these are as many slots as are needed
again; and a call finds a container full in three ways only.
-/
namespace ChestMachine

namespace Call.Prepared

variable {n : Nat} {call : Call n} {machine : Machine}

/-- If all arguments are boxes, every operand leaves a slot vacant. -/
theorem all_slots_free (p : call.Prepared machine) (h : machine.memory.SingleBoxes)
    (hb : ∀ argument ∈ p.arguments, argument.isBox) :
    p.rest.items.length + (n + 2) ≤ machine.memory.items.length := by
  obtain ⟨second, htoken, hlater⟩ := Inventory.pullMany_eq_cons_iff.1 p.pulled
  have hboxes : ∀ box ∈ p.arguments.toList ++ [p.box], box.isBox := by
    intro box hm
    cases List.mem_append.1 hm with
    | inl ha => exact hb box (Vector.mem_toList_iff.1 ha)
    | inr hl =>
        rw [List.mem_singleton.1 hl]
        exact Item.isBox_of_contents? p.contents_box
  have hlen : (p.arguments.toList ++ [p.box]).length = n + 1 := by
    rw [List.length_append, Vector.length_toList, List.length_singleton]
  obtain ⟨box, later, heq⟩ := List.exists_cons_of_length_eq_add_one hlen
  rw [heq] at hboxes hlater hlen
  obtain ⟨hbox, hrest⟩ := List.forall_mem_cons.1 hboxes
  obtain ⟨third, hpull, hmany⟩ := Inventory.pullMany_eq_cons_iff.1 hlater
  have hfirst := Inventory.items_pull?_before_box h htoken hpull hbox
  have hthird : third.SingleBoxes :=
    (Inventory.obeys_pull? (Inventory.obeys_pull? h htoken).2 hpull).2
  have hgone := Inventory.items_pullMany_of_boxes hthird hmany (Nat.succ.inj hlen) hrest
  rw [hfirst, hgone]
  simp only [List.length_cons, List.length_append, List.length_map] at hlen ⊢
  omega

/-- How many slots the next token and the saved state take. -/
def behindSize (p : call.Prepared machine) : Nat :=
  ((Inventory.empty machine.memory.size).fill (p.nextToken :: p.frame.saved.units)).items.length

theorem behindSize_eq (p : call.Prepared machine) {size : Nat} {behind : Rows}
    (hsize : machine.memory.size = size + 1) (r : p.frame.Room p.reached.memory size behind) :
    p.behindSize = behind.length := by
  have hsaved : Rows.stow? (size + 1) p.frame.saved.units [(p.nextToken, 1)] = some behind :=
    Rows.stow?_of_length_le r.stow_saved (Nat.le_succ_of_le r.length_le)
  have hnext : Rows.stow? (size + 1) [p.nextToken] [] = some [(p.nextToken, 1)] :=
    r.single.stow?_next (Nat.succ_pos size)
  have hall : Rows.stow? (size + 1) (p.nextToken :: p.frame.saved.units) [] = some behind := by
    rw [← List.singleton_append, Rows.stow?_append, hnext]
    exact hsaved
  have hadd : (Inventory.empty (size + 1)).addAll? (p.nextToken :: p.frame.saved.units) =
      some (.ofRows (size + 1) behind) := by
    rw [Inventory.addAll?_empty, hall]
    rfl
  rw [behindSize, hsize, (Inventory.addAll?_eq_some_iff.1 hadd).2,
    Inventory.items_ofRows r.stocked_behind]

end Call.Prepared

namespace Opcode

variable {rule : Item → Bool} {opcode : Opcode} {arguments : Vector Item opcode.arity}
  {context after : Context} {results : List Item}

theorem call_keeps (hbox : ∀ contents, rule (.box contents)) (opcode : Opcode) :
    opcode.call.Keeps rule := by
  intro arguments context results after ha hc h
  cases opcode with
  | get => exact Builtin.obeys_fetch hbox ha hc h
  | set => exact Builtin.obeys_deposit hbox ha hc h
  | smelt => exact Builtin.obeys_smelt hbox ha hc h
  | permute => exact Builtin.obeys_permute hbox ha hc h

theorem results_boxes (h : opcode.function arguments context = .ok results after) :
    ∀ result ∈ results, result.isBox ∧ result.limit = 1 := by
  cases opcode with
  | get =>
      obtain ⟨items, keys, key, rest, entry, once, twice, _, _, _, _, _, _, rfl, _⟩ :=
        Builtin.fetch_eq_ok_iff.1 h
      simp [Item.isBox]
  | set =>
      obtain ⟨items, keys, key, rest, _, _, _, rfl, _⟩ := Builtin.deposit_eq_ok_iff.1 h
      simp [Item.isBox]
  | smelt =>
      obtain ⟨items, products, _, _, rfl, _⟩ := Builtin.smelt_eq_ok_iff.1 h
      simp [Item.isBox]
  | permute => exact Builtin.permute_boxes h

/-- All opcodes but one trade boxes for as many boxes. -/
theorem trades_boxes (hne : opcode ≠ .permute)
    (h : opcode.function arguments context = .ok results after) :
    (∀ argument ∈ arguments, argument.isBox) ∧ results.length = opcode.arity := by
  cases opcode with
  | get => exact Builtin.fetch_boxes h
  | set => exact Builtin.deposit_boxes h
  | smelt => exact Builtin.smelt_boxes h
  | permute => exact absurd rfl hne

theorem returnsSingleBoxes (opcode : Opcode) (machine : Machine) :
    opcode.call.ReturnsSingleBoxes machine := by
  intro p result hr
  have hlimit := (results_boxes p.function_ok result hr).2
  simp [Item.singleBox, hlimit]

/-- Ways in which a call of an opcode can find a container full, with the fault. -/
inductive OutOfRoom (machine : Machine) : Opcode → Fault → Prop where
  /-- The function has returned, but the continuation box, its token pulled, refuses
  the return token. -/
  | returnToken {opcode : Opcode} {operands : Operands opcode.arity} {memory : Inventory}
      {results : List Item} {context : Context} :
      popOperands opcode.name opcode.arity machine.memory = .ok operands memory →
      opcode.function operands.arguments machine.context = .ok results context →
      operands.box.add? operands.returnToken = none →
      OutOfRoom machine opcode ⟨opcode.name, .containerFull operands.returnToken.text⟩
  /-- The key box refuses the second copy of its key. -/
  | secondKey {operands : Operands get.arity} {memory : Inventory} {key : Item} :
      popOperands get.name get.arity machine.memory = .ok operands memory →
      Builtin.KeyBoxFull operands.arguments key →
      OutOfRoom machine get ⟨get.name, .containerFull key.text⟩
  /-- The boxes that are returned and the continuation box are too many for memory. -/
  | groups (p : permute.call.Prepared machine) {item : String} :
      machine.memory.size < p.behindSize + (p.results.length + 1) →
      OutOfRoom machine permute ⟨permute.name, .containerFull item⟩

section Call

variable {machine machine' : Machine}

/-- The result boxes fit as soon as there is a slot for each. -/
theorem fit_of_room (p : opcode.call.Prepared machine) {size : Nat} {behind : Rows}
    (hroom : behind.length + p.results.length ≤ size) :
    ∃ full, Rows.stow? size p.frame.results behind = some full := by
  apply Rows.stow?_of_room _ hroom
  intro result hr
  rw [(results_boxes p.function_ok result hr).2]
  decide

/-- Get, set and smelt never find memory full. -/
theorem restore_of_trade (hne : opcode ≠ permute) (h : machine.memory.SingleBoxes)
    (p : opcode.call.Prepared machine) (order : RestoreOrder) :
    ∃ memory, p.frame.restore opcode.name order p.reached.memory = .ok () memory := by
  obtain ⟨size, behind, hsize, room⟩ := p.exists_room h (opcode.returnsSingleBoxes _)
  obtain ⟨hboxes, hcount⟩ := trades_boxes hne p.function_ok
  have hfree := p.all_slots_free h hboxes
  have hfit := machine.memory.length_items_le_size
  have hsaved : p.frame.saved.items.length ≤ p.rest.items.length :=
    (Inventory.repacked_spec (p.rest_obeys h)).2.2.2
  have hbehind := room.length_le_saved
  obtain ⟨full, hfull⟩ := fit_of_room p (show behind.length + p.results.length ≤ size by omega)
  obtain ⟨memory, hok, _⟩ := room.restore_of_fit hfull opcode.name order
  exact ⟨memory, hok⟩

/-- A regrouping that finds memory full has returned too many boxes. -/
theorem restore_of_permute (h : machine.memory.SingleBoxes) (p : permute.call.Prepared machine)
    {order : RestoreOrder} {fault : Fault} {memory : Inventory}
    (hr : p.frame.restore permute.name order p.reached.memory = .error fault memory) :
    OutOfRoom machine permute fault := by
  obtain ⟨item, rfl⟩ := Frame.restore_error hr
  apply OutOfRoom.groups p
  obtain ⟨size, behind, hsize, room⟩ := p.exists_room h (permute.returnsSingleBoxes _)
  rw [p.behindSize_eq hsize room]
  by_cases hfew : behind.length + p.results.length ≤ size
  · obtain ⟨full, hfull⟩ := fit_of_room p hfew
    obtain ⟨memory', hok, _⟩ := room.restore_of_fit hfull permute.name order
    rw [hr] at hok
    cases hok
  · omega

theorem arguments_obey {operands : Operands opcode.arity} {memory : Inventory}
    (h : machine.memory.obeys rule)
    (hp : popOperands opcode.name opcode.arity machine.memory = .ok operands memory) :
    ∀ argument ∈ operands.arguments, argument.obeys rule ∧ 0 < argument.limit := by
  obtain ⟨box, contents, rest, hpulled, _⟩ := (popOperands_eq_ok_iff h).1 hp
  have hall := (Inventory.obeys_pullMany h (opcode.arity + 2)).1
  rw [hpulled] at hall
  intro argument ha
  apply hall
  simp [Vector.mem_toList_iff.2 ha]

theorem prepare_full (h : machine.memory.SingleBoxes) :
    FaultsAs (fun fault => fault.cause.category = .capacity → OutOfRoom machine opcode fault)
      opcode.call.prepare machine := by
  simp only [Call.prepare, addOrFault_eq_orThrow]
  refine .bind ?_ ?_
  · intro fault stopped he hf
    have hprotocol := faultsAs_popOperands h _ _ _ _ (onMemory_eq_error_iff.1 he).1
    rw [hprotocol] at hf
    cases hf
  intro operands middle hok
  obtain ⟨hpop, hcontext⟩ := onMemory_eq_ok_iff.1 hok
  have ha := arguments_obey h hpop
  have hrule : ∀ argument ∈ operands.arguments, argument.obeys Item.singleBox :=
    fun argument hm => (ha argument hm).1
  have hstacks : ∀ argument ∈ operands.arguments, 0 < argument.limit :=
    fun argument hm => (ha argument hm).2
  refine .bind ?_ ?_
  · intro fault stopped he hf
    have hfunction := (onContext_eq_error_iff.1 he).1
    -- of the functions, fetching alone can find a container full
    cases opcode with
    | get =>
        obtain ⟨key, hfull, rfl⟩ := Builtin.fetch_full hrule _ _ _ hfunction hf
        exact .secondKey hpop hfull
    | set => exact absurd hf (Builtin.deposit_full _ _ _ _ hfunction)
    | smelt => exact absurd hf (Builtin.smelt_full _ _ _ _ hfunction)
    | permute => exact absurd hf (Builtin.permute_full hstacks _ _ _ hfunction)
  intro results last hok
  have hfunction := (onContext_eq_ok_iff.1 hok).1
  rw [hcontext] at hfunction
  refine .orThrow_bind ?_ ?_
  · intro hadd _
    exact .returnToken hpop hfunction hadd
  · intro closed _
    exact .of_ok rfl

theorem run_full (h : machine.memory.SingleBoxes) {fault : Fault}
    (hr : opcode.call.run machine = .error fault machine')
    (hf : fault.cause.category = .capacity) : OutOfRoom machine opcode fault := by
  cases hp : opcode.call.prepare machine with
  | error found middle =>
      rw [Call.run_of_prepare_error hp] at hr
      cases hr
      exact prepare_full h _ _ hp hf
  | ok frame middle =>
      obtain ⟨p, rfl, rfl⟩ := (Call.prepare_eq_ok_iff h).1 hp
      rw [Call.run_of_prepare hp, onMemory_eq_error_iff] at hr
      by_cases hne : opcode = permute
      · subst hne
        exact restore_of_permute h p hr.1
      · obtain ⟨memory, hok⟩ := restore_of_trade hne h p p.context.config.restoreOrder
        exact nomatch hok.symm.trans hr.1

/-- What never goes wrong in a call of an opcode. -/
structure GetsBy (opcode : Opcode) (machine : Machine) : Prop where
  /-- Taking the operands faults over the operands, not over saving the rest. -/
  saves : ∀ {fault memory},
    popOperands opcode.name opcode.arity machine.memory = .error fault memory →
      fault.cause.category = .protocol
  /-- What was saved is poured back in any order. -/
  pours : ∀ (p : opcode.call.Prepared machine) order, ∃ ahead poured,
    pushAll opcode.name (p.frame.front order) p.reached.memory = .ok () ahead ∧
      p.frame.pushSaved opcode.name ahead = .ok () poured
  /-- Only a regrouping can be too large for memory. -/
  restores : opcode ≠ permute → ∀ (p : opcode.call.Prepared machine) order, ∃ memory,
    p.frame.restore opcode.name order p.reached.memory = .ok () memory

theorem getsBy (h : machine.memory.SingleBoxes) (opcode : Opcode) : opcode.GetsBy machine where
  saves := faultsAs_popOperands h _ _ _ _
  pours := by
    intro p order
    obtain ⟨_, _, _, room⟩ := p.exists_room h (opcode.returnsSingleBoxes _)
    exact room.pushSaved_ok opcode.name order
  restores := fun hne p order => restore_of_trade hne h p order

/-- A call that succeeds puts back all that was saved. -/
theorem run_keeps (h : machine.memory.SingleBoxes)
    (hr : opcode.call.run machine = .ok () machine') :
    ∃ p : opcode.call.Prepared machine, ∀ x, machine'.memory.countOf x = p.due x := by
  obtain ⟨p, _, hrestore⟩ := (Call.run_eq_ok_iff h).1 hr
  refine ⟨p, ?_⟩
  intro x
  have hcount := Call.countOf_run h p hrestore x
  rwa [Call.lost_of_singleBoxes h p] at hcount

end Call

end Opcode
end ChestMachine
