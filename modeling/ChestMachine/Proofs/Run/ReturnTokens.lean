import Mathlib.Data.List.Chain
import ChestMachine.Proofs.Call.Restore
import ChestMachine.Proofs.Run.Dispatches
import ChestMachine.Proofs.Surfacing

/-!
The tokens that calls return to. A call pops its return token off the front of memory, which
need not be the token that was selected. Main statements: it is the selected one if that can
come up to the first slot, and what the first slot holds otherwise; a call that succeeds
leaves the token it pulled from its box in the first slot; and so each call of a run returns
to the token that the call before it has pulled.
-/
namespace ChestMachine

namespace Inventory

/-- The item in the first slot. -/
def leading? (inventory : Inventory) : Option Item :=
  inventory.slots.head?.bind Stack.held?

variable {inventory inventory' : Inventory} {item lead : Item}

theorem pull?_of_leading? (h : inventory.leading? = some lead) :
    ∃ rest, inventory.pull? = some (lead, rest) := by
  obtain ⟨slots⟩ := inventory
  cases slots with
  | nil => cases h
  | cons s rest =>
      have hheld : s.held? = some lead := h
      have hpull := Stack.pull?_eq_some_iff.2 ⟨hheld, rfl⟩
      refine ⟨⟨.used lead (s.count - 1) :: rest⟩, ?_⟩
      simp only [pull?, pullWanted?, pullFrom?, hpull, if_true, Option.map_some]

theorem leading?_add? (h : inventory.leading? = some lead)
    (ha : inventory.add? item = some inventory') : inventory'.leading? = some lead := by
  obtain ⟨slots, hs, rfl⟩ := Option.map_eq_some_iff.1 ha
  obtain ⟨front, s, t, back, hold, rfl, _, haccepts, hadd⟩ := addTo?_split hs
  rw [leading?, hold] at h
  cases front with
  | nil =>
      have hheld : s.held? = some lead := h
      rw [Stack.add?_of_accepts haccepts, hheld, Option.some.injEq] at hadd
      rw [← hadd]
      exact Stack.held?_used (Stack.count_add_one_ne_zero haccepts)
  | cons first later => exact h

theorem leading?_fill (h : inventory.leading? = some lead) (items : List Item) :
    (inventory.fill items).leading? = some lead := by
  induction items generalizing inventory with
  | nil => exact h
  | cons item rest ih =>
      cases ha : inventory.add? item with
      | none =>
          rw [fill_cons_none _ ha]
          exact ih h
      | some next =>
          rw [fill_cons_some _ ha]
          exact ih (leading?_add? h ha)

/-- What is added to an inventory without units goes into its first slot. -/
theorem leading?_of_isEmpty (h : inventory.isEmpty) (ha : inventory.add? item = some inventory') :
    inventory'.leading? = some item := by
  obtain ⟨slots, hs, rfl⟩ := Option.map_eq_some_iff.1 ha
  obtain ⟨front, s, t, back, hold, rfl, hfront, haccepts, hadd⟩ := addTo?_split hs
  simp only [isEmpty, hold, List.all_append, List.all_cons, Bool.and_eq_true, List.all_eq_true,
    Stack.isVacant, beq_iff_eq] at h
  have hheld := (Stack.held?_eq_none_iff s).2 h.2.1
  cases front with
  | nil =>
      rw [Stack.add?_of_accepts haccepts, hheld, Option.some.injEq] at hadd
      rw [← hadd]
      exact Stack.held?_used (Stack.count_add_one_ne_zero haccepts)
  | cons first later =>
      -- a vacant slot ahead would have accepted it as well
      have hfirst := hfront first List.mem_cons_self
      rw [Stack.accepts, (Stack.held?_eq_none_iff first).2 (h.1 first List.mem_cons_self)] at hfirst
      rw [Stack.accepts, hheld, hfirst] at haccepts
      cases haccepts

/-- The first slot gets the token if it can; otherwise it keeps what it has. -/
theorem leading?_of_surfaces {descriptor token : Item}
    (h : Surfaces descriptor token inventory.slots inventory'.slots) :
    ∃ first lead, inventory.slots.head? = some first ∧ inventory'.leading? = some lead ∧
      ((lead == descriptor) = true ↔ first.isVacant ∨ first.holds descriptor) ∧
        ((lead == descriptor) = false → first.held? = some lead) := by
  obtain ⟨slots⟩ := inventory
  obtain ⟨slots'⟩ := inventory'
  cases h with
  | @back s rest hheld hsame =>
      have hholds : s.holds descriptor := by simp only [Stack.holds, hheld, hsame]
      exact ⟨s, token, rfl, hheld, ⟨fun _ => Or.inr hholds, fun _ => hsame⟩, fun _ => hheld⟩
  | @ahead s rest rest' hheld _ hsame =>
      have hvacant : s.isVacant := beq_iff_eq.2 ((Stack.held?_eq_none_iff s).1 hheld)
      refine ⟨s, token, rfl, rfl, ⟨fun _ => Or.inl hvacant, fun _ => hsame⟩, ?_⟩
      intro hother
      rw [hsame] at hother
      cases hother
  | @behind s held rest rest' hheld hother _ =>
      refine ⟨s, held, rfl, hheld, ?_, fun _ => hheld⟩
      have hused : s.isVacant = false := beq_eq_false_iff_ne.2 (Stack.count_ne_zero hheld)
      simp only [Stack.holds, hheld, hother, hused, Bool.false_eq_true, or_self]

end Inventory

theorem isEmpty_of_saveMemory {operation : String} {memory memory' saved : Inventory}
    (h : saveMemory operation memory = .ok saved memory') : memory'.isEmpty := by
  have hsave : saveMemory operation memory =
      (if (memory.transfer (.empty memory.size) none).isComplete then
        pure (memory.transfer (.empty memory.size) none).target
      else throw (savedStateFull operation) : MemoryM Inventory) memory.drained := rfl
  rw [hsave] at h
  split at h
  · rename_i hcomplete
    cases h
    exact hcomplete
  · cases h

namespace Frame

variable {frame : Frame} {operation : String} {order : RestoreOrder} {memory memory' : Inventory}

/-- Memory that is restored starts with the next token, and keeps within its limits. -/
theorem leading?_of_restore (hm : memory.isEmpty)
    (h : frame.restore operation order memory = .ok () memory') :
    memory'.leading? = some frame.nextToken ∧ memory'.WithinLimits := by
  obtain ⟨ahead, hfront, _, hback⟩ := restore_eq_ok_iff.1 h
  obtain ⟨later, hlater⟩ : ∃ later, frame.front order = frame.nextToken :: later := by
    cases order <;> exact ⟨_, rfl⟩
  rw [hlater, Inventory.addAll?_cons, Option.bind_eq_some_iff] at hfront
  obtain ⟨first, hnext, hrest⟩ := hfront
  obtain ⟨_, rfl⟩ := Inventory.addAll?_eq_some_iff.1 hrest
  obtain ⟨_, rfl⟩ := Inventory.addAll?_eq_some_iff.1 hback
  have hlead := Inventory.leading?_of_isEmpty hm hnext
  have hwithin := Inventory.withinLimits_add? (Inventory.withinLimits_of_isEmpty hm) hnext
  refine ⟨?_, ?_⟩
  · exact Inventory.leading?_fill (Inventory.leading?_fill (Inventory.leading?_fill hlead _) _) _
  · exact Inventory.withinLimits_fill
      (Inventory.withinLimits_fill (Inventory.withinLimits_fill hwithin _) _) _

end Frame

/-- What follows the return token as operands. -/
def popOperandsAfter (operation : String) (n : Nat) (returnToken : Item) :
    MemoryM (Operands n) := do
  let arguments ← popArguments operation n
  let item ← pop operation .continuationBox
  let box ← openBox operation .continuationBox item
  let (nextToken, box) ← pullOrFault operation .continuationToken box
  let saved ← saveMemory operation
  return ⟨returnToken, arguments, box, nextToken, saved⟩

theorem onMemory_bind {α β : Type} (effect : MemoryM α) (next : α → MemoryM β) :
    onMemory (effect >>= next) = (do let a ← onMemory effect; onMemory (next a)) := by
  funext machine
  simp only [onMemory, bind, EStateM.bind]
  cases effect machine.memory <;> rfl

namespace Call

variable {n : Nat} {call : Call n} {machine machine' : Machine} {token : Item}

/-- What a call does with its operands: the return token goes into the box. -/
def runOn (call : Call n) (operands : Operands n) : MachineM Unit := do
  let results ← onContext (call.function operands.arguments)
  let box ← addOrFault call.name operands.box operands.returnToken
  let order := (← get).context.config.restoreOrder
  let frame : Frame := ⟨operands.nextToken, operands.saved, .box box, results⟩
  onMemory (frame.restore call.name order)

/-- The call pops this token as its return token, and goes on with it. -/
def Pops (call : Call n) (machine : Machine) (token : Item) : Prop :=
  ∃ memory, pop call.name .returnToken machine.memory = .ok token memory ∧
    call.run machine =
      (onMemory (popOperandsAfter call.name n token) >>= call.runOn) { machine with memory }

theorem run_eq_runOn (call : Call n) :
    call.run = (do
      let token ← onMemory (pop call.name .returnToken)
      let operands ← onMemory (popOperandsAfter call.name n token)
      call.runOn operands) := by
  have hpop : popOperands call.name n =
      pop call.name .returnToken >>= popOperandsAfter call.name n := rfl
  have hrun : call.run = onMemory (popOperands call.name n) >>= call.runOn := rfl
  rw [hrun, hpop, onMemory_bind, bind_assoc]

theorem pops_of_pull? (call : Call n) {memory : Inventory}
    (hpull : machine.memory.pull? = some (token, memory)) : call.Pops machine token := by
  have hpop : pop call.name .returnToken machine.memory = .ok token memory := pop_of_pull? hpull
  have hlift : onMemory (pop call.name .returnToken) machine =
      .ok token { machine with memory } := onMemory_eq_ok_iff.2 ⟨hpop, rfl⟩
  exact ⟨memory, hpop, by rw [run_eq_runOn, bind_of_ok hlift]⟩

/-- A call that succeeds was prepared, and leaves the token from its box in the first slot. -/
theorem leading?_of_run (h : call.run machine = .ok () machine') :
    ∃ p : call.Prepared machine,
      machine'.memory.leading? = some p.nextToken ∧ machine'.memory.WithinLimits := by
  cases hprepare : call.prepare machine with
  | error fault middle =>
      rw [run_of_prepare_error hprepare] at h
      cases h
  | ok frame middle =>
      obtain ⟨p, saved, hsaved, rfl, _⟩ := prepare_eq_ok_iff_saves.1 hprepare
      rw [run_of_prepare hprepare, onMemory_eq_ok_iff] at h
      exact ⟨p, Frame.leading?_of_restore (isEmpty_of_saveMemory hsaved) h.1⟩

theorem Prepared.returnToken_of_leading? (p : call.Prepared machine)
    (h : machine.memory.leading? = some token) : token = p.returnToken := by
  obtain ⟨rest, hpull, _⟩ := Inventory.pullMany_eq_cons_iff.1 p.pulled
  obtain ⟨_, hpull'⟩ := Inventory.pull?_of_leading? h
  rw [hpull, Option.some.injEq, Prod.mk.injEq] at hpull'
  exact hpull'.1.symm

end Call

/-- The tokens of a call that succeeded: the one that it returned to, which is in its box
now, and the one that it pulled from there. -/
structure Link where
  returnToken : Item
  nextToken : Item

def Call.Prepared.link {n : Nat} {call : Call n} {machine : Machine} (p : call.Prepared machine) :
    Link :=
  ⟨p.returnToken, p.nextToken⟩

namespace RouteTable

variable {table : RouteTable} {start machine next selected : Machine} {n : Nat} {call : Call n}

/-- All operations of the table are calls. -/
def OfCalls (table : RouteTable) : Prop :=
  ∀ route ∈ table, ∃ (n : Nat) (call : Call n), route.operation = call.toOperation

/-- The selection finds this route, whose operation is the call, and leaves memory to it. -/
structure Calls (table : RouteTable) (machine : Machine) (index : Fin table.length)
    (call : Call n) (selected : Machine) : Prop where
  select : select table machine.memory = .ok (some index) selected.memory
  context : selected.context = machine.context
  operation : (table.get index).operation = call.toOperation

/-- The machine that calls, one after the other, lead to, with their links, the last one
first. -/
inductive Walks (table : RouteTable) (start : Machine) : List Link → Machine → Prop where
  | start : Walks table start [] start
  | call {links : List Link} {machine next selected : Machine} {index : Fin table.length}
      {n : Nat} {call : Call n} : Walks table start links machine →
      table.Calls machine index call selected → (p : call.Prepared selected) →
      call.run selected = .ok () next → Walks table start (p.link :: links) next

theorem calls_of_select (hcalls : table.OfCalls) {index : Fin table.length} {memory : Inventory}
    (h : select table machine.memory = .ok (some index) memory) :
    ∃ (n : Nat) (call : Call n), table.Calls machine index call { machine with memory } := by
  obtain ⟨n, call, hoperation⟩ := hcalls (table.get index) (List.getElem_mem _)
  exact ⟨n, call, h, rfl, hoperation⟩

/-- A dispatch that succeeds is a call that does. -/
theorem calls_of_dispatch (hcalls : table.OfCalls) {descriptor : Item}
    (h : table.dispatch machine = .ok (some descriptor) next) :
    ∃ (index : Fin table.length) (n : Nat) (call : Call n) (selected : Machine),
      table.Calls machine index call selected ∧ call.run selected = .ok () next := by
  cases hselect : select table machine.memory with
  | error fault memory =>
      have hlift : onMemory (select table) machine = .error fault { machine with memory } := by
        simp only [onMemory, hselect]
      rw [dispatch, bind_of_error hlift] at h
      cases h
  | ok found memory =>
      cases found with
      | none =>
          rw [dispatch_of_none hselect] at h
          cases h
      | some index =>
          obtain ⟨n, call, hc⟩ := calls_of_select hcalls hselect
          rw [dispatch_of_some hselect, bind_eq_ok_iff] at h
          obtain ⟨⟨⟩, last, hrun, hpure⟩ := h
          cases hpure
          rw [hc.operation] at hrun
          exact ⟨index, n, call, _, hc, hrun⟩

/-- The call pops the selected token if the first slot is vacant or has such a token in it,
and the item in the first slot otherwise. -/
theorem pops_of_calls {index : Fin table.length} (hw : machine.memory.WithinLimits)
    (hc : table.Calls machine index call selected) :
    ∃ first token, machine.memory.slots.head? = some first ∧ call.Pops selected token ∧
      ((token == (table.get index).descriptor) = true ↔
        first.isVacant ∨ first.holds (table.get index).descriptor) ∧
      ((token == (table.get index).descriptor) = false → first.held? = some token) := by
  obtain ⟨_, hsurfaces⟩ := surfaces_of_select hw hc.select
  obtain ⟨first, token, hfirst, hlead, hiff, hother⟩ := Inventory.leading?_of_surfaces hsurfaces
  obtain ⟨_, hpull⟩ := Inventory.pull?_of_leading? hlead
  exact ⟨first, token, hfirst, call.pops_of_pull? hpull, hiff, hother⟩

/-- A selection does not take the first slot from an item that is in it. -/
theorem leading?_of_calls {index : Fin table.length} {lead : Item}
    (hw : machine.memory.WithinLimits) (hlead : machine.memory.leading? = some lead)
    (hc : table.Calls machine index call selected) :
    ∃ token, selected.memory.leading? = some token ∧ token == lead := by
  obtain ⟨_, hsurfaces⟩ := surfaces_of_select hw hc.select
  obtain ⟨first, token, hfirst, htoken, hiff, hother⟩ := Inventory.leading?_of_surfaces hsurfaces
  refine ⟨token, htoken, ?_⟩
  rw [Inventory.leading?, hfirst] at hlead
  have hheld : first.held? = some lead := hlead
  cases hsame : token == (table.get index).descriptor with
  | false =>
      rw [hother hsame, Option.some.injEq] at hheld
      rw [hheld]
      exact BEq.rfl
  | true =>
      have hused : first.isVacant = false := beq_eq_false_iff_ne.2 (Stack.count_ne_zero hheld)
      have hholds := (hiff.1 hsame).resolve_left (by rw [hused]; exact Bool.false_ne_true)
      simp only [Stack.holds, hheld] at hholds
      rw [BEq.congr_right hholds]
      exact hsame

/-- The calls of a run hang together: each one returns to the token that the one before it
has pulled, and that token is in the first slot in between. -/
theorem linked_of_walks {links : List Link} (h : table.Walks start links machine) :
    links.IsChain (fun later earlier => later.returnToken == earlier.nextToken) ∧
      ∀ link ∈ links.head?,
        machine.memory.leading? = some link.nextToken ∧ machine.memory.WithinLimits := by
  induction h with
  | start => exact ⟨.nil, nofun⟩
  | @call links machine next selected index n call _ hc p hrun ih =>
      obtain ⟨hlinked, hlead⟩ := ih
      obtain ⟨q, hnext⟩ := Call.leading?_of_run hrun
      obtain rfl := Subsingleton.elim p q
      refine ⟨?_, ?_⟩
      · cases links with
        | nil => exact .singleton _
        | cons earlier rest =>
            obtain ⟨hfirst, hw⟩ := hlead earlier rfl
            obtain ⟨token, htoken, hsame⟩ := leading?_of_calls hw hfirst hc
            rw [p.returnToken_of_leading? htoken] at hsame
            exact .cons_cons hsame hlinked
      · intro link hlink
        cases hlink
        exact hnext

theorem walks_of_visits (hcalls : table.OfCalls) {count : Nat} {token : Option Item}
    (h : table.Visits start count token machine) :
    ∃ links, table.Walks start links machine ∧ links.length = count := by
  induction h with
  | start => exact ⟨[], .start, rfl⟩
  | dispatch _ hd ih =>
      obtain ⟨links, hwalks, hlength⟩ := ih
      obtain ⟨index, n, call, selected, hc, hrun⟩ := calls_of_dispatch hcalls hd
      obtain ⟨p, _⟩ := Call.leading?_of_run hrun
      exact ⟨p.link :: links, .call hwalks hc p hrun, congrArg (· + 1) hlength⟩

/-- Calls return to the first slot. The token that a call pops is the selected one exactly
when the first slot was vacant or had such a token in it, and is what the first slot had in
it otherwise; and in a run each call, the last one too if it faults, pops the token that the
call before it has pulled from its box, whichever route was selected. -/
theorem run_linked (table : RouteTable) (hcalls : table.OfCalls) :
    (∀ (machine : Machine) (index : Fin table.length) (memory : Inventory),
      machine.memory.Sound → select table machine.memory = .ok (some index) memory →
      ∃ (n : Nat) (call : Call n), table.Calls machine index call { machine with memory } ∧
        ∃ first token, machine.memory.slots.head? = some first ∧
          call.Pops { machine with memory } token ∧
          ((token == (table.get index).descriptor) = true ↔
            first.isVacant ∨ first.holds (table.get index).descriptor) ∧
          ((token == (table.get index).descriptor) = false → first.held? = some token)) ∧
    ∀ start : Machine,
      table.Ends start start.context.config.maxIterations.toNat
        (table.run start).1.outcome (table.run start).2 ∧
      ∀ count token machine, table.Visits start count token machine →
        ∃ links, table.Walks start links machine ∧ links.length = count ∧
          links.IsChain (fun later earlier => later.returnToken == earlier.nextToken) ∧
          ∀ link ∈ links.head?, ∀ (index : Fin table.length) (memory : Inventory),
            select table machine.memory = .ok (some index) memory →
            ∃ (n : Nat) (call : Call n), table.Calls machine index call { machine with memory } ∧
              ∃ token, call.Pops { machine with memory } token ∧ token == link.nextToken := by
  refine ⟨?_, ?_⟩
  · intro machine index memory h hselect
    obtain ⟨n, call, hc⟩ := calls_of_select hcalls hselect
    exact ⟨n, call, hc, pops_of_calls (Inventory.withinLimits_of_obeys h) hc⟩
  · intro start
    refine ⟨run_ends table start, ?_⟩
    intro count token machine hvisits
    obtain ⟨links, hwalks, hlength⟩ := walks_of_visits hcalls hvisits
    obtain ⟨hlinked, hlead⟩ := linked_of_walks hwalks
    refine ⟨links, hwalks, hlength, hlinked, ?_⟩
    intro link hlink index memory hselect
    obtain ⟨n, call, hc⟩ := calls_of_select hcalls hselect
    obtain ⟨hfirst, hw⟩ := hlead link hlink
    obtain ⟨token, htoken, hsame⟩ := leading?_of_calls hw hfirst hc
    obtain ⟨_, hpull⟩ := Inventory.pull?_of_leading? htoken
    exact ⟨n, call, hc, token, call.pops_of_pull? hpull, hsame⟩

theorem builtin_ofCalls : builtin.OfCalls := by
  intro route hroute
  obtain ⟨opcode, _, rfl⟩ := List.mem_map.1 hroute
  exact ⟨opcode.arity, opcode.call, rfl⟩

namespace Banked

/-- A token that has its slot to itself. -/
def token : Item :=
  Opcode.smelt.descriptor.withLimit 1

/-- A second token lies behind the operands. -/
def before : Machine :=
  ⟨(Inventory.empty 5).fill [token, .box ((Inventory.empty 1).fill [.ofKind "cobblestone"]),
    .box ((Inventory.empty 1).fill [.ofKind "ash"]), token], .ofConfig .standard⟩

/-- It is found there, behind a token that no route is bound to. -/
def after : Machine :=
  ⟨⟨[.used (.ofKind "ash") 1, .used token 1, .used (.box ((Inventory.empty 1).fill [token])) 1,
    .used (.box ((Inventory.empty 1).fill [.ofKind "stone"])) 1, .fresh]⟩, before.context⟩

theorem dispatch_before :
    builtin.dispatch before = .ok (some Opcode.smelt.descriptor) after := by
  rfl

/-- The token behind is selected, and the call pops the item in the first slot, which the
call before it has pulled. -/
theorem run_after :
    ∃ index memory, after.memory.Sound ∧
      select builtin after.memory = .ok (some index) memory ∧
      (builtin.get index).descriptor = Opcode.smelt.descriptor ∧
      builtin.Visits before 1 (some Opcode.smelt.descriptor) after ∧
      (∃ (n : Nat) (call : Call n) (popped : Item), call.Pops { after with memory } popped ∧
        (popped == Opcode.smelt.descriptor) = false ∧ popped = .ofKind "ash") ∧
      ∃ (n : Nat) (call : Call n) (link : Link) (popped : Item),
        builtin.Walks before [link] after ∧ call.Pops { after with memory } popped ∧
          popped == link.nextToken := by
  obtain ⟨hpops, hruns⟩ := run_linked builtin builtin_ofCalls
  have hselect : select builtin after.memory = .ok (some ⟨2, by decide⟩) after.memory := rfl
  have hvisits : builtin.Visits before 1 _ after := .dispatch .start dispatch_before
  refine ⟨_, _, rfl, hselect, rfl, hvisits, ?_, ?_⟩
  · obtain ⟨n, call, _, first, popped, hfirst, hpop, hiff, hother⟩ :=
      hpops after _ _ rfl hselect
    cases hfirst
    have hnot : (popped == Opcode.smelt.descriptor) = false := by
      exact Bool.eq_false_iff.2 fun hsame => absurd (hiff.1 hsame) (by decide)
    exact ⟨n, call, popped, hpop, hnot, (Option.some.inj (hother hnot)).symm⟩
  · obtain ⟨links, hwalks, hlength, _, hnext⟩ := (hruns before).2 1 _ after hvisits
    obtain ⟨link, rfl⟩ := List.length_eq_one_iff.1 hlength
    obtain ⟨n, call, _, popped, hpop, hsame⟩ := hnext link rfl _ _ hselect
    exact ⟨n, call, link, popped, hwalks, hpop, hsame⟩

end Banked

end RouteTable
end ChestMachine
