import ChestMachine.Proofs.Builtin.Capacity
import ChestMachine.Proofs.Run.Dispatches

/-!
Capacity over whole runs. Main statement: if no box in memory, in the store or
among the outputs of the furnace stacks, that stays so in every machine that a run
visits; every dispatch there puts all saved units back, or faults for want of room
in one of the ways that an opcode has.
-/
namespace ChestMachine
namespace RouteTable

variable {start machine : Machine}

/-- How a dispatch of the built-in table gets by with the slots that there are. -/
structure CapacityAt (machine : Machine) : Prop where
  calls : ∀ {opcode memory}, Selects opcode machine.memory memory →
    opcode.GetsBy { machine with memory }
  faults : ∀ {fault stopped}, builtin.dispatch machine = .error fault stopped →
    fault.cause.category = .capacity → ∃ opcode memory, Selects opcode machine.memory memory ∧
      Opcode.OutOfRoom { machine with memory } opcode fault
  conserves : ∀ {descriptor next}, builtin.dispatch machine = .ok (some descriptor) next →
    ∃ opcode memory, Selects opcode machine.memory memory ∧
      ∃ p : opcode.call.Prepared { machine with memory },
        ∀ x, next.memory.countOf x = p.due x

theorem capacityAt (h : machine.Obeys Item.singleBox) : CapacityAt machine where
  calls := by
    intro opcode memory hs
    exact Opcode.getsBy (obeys_of_selects h.memory hs) opcode
  faults := by
    intro fault stopped hd hf
    obtain ⟨opcode, memory, hs, hr⟩ := builtin_eq_error h.memory hd
    exact ⟨opcode, memory, hs, Opcode.run_full (obeys_of_selects h.memory hs) hr hf⟩
  conserves := by
    intro descriptor next hd
    obtain ⟨opcode, memory, hs, hr⟩ := builtin_eq_ok h.memory hd
    exact ⟨opcode, memory, hs, Opcode.run_keeps (obeys_of_selects h.memory hs) hr⟩

section Rule

variable {rule : Item → Bool} (hbox : ∀ contents, rule (.box contents))
include hbox

theorem obeys_dispatch (h : machine.Obeys rule) {descriptor : Item} {next : Machine}
    (hd : builtin.dispatch machine = .ok (some descriptor) next) : next.Obeys rule := by
  obtain ⟨opcode, memory, hs, hr⟩ := builtin_eq_ok h.memory hd
  have hselected : Machine.Obeys rule { machine with memory } :=
    ⟨obeys_of_selects h.memory hs, h.context⟩
  exact Call.run_obeys (opcode.call_keeps hbox) hbox hselected hr

/-- A rule that closed boxes obey holds all along a run. -/
theorem obeys_of_visits (h : start.Obeys rule) {count : Nat} {token : Option Item}
    (hv : builtin.Visits start count token machine) : machine.Obeys rule := by
  induction hv with
  | start => exact h
  | dispatch _ hd ih => exact obeys_dispatch hbox ih hd

end Rule

/-- The run visits machines, one dispatch after the other, until it ends; and in each of them
boxes do not stack, and the next dispatch gets by with the slots that there are. -/
theorem run_capacity (h : start.Obeys Item.singleBox) :
    builtin.Ends start start.context.config.maxIterations.toNat
      (builtin.run start).1.outcome (builtin.run start).2 ∧
    ∀ count token machine, builtin.Visits start count token machine →
      machine.Obeys Item.singleBox ∧ CapacityAt machine := by
  refine ⟨run_ends builtin start, ?_⟩
  intro count token machine hvisits
  have hm := obeys_of_visits (fun _ => rfl) h hvisits
  exact ⟨hm, capacityAt hm⟩

/-- As few slots as filing one unit takes, and an entry to file it into. -/
def depot : Machine :=
  ⟨(Inventory.empty 4).fill [Opcode.set.descriptor,
      .box ((Inventory.empty 1).fill [.ofKind "cobblestone"]),
      .box ((Inventory.empty 1).fill [.paper "key", .paper "key"]),
      .box ((Inventory.empty 1).fill [.paper "halt"])],
    { Context.ofConfig .standard with
      store := ItemMap.empty.insert (.paper "key") ((Inventory.empty 2).fill [.ofKind "stone"]) }⟩

theorem depot_obeys : depot.Obeys Item.singleBox where
  memory := rfl
  context := {
    store := by
      intro entry h
      rw [List.mem_singleton.1 h]
      rfl
    furnace := by
      intro entry h
      rw [List.mem_singleton.1 h]
      rfl }

/-- After one dispatch the entry holds both units, and no opcode is left in memory. -/
theorem depot_capacity :
    depot.Obeys Item.singleBox ∧
    builtin.Ends depot 4 (.halted 1) (builtin.run depot).2 ∧
    ∃ filed, builtin.dispatch depot = .ok (some Opcode.set.descriptor) filed ∧
      (filed.context.store.find? (.paper "key")).map Inventory.text =
        some "[(stone),(cobblestone)]" ∧
      builtin.Visits depot 1 (some Opcode.set.descriptor) filed ∧
      filed.Obeys Item.singleBox ∧ CapacityAt filed := by
  obtain ⟨hends, hvisits⟩ := run_capacity depot_obeys
  have hhalted : (builtin.run depot).1.outcome = .halted 1 := rfl
  rw [hhalted] at hends
  obtain ⟨filed, hdispatch, hstore⟩ : ∃ filed,
      builtin.dispatch depot = .ok (some Opcode.set.descriptor) filed ∧
        (filed.context.store.find? (.paper "key")).map Inventory.text =
          some "[(stone),(cobblestone)]" := ⟨_, rfl, rfl⟩
  have hone : builtin.Visits depot 1 (some Opcode.set.descriptor) filed :=
    .dispatch .start hdispatch
  exact ⟨depot_obeys, hends, filed, hdispatch, hstore, hone, hvisits _ _ _ hone⟩

end RouteTable
end ChestMachine
