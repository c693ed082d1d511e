import ChestMachine.Call

/-!
Routes bind opcode tokens to operations. The first route of the table whose
token is in memory is taken. The token is pulled and pushed straight back,
where the operation finds it.
-/
namespace ChestMachine

structure Operation where
  name : String
  run : MachineM Unit

structure Route where
  descriptor : Item
  operation : Operation

/-- Earlier routes win. -/
abbrev RouteTable := List Route

def Call.toOperation {n : Nat} (call : Call n) : Operation :=
  ⟨call.name, call.run⟩

namespace RouteTable

/-- The first route whose token is in memory. -/
def select : (table : RouteTable) → MemoryM (Option (Fin table.length))
  | [] => return none
  | route :: rest => do
      match (← get).pullMatching? route.descriptor with
      | some (token, memory) =>
          set memory
          push route.operation.name token
          return some ⟨0, Nat.zero_lt_succ _⟩
      | none => return (← select rest).map Fin.succ

/-- Runs the selected route and tells its descriptor. -/
def dispatch (table : RouteTable) : MachineM (Option Item) := do
  match ← onMemory (select table) with
  | none => return none
  | some index =>
      let route := table.get index
      route.operation.run
      return some route.descriptor

end RouteTable
end ChestMachine
