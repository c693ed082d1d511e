import ChestMachine.Machine

/-!
The calling convention. A call reads its operands off the front of memory: the
return token, the arguments, and a box that holds the next token. What else is
in memory is saved while the function runs. Memory is then rebuilt behind the
next token, and the return token goes into the box, so that the chain of
continuations can be walked back.
-/
namespace ChestMachine

/-- A function of so many arguments, to be called under a name. -/
structure Call (n : Nat) where
  name : String
  function : Vector Item n → ContextM (List Item)

/-- What a call takes from memory. The box has lost its token already. -/
structure Operands (n : Nat) where
  returnToken : Item
  arguments : Vector Item n
  box : Inventory
  nextToken : Item
  saved : Inventory

/-- What a call puts back into memory. -/
structure Frame where
  nextToken : Item
  saved : Inventory
  box : Item
  results : List Item

def popArguments (operation : String) : (n : Nat) → MemoryM (Vector Item n)
  | 0 => return #v[]
  | n + 1 => do
      let arguments ← popArguments operation n
      let last ← pop operation (.argument n)
      return arguments.push last

def savedStateFull (operation : String) : Fault :=
  ⟨operation, .containerFull "saved state"⟩

/-- Moves what is in memory into an inventory of the same size. -/
def saveMemory (operation : String) : MemoryM Inventory := do
  let memory ← get
  let transfer := memory.transfer (.empty memory.size) none
  set transfer.source
  if transfer.isComplete then return transfer.target else throw (savedStateFull operation)

def popOperands (operation : String) (n : Nat) : MemoryM (Operands n) := do
  let returnToken ← pop operation .returnToken
  let arguments ← popArguments operation n
  let item ← pop operation .continuationBox
  let box ← openBox operation .continuationBox item
  let (nextToken, box) ← pullOrFault operation .continuationToken box
  let saved ← saveMemory operation
  return ⟨returnToken, arguments, box, nextToken, saved⟩

namespace Frame

def pushSaved (frame : Frame) (operation : String) : MemoryM Unit := do
  let transfer := frame.saved.transfer (← get) none
  set transfer.target
  if transfer.isComplete then return () else throw (savedStateFull operation)

def pushResults (frame : Frame) (operation : String) : MemoryM Unit :=
  frame.results.forM (push operation)

def restore (frame : Frame) (operation : String) (order : RestoreOrder) : MemoryM Unit := do
  push operation frame.nextToken
  match order with
  | .stateThenBox =>
      frame.pushSaved operation
      push operation frame.box
      frame.pushResults operation
  | .boxThenState =>
      push operation frame.box
      frame.pushSaved operation
      frame.pushResults operation
  | .resultsThenBox =>
      frame.pushSaved operation
      frame.pushResults operation
      push operation frame.box

end Frame

/-- The return token goes into the box once the function has returned, and the
restore order is read only then. -/
def Call.run {n : Nat} (call : Call n) : MachineM Unit := do
  let operands ← onMemory (popOperands call.name n)
  let results ← onContext (call.function operands.arguments)
  let box ← addOrFault call.name operands.box operands.returnToken
  let order := (← get).context.config.restoreOrder
  let frame : Frame := ⟨operands.nextToken, operands.saved, .box box, results⟩
  onMemory (frame.restore call.name order)

end ChestMachine
