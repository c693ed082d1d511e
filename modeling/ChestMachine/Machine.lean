import ChestMachine.Config
import ChestMachine.Fault
import ChestMachine.ItemMap

/-!
The state of a machine and the effects on it. A fault keeps the state that the
operation had reached.
-/
namespace ChestMachine

/-- Units were lost, and the operation went on. -/
inductive Warning where
  | itemBoxOverflowed (key : String) (dropped : Nat)
  | entryFull (key : String) (left : Nat)
  | furnaceFull (dropped : Nat)
  deriving DecidableEq, Repr

/-- The message with its values behind it. -/
def Warning.text : Warning → String
  | itemBoxOverflowed key dropped =>
      "item box overflowed, units lost operation=get(2) key=" ++ key ++ " dropped=" ++
        toString dropped
  | entryFull key left =>
      "store entry full, units lost operation=set(2) key=" ++ key ++ " left=" ++ toString left
  | furnaceFull dropped =>
      "furnace output full, units lost operation=smelt(1) dropped=" ++ toString dropped

/-- What functions work on. Warnings are listed in the order they were given. -/
structure Context where
  config : Config
  store : Store
  furnace : Furnace
  warnings : List Warning

structure Machine where
  memory : Inventory
  context : Context

abbrev MemoryM := EStateM Fault Inventory

abbrev ContextM := EStateM Fault Context

abbrev MachineM := EStateM Fault Machine

def Context.ofConfig (config : Config) : Context :=
  ⟨config, .empty, .standard, []⟩

def warn (warning : Warning) : ContextM Unit :=
  modify fun context => { context with warnings := context.warnings ++ [warning] }

/-- Runs an effect on memory; the context stays as it is. -/
def onMemory {α : Type} (effect : MemoryM α) : MachineM α := fun machine =>
  match effect machine.memory with
  | .ok value memory => .ok value { machine with memory }
  | .error fault memory => .error fault { machine with memory }

/-- Runs an effect on the context; memory stays as it is. -/
def onContext {α : Type} (effect : ContextM α) : MachineM α := fun machine =>
  match effect machine.context with
  | .ok value context => .ok value { machine with context }
  | .error fault context => .error fault { machine with context }

/-- The inventory inside an operand that has to be a box. -/
def openBox {σ : Type} (operation : String) (slot : OperandSlot) (item : Item) :
    EStateM Fault σ Inventory :=
  match item.contents? with
  | some contents => pure contents
  | none => throw ⟨operation, .notABox slot item.text⟩

/-- Adds a unit that has to fit. -/
def addOrFault {σ : Type} (operation : String) (target : Inventory) (item : Item) :
    EStateM Fault σ Inventory :=
  match target.add? item with
  | some target' => pure target'
  | none => throw ⟨operation, .containerFull item.text⟩

/-- Pulls a unit that has to be there. -/
def pullOrFault {σ : Type} (operation : String) (slot : OperandSlot) (source : Inventory) :
    EStateM Fault σ (Item × Inventory) :=
  match source.pull? with
  | some found => pure found
  | none => throw ⟨operation, .missingOperand slot⟩

/-- Adds a unit to memory. -/
def push (operation : String) (item : Item) : MemoryM Unit := do
  set (← addOrFault operation (← get) item)

/-- Pulls the first unit of memory. -/
def pop (operation : String) (slot : OperandSlot) : MemoryM Item := do
  let (item, memory) ← pullOrFault operation slot (← get)
  set memory
  return item

section Effects

variable {ε σ α : Type}

/-- An effect that reads the state first goes on with it. -/
theorem get_bind (effect : σ → EStateM ε σ α) (s : σ) : (get >>= effect) s = effect s s := rfl

theorem set_bind (effect : PUnit → EStateM ε σ α) (s t : σ) :
    (set t >>= effect) s = effect ⟨⟩ t := rfl

theorem throw_eq (fault : ε) (s : σ) : (throw fault : EStateM ε σ α) s = .error fault s := rfl

end Effects

theorem push_of_add? {operation : String} {item : Item} {memory memory' : Inventory}
    (h : memory.add? item = some memory') : push operation item memory = .ok () memory' := by
  simp only [push, get_bind, addOrFault, h]
  rfl

theorem push_of_full {operation : String} {item : Item} {memory : Inventory}
    (h : memory.add? item = none) :
    push operation item memory = .error ⟨operation, .containerFull item.text⟩ memory := by
  simp only [push, get_bind, addOrFault, h]
  rfl

theorem pop_of_pull? {operation : String} {slot : OperandSlot} {memory memory' : Inventory}
    {item : Item} (h : memory.pull? = some (item, memory')) :
    pop operation slot memory = .ok item memory' := by
  simp only [pop, get_bind, pullOrFault, h]
  rfl

theorem pop_of_empty {operation : String} {slot : OperandSlot} {memory : Inventory}
    (h : memory.pull? = none) :
    pop operation slot memory = .error ⟨operation, .missingOperand slot⟩ memory := by
  simp only [pop, get_bind, pullOrFault, h]
  rfl

end ChestMachine
