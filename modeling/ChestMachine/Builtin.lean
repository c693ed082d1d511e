import ChestMachine.Opcode
import ChestMachine.Route

/-!
The four opcodes and the table that a machine starts with. Two of them work on
the store: they take an item box and a key box, file or fetch under the first
key of the key box, and return the two boxes. The other two make new boxes out
of their arguments: smelting replaces every unit through the furnace,
regrouping deals values out into boxes.
-/
namespace ChestMachine
namespace Builtin

/-- Removes the entry under the key. -/
def takeEntry (operation : String) (key : Item) : ContextM Inventory := do
  let context ← get
  match context.store.find? key with
  | some entry =>
      set { context with store := context.store.erase key }
      return entry
  | none => throw ⟨operation, .keyNotFound key.text⟩

/-- Transfers units into the entry under the key, or into a new chest. -/
def storeUnder (key : Item) (units : Inventory) : ContextM Transfer := do
  let context ← get
  let entry := (context.store.find? key).getD .chest
  let transfer := units.transfer entry none
  set { context with store := context.store.insert key transfer.target }
  return transfer

/-- Takes the entry under the key into the item box. The key goes back into
its box twice, so that the result can be used for another look-up. -/
def fetch (arguments : Vector Item 2) : ContextM (List Item) := do
  let operation := Opcode.get.name
  let itemBox ← openBox operation (.argument 0) (arguments.get 0)
  let keyBox ← openBox operation (.argument 1) (arguments.get 1)
  let (key, keyBox) ← pullOrFault operation .key keyBox
  let entry ← takeEntry operation key
  let keyBox ← addOrFault operation keyBox key
  let keyBox ← addOrFault operation keyBox key
  let (_, delivery) := entry.drain itemBox
  if delivery.refused > 0 then
    warn (.itemBoxOverflowed key.text delivery.refused)
  return [.box delivery.target, .box keyBox]

/-- Transfers the item box into the entry under the key, which is made when
there is none. The key is used up. -/
def deposit (arguments : Vector Item 2) : ContextM (List Item) := do
  let operation := Opcode.set.name
  let itemBox ← openBox operation (.argument 0) (arguments.get 0)
  let keyBox ← openBox operation (.argument 1) (arguments.get 1)
  let (key, keyBox) ← pullOrFault operation .key keyBox
  let transfer ← storeUnder key itemBox
  if !transfer.isComplete then
    warn (.entryFull key.text transfer.source.totalCount)
  return [.box transfer.source, .box keyBox]

/-- What the furnace makes of one unit. -/
def smeltUnit (operation : String) (unit : Item) : ContextM Item := do
  match (← get).furnace.find? unit with
  | some product => return product
  | none => throw ⟨operation, .unknownItem unit.text⟩

/-- Smelts every unit of the item box by way of a fresh chest. -/
def smelt (arguments : Vector Item 1) : ContextM (List Item) := do
  let operation := Opcode.smelt.name
  let itemBox ← openBox operation (.argument 0) (arguments.get 0)
  let (units, itemBox) := itemBox.pullAll
  let products ← units.mapM (smeltUnit operation)
  let delivery := Inventory.deliver products .chest
  if delivery.refused > 0 then
    warn (.furnaceFull delivery.refused)
  return [.box (delivery.target.transfer itemBox none).target]

def addAllOrFault (operation : String) : List Item → Inventory → ContextM Inventory
  | [], target => return target
  | item :: rest, target => do
      let target ← addOrFault operation target item
      addAllOrFault operation rest target

/-- Deals units of a pool out into one fresh chest for each size, and what is
left into a last one. Chests that stay empty are left out. -/
def deal : List Nat → Inventory → List Inventory
  | [], pool => if pool.isEmpty then [] else [(pool.transfer .chest none).target]
  | size :: sizes, pool =>
      let transfer := pool.transfer .chest (some size)
      let groups := deal sizes transfer.source
      if transfer.target.isEmpty then groups else transfer.target :: groups

/-- Regroups the values behind the key box by the runs of the keys. -/
def permute (arguments : Vector Item 27) : ContextM (List Item) := do
  let operation := Opcode.permute.name
  let keys ← openBox operation (.argument 0) (arguments.get 0)
  let pool ← addAllOrFault operation arguments.toList.tail .chest
  let policy := (← get).config.chunking
  return (deal (keys.pullRuns.1.map policy.chunkSize) pool).map .box

end Builtin

namespace Opcode

def function : (opcode : Opcode) → Vector Item opcode.arity → ContextM (List Item)
  | get => Builtin.fetch
  | set => Builtin.deposit
  | smelt => Builtin.smelt
  | permute => Builtin.permute

def call (opcode : Opcode) : Call opcode.arity :=
  ⟨opcode.name, opcode.function⟩

def operation (opcode : Opcode) : Operation :=
  opcode.call.toOperation

def route (opcode : Opcode) : Route :=
  ⟨opcode.descriptor, opcode.operation⟩

end Opcode

def RouteTable.builtin : RouteTable :=
  Opcode.all.map Opcode.route

end ChestMachine
