import ChestMachine.Config
import ChestMachine.Json.Value
import ChestMachine.Program

/-!
Configurations and programs as JSON. A name may also stand as the only key of
an object with the value null. A configuration is an object in which other
fields are passed over, or an array of its three values in order.
-/
namespace ChestMachine

open Json

namespace Json.Value

/-- The name that a value stands for. -/
def name? : Value → Option String
  | .text name => name
  | .object [(name, .null)] => name
  | _ => none

def word? : Value → Option UInt64
  | .natural n => if n < UInt64.size then some n.toUInt64 else none
  | _ => none

/-- The value of a field that occurs exactly once. -/
def field? (fields : List (Option String × Value)) (key : String) : Option Value :=
  match fields.filter (·.1 == some key) with
  | [(_, value)] => some value
  | _ => none

end Json.Value

namespace RestoreOrder

def ofName? (name : String) : Option RestoreOrder :=
  all.find? (·.name == name)

def toJson (order : RestoreOrder) : Value :=
  .string order.name

def ofJson? (value : Value) : Option RestoreOrder :=
  value.name?.bind ofName?

end RestoreOrder

namespace ChunkPolicy

def toJson : ChunkPolicy → Value
  | runLength => .string "run-length"
  | fixed size => .record [("fixed", .natural size.toNat)]

def ofJson? (value : Value) : Option ChunkPolicy :=
  if value.name? == some "run-length" then some runLength
  else
    match value with
    | .object [(some "fixed", size)] => size.word?.map fixed
    | _ => none

end ChunkPolicy

namespace Program

def ofName? (name : String) : Option Program :=
  all.find? (·.name == name)

def toJson (program : Program) : Value :=
  .string program.name

def ofJson? (value : Value) : Option Program :=
  value.name?.bind ofName?

end Program

namespace Config

def toJson (config : Config) : Value :=
  .record [("restore_order", config.restoreOrder.toJson), ("chunking", config.chunking.toJson),
    ("max_iterations", .natural config.maxIterations.toNat)]

def ofValues? (restoreOrder chunking maxIterations : Value) : Option Config := do
  return ⟨← RestoreOrder.ofJson? restoreOrder, ← ChunkPolicy.ofJson? chunking,
    ← maxIterations.word?⟩

def ofJson? : Value → Option Config
  | .array [restoreOrder, chunking, maxIterations] =>
      ofValues? restoreOrder chunking maxIterations
  | .object fields =>
      if fields.all (·.1.isSome) then do
        ofValues? (← Value.field? fields "restore_order") (← Value.field? fields "chunking")
          (← Value.field? fields "max_iterations")
      else none
  | _ => none

end Config

/-- The names of restore orders are told apart. -/
theorem RestoreOrder.ofName?_name (order : RestoreOrder) : ofName? order.name = some order := by
  cases order <;> rfl

theorem Program.ofName?_name (program : Program) : ofName? program.name = some program := by
  cases program <;> rfl

end ChestMachine
