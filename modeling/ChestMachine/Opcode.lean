import ChestMachine.Item.Identity

/-!
The opcodes that a machine knows by itself. An opcode lies in memory as a
paper labeled with its name.
-/
namespace ChestMachine

inductive Opcode where
  | get
  | set
  | smelt
  | permute
  deriving DecidableEq, Repr

namespace Opcode

/-- In the order of the route table. -/
def all : List Opcode :=
  [get, set, smelt, permute]

def name : Opcode → String
  | get => "get(2)"
  | set => "set(2)"
  | smelt => "smelt(1)"
  | permute => "permute(27)"

/-- How many arguments a call takes. -/
def arity : Opcode → Nat
  | get | set => 2
  | smelt => 1
  | permute => 27

def descriptor (opcode : Opcode) : Item :=
  .paper opcode.name

def ofItem? (item : Item) : Option Opcode :=
  all.find? (·.descriptor == item)

end Opcode
end ChestMachine
