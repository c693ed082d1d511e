import ChestMachine.Inventory.Transfer
import ChestMachine.Config
import ChestMachine.Opcode

/-!
Programs: memories to start from, each with the configuration that it was
written for.
-/
namespace ChestMachine

inductive Program where
  /-- Files a box, then regroups what is left; the second dispatch faults. -/
  | storePermute
  /-- Files a box and fetches it again until the cap. -/
  | storeLoop
  /-- Smelts one box of cobblestone, then halts. -/
  | smeltOnce
  /-- Deals 26 values out by seven runs of keys, then halts. -/
  | permuteGroups
  deriving DecidableEq, Repr

namespace Program

def all : List Program :=
  [storePermute, storeLoop, smeltOnce, permuteGroups]

def name : Program → String
  | storePermute => "original"
  | storeLoop => "store-loop"
  | smeltOnce => "smelt-once"
  | permuteGroups => "permute-groups"

def config : Program → Config
  | storePermute => .grouped
  | storeLoop => { Config.standard with restoreOrder := .resultsThenBox }
  | smeltOnce | permuteGroups => .standard

private def cobblestone : Item := .ofKind "cobblestone"

private def stone : Item := .ofKind "stone"

private def boxOf (item : Item) (count : Nat) : Item :=
  .box (.packed [item] count)

private def halt : Item := boxOf (.paper "halt") 1

/-- Keys in runs of 1, 4, 4, 1, 1, 1 and 1. -/
def permutationKeys : Inventory :=
  let runs := [("1", 1), ("2", 4), ("3", 4), ("4", 1), ("5", 1), ("6", 1), ("7", 1)]
  Inventory.chest.fill (runs.flatMap fun (label, length) => List.replicate length (.paper label))

/-- The units that the program's memory is filled with, in order. -/
def seedUnits : Program → List Item
  | storePermute =>
      [Opcode.set.descriptor, boxOf cobblestone 64, boxOf (.paper "key") 2,
        boxOf Opcode.permute.descriptor 1, .box permutationKeys]
  | storeLoop =>
      [Opcode.set.descriptor, boxOf cobblestone 64, boxOf (.paper "key") 2,
        boxOf Opcode.get.descriptor 1]
  | smeltOnce =>
      [Opcode.smelt.descriptor, boxOf cobblestone 16, halt]
  | permuteGroups =>
      [Opcode.permute.descriptor, .box permutationKeys] ++ List.replicate 13 cobblestone ++
        List.replicate 13 stone ++ [halt]

/-- The memory that the program starts with. -/
def seed (program : Program) : Inventory :=
  Inventory.chest.fill program.seedUnits

end Program
end ChestMachine
