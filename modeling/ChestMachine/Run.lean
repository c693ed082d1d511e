import ChestMachine.Route

/-!
Running a machine: dispatching again and again until no opcode is in memory,
an operation faults, or the cap on dispatches is reached. Memory is written
down before the first dispatch and after each one that succeeds.
-/
namespace ChestMachine

structure Snapshot where
  iteration : UInt64
  /-- The label of the opcode that ran, unless this is the initial memory. -/
  opcode : Option String
  memory : String
  deriving DecidableEq, Repr

/-- Why a run stopped. A fault tells which dispatch it was. -/
inductive Outcome where
  | halted (iterations : UInt64)
  | iterationCap (iterations : UInt64)
  | faulted (iteration : UInt64) (fault : Fault)
  deriving DecidableEq, Repr

structure Report where
  outcome : Outcome
  snapshots : List Snapshot
  deriving DecidableEq, Repr

namespace Outcome

/-- How many dispatches were completed. -/
def iterations : Outcome → UInt64
  | halted iterations | iterationCap iterations => iterations
  | faulted iteration _ => iteration - 1

def fault? : Outcome → Option Fault
  | halted _ | iterationCap _ => none
  | faulted _ fault => some fault

def isFault (outcome : Outcome) : Bool :=
  outcome.fault?.isSome

def kind : Outcome → String
  | halted _ => "halted"
  | iterationCap _ => "iteration-cap"
  | faulted _ _ => "faulted"

end Outcome

namespace Report

def addSnapshot (report : Report) (snapshot : Snapshot) : Report :=
  { report with snapshots := snapshot :: report.snapshots }

def finalMemory? (report : Report) : Option String :=
  report.snapshots.getLast?.map (·.memory)

end Report

namespace RouteTable

variable {m : Type → Type} [Monad m]

/-- Goes on from a machine that has had some dispatches and may have a number
more. -/
def resumeWith (table : RouteTable) (observe : Snapshot → m Unit) :
    Nat → UInt64 → Machine → m (Report × Machine)
  | 0, iterations, machine => return (⟨.iterationCap iterations, []⟩, machine)
  | left + 1, iterations, machine =>
      match table.dispatch machine with
      | .ok none machine => return (⟨.halted iterations, []⟩, machine)
      | .error fault machine => return (⟨.faulted (iterations + 1) fault, []⟩, machine)
      | .ok (some descriptor) machine => do
          let snapshot := ⟨iterations + 1, some descriptor.label, machine.memory.text⟩
          observe snapshot
          let (report, machine) ← resumeWith table observe left (iterations + 1) machine
          return (report.addSnapshot snapshot, machine)

/-- Runs a machine and shows each snapshot to an observer as it is taken. -/
def runWith (table : RouteTable) (observe : Snapshot → m Unit) (machine : Machine) :
    m (Report × Machine) := do
  let initial := ⟨0, none, machine.memory.text⟩
  observe initial
  let cap := machine.context.config.maxIterations
  let (report, machine) ← table.resumeWith observe cap.toNat 0 machine
  return (report.addSnapshot initial, machine)

def run (table : RouteTable) (machine : Machine) : Report × Machine :=
  Id.run (table.runWith (fun _ => pure ()) machine)

end RouteTable
end ChestMachine
