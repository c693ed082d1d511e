/-!
How a machine is set up: where a call puts the continuation box, how large the
groups of a regrouping are, and how many dispatches a run may take.
-/
namespace ChestMachine

/-- What follows the next token in memory after a call. -/
inductive RestoreOrder where
  | stateThenBox
  | boxThenState
  | resultsThenBox
  deriving DecidableEq, Repr

inductive ChunkPolicy where
  | runLength
  | fixed (size : UInt64)
  deriving DecidableEq, Repr

structure Config where
  restoreOrder : RestoreOrder
  chunking : ChunkPolicy
  maxIterations : UInt64
  deriving DecidableEq, Repr

namespace RestoreOrder

def all : List RestoreOrder :=
  [stateThenBox, boxThenState, resultsThenBox]

def name : RestoreOrder → String
  | stateThenBox => "state-then-box"
  | boxThenState => "box-then-state"
  | resultsThenBox => "results-then-box"

end RestoreOrder

namespace ChunkPolicy

/-- The size of fixed groups where none is given. -/
def groupSize : UInt64 := 27

/-- How many values the group for a key run of this length takes. -/
def chunkSize (policy : ChunkPolicy) (run : Nat) : Nat :=
  match policy with
  | runLength => run
  | fixed size => size.toNat

end ChunkPolicy

namespace Config

def standard : Config :=
  ⟨.stateThenBox, .runLength, 4⟩

/-- Groups of one size, with the box behind the results. -/
def grouped : Config :=
  ⟨.resultsThenBox, .fixed ChunkPolicy.groupSize, 4⟩

end Config
end ChestMachine
