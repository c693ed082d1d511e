import ChestMachine.Json.Value
import ChestMachine.Run

/-!
How a run is printed, as text or as one JSON value per line. Every line ends
with a line feed.
-/
namespace ChestMachine

open Json

inductive Format where
  | plain
  | json
  deriving DecidableEq, Repr

namespace Snapshot

def toJson (snapshot : Snapshot) : Value :=
  .record [("iteration", .natural snapshot.iteration.toNat),
    ("opcode", snapshot.opcode.elim .null .string), ("memory", .string snapshot.memory)]

def heading (snapshot : Snapshot) : String :=
  if snapshot.iteration = 0 then "Initial condition"
  else "Iteration " ++ toString snapshot.iteration.toNat ++ ":"

def print (snapshot : Snapshot) : Format → String
  | .plain => snapshot.heading ++ "\n" ++ snapshot.memory ++ "\n"
  | .json => snapshot.toJson.compact ++ "\n"

end Snapshot

def Fault.toJson (fault : Fault) : Value :=
  .record [("category", .string fault.cause.category.text),
    ("code", .natural fault.cause.code), ("message", .string fault.message)]

namespace Outcome

def toJson (outcome : Outcome) : Value :=
  .record [("error", outcome.fault?.elim .null Fault.toJson),
    ("iterations", .natural outcome.iterations.toNat), ("outcome", .string outcome.kind)]

def text : Outcome → String
  | halted iterations => "Halted after " ++ toString iterations.toNat ++ " iteration(s)"
  | iterationCap iterations =>
      "Stopped at the iteration cap (" ++ toString iterations.toNat ++ ")"
  | faulted iteration fault =>
      "Fault in iteration " ++ toString iteration.toNat ++ ": [E" ++ toString fault.cause.code ++
        "] " ++ fault.message

def print (outcome : Outcome) : Format → String
  | .plain => outcome.text ++ "\n"
  | .json => outcome.toJson.compact ++ "\n"

end Outcome

end ChestMachine
