import ChestMachine.Builtin
import ChestMachine.Config.Json
import ChestMachine.Run.Text

/-!
What can be asked for on the command line, the configuration that results, and
the run of it, printed as it goes.
-/
namespace ChestMachine
namespace CommandLine

/-- A choice of fixed groups says nothing about their size. -/
inductive ChunkChoice where
  | runLength
  | fixed
  deriving DecidableEq, Repr

/-- What was asked for; the rest is left to the program. -/
structure Options where
  program? : Option Program := none
  maxIterations? : Option UInt64 := none
  restoreOrder? : Option RestoreOrder := none
  chunking? : Option ChunkChoice := none
  chunkSize? : Option UInt64 := none
  json : Bool := false
  deriving DecidableEq, Repr

namespace Options

def program (options : Options) : Program :=
  options.program?.getD .storeLoop

/-- A choice of fixed groups keeps the size that the program has, if any. -/
def chunkingFor (options : Options) (policy : ChunkPolicy) : ChunkPolicy :=
  match options.chunking?, policy with
  | some .runLength, _ => .runLength
  | some .fixed, .runLength => .fixed ChunkPolicy.groupSize
  | some .fixed, .fixed size => .fixed size
  | none, policy => policy

/-- A size is used wherever groups are fixed, and passed over elsewhere. -/
def resize (options : Options) : ChunkPolicy → ChunkPolicy
  | .runLength => .runLength
  | .fixed size => .fixed (options.chunkSize?.getD size)

def config (options : Options) : Config :=
  let base := options.program.config
  { restoreOrder := options.restoreOrder?.getD base.restoreOrder
    chunking := options.resize (options.chunkingFor base.chunking)
    maxIterations := options.maxIterations?.getD base.maxIterations }

variable {m : Type → Type} [Monad m]

def format (options : Options) : Format :=
  if options.json then .json else .plain

def machine (options : Options) : Machine :=
  ⟨options.program.seed, .ofConfig options.config⟩

/-- Prints every snapshot and then the outcome. -/
def runWith (options : Options) (print : String → m Unit) : m (Report × Machine) := do
  let (report, machine) ←
    RouteTable.builtin.runWith (fun snapshot => print (snapshot.print options.format))
      options.machine
  print (report.outcome.print options.format)
  return (report, machine)

/-- Everything that is printed, as one text. -/
def transcript (options : Options) : (Report × Machine) × String :=
  (options.runWith fun text => modify (· ++ text) : StateM String (Report × Machine)).run ""

end Options
end CommandLine
end ChestMachine
