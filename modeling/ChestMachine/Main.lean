import ChestMachine.CommandLine.Reader

/-!
The program: prints a run on standard output and its warnings on standard
error. The exit code is 1 after a fault and 2 when the arguments are refused.
-/
namespace ChestMachine
namespace CommandLine

def usage : String :=
  "Run a seed program on the minecart machine and print every memory state.\n\n" ++
  "Usage: minecart [OPTIONS]\n\n" ++
  "Options:\n" ++
  "      --program <PROGRAM>                " ++
    "original, store-loop, smelt-once or permute-groups\n" ++
  "      --max-iterations <MAX_ITERATIONS>  maximum number of dispatches\n" ++
  "      --restore-order <RESTORE_ORDER>    " ++
    "state-then-box, box-then-state or results-then-box\n" ++
  "      --chunking <CHUNKING>              run-length or fixed\n" ++
  "      --chunk-size <CHUNK_SIZE>          group size whenever chunking is fixed\n" ++
  "      --json                             emit snapshots and the outcome as JSON lines\n" ++
  "  -h, --help                             print help\n" ++
  "  -V, --version                          print version\n"

def Stop.text : Stop → String
  | .displayHelp => usage
  | .displayVersion => "minecart 0.1.0\n"
  | .invalidValue => "error: a value is missing or is none of the possible ones\n"
  | .valueValidation => "error: a value is not a number that fits\n"
  | .unknownArgument => "error: unexpected argument\n"
  | .argumentConflict => "error: an argument cannot be used multiple times\n"
  | .tooManyValues => "error: unexpected value for a flag\n"

end CommandLine
end ChestMachine

open ChestMachine CommandLine in
def main (arguments : List String) : IO UInt32 := do
  match read arguments with
  | .error stop =>
      let stream ← if stop.exitCode = 0 then IO.getStdout else IO.getStderr
      stream.putStr stop.text
      return stop.exitCode.toUInt32
  | .ok options =>
      let (report, machine) ← options.runWith fun text => IO.print text
      for warning in machine.context.warnings do
        IO.eprintln warning.text
      return if report.outcome.isFault then 1 else 0
