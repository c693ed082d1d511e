import ChestMachine.CommandLine.Options

/-!
Reading the arguments of the command line from left to right. A value that
stands in an argument of its own is not looked at before something known
follows it or the arguments end; an argument that is not known is therefore
refused first.
-/
namespace ChestMachine
namespace CommandLine

/-- Why reading stopped before a run. The first two are asked for. -/
inductive Stop where
  | displayHelp
  | displayVersion
  | invalidValue
  | valueValidation
  | unknownArgument
  | argumentConflict
  | tooManyValues
  deriving DecidableEq, Repr

def Stop.exitCode : Stop → UInt8
  | .displayHelp | .displayVersion => 0
  | _ => 2

/-- The options that take a value. -/
inductive Key where
  | program
  | maxIterations
  | restoreOrder
  | chunking
  | chunkSize
  deriving DecidableEq, Repr

/-- The options that stand alone. -/
inductive Switch where
  | json
  | help
  | version
  deriving DecidableEq, Repr

def Key.ofName? : String → Option Key
  | "program" => some .program
  | "max-iterations" => some .maxIterations
  | "restore-order" => some .restoreOrder
  | "chunking" => some .chunking
  | "chunk-size" => some .chunkSize
  | _ => none

def Switch.ofName? : String → Option Switch
  | "json" => some .json
  | "help" => some .help
  | "version" => some .version
  | _ => none

def Switch.ofLetter? : Char → Option Switch
  | 'h' => some .help
  | 'V' => some .version
  | _ => none

def ChunkChoice.ofName? : String → Option ChunkChoice
  | "run-length" => some .runLength
  | "fixed" => some .fixed
  | _ => none

/-- A decimal number below 2^64, which a plus sign may precede. -/
def word? (s : String) : Option UInt64 :=
  let digits := match s.toList with
    | '+' :: rest => rest
    | cs => cs
  if digits.isEmpty || !digits.all Char.isDigit then none
  else
    let n := Nat.ofDigitChars 10 digits 0
    if n < UInt64.size then some n.toUInt64 else none

/-- The value of an option that may be given once. -/
def once {α : Type} (given : Option α) (value : Option α) (refusal : Stop) :
    Except Stop (Option α) :=
  if given.isSome then .error .argumentConflict
  else
    match value with
    | some value => .ok (some value)
    | none => .error refusal

def Options.assign (options : Options) (key : Key) (value : String) : Except Stop Options :=
  match key with
  | .program => do
      let program? ← once options.program? (Program.ofName? value) .invalidValue
      return { options with program? }
  | .maxIterations => do
      let maxIterations? ← once options.maxIterations? (word? value) .valueValidation
      return { options with maxIterations? }
  | .restoreOrder => do
      let restoreOrder? ← once options.restoreOrder? (RestoreOrder.ofName? value) .invalidValue
      return { options with restoreOrder? }
  | .chunking => do
      let chunking? ← once options.chunking? (ChunkChoice.ofName? value) .invalidValue
      return { options with chunking? }
  | .chunkSize => do
      let chunkSize? ← once options.chunkSize? (word? value) .valueValidation
      return { options with chunkSize? }

def Options.turnOn (options : Options) : Switch → Except Stop Options
  | .json =>
      if options.json then .error .argumentConflict else .ok { options with json := true }
  | .help => .error .displayHelp
  | .version => .error .displayVersion

/-- An option whose value has not been looked at, or has not come yet. -/
structure Pending where
  key : Key
  value? : Option String

/-- Looks at the value that is pending. -/
def settle (options : Options) : Option Pending → Except Stop Options
  | none => .ok options
  | some ⟨_, none⟩ => .error .invalidValue
  | some ⟨key, some value⟩ => options.assign key value

/-- One argument by its form. -/
inductive Argument where
  /-- All that follows two bare dashes is taken literally. -/
  | separator
  | long (name : String) (value? : Option String)
  | short (letter : Char)
  | plain

def Argument.ofString (s : String) : Argument :=
  match s.toList with
  | ['-', '-'] => .separator
  | '-' :: '-' :: body =>
      let value? := match body.dropWhile (· != '=') with
        | [] => none
        | _ :: value => some (String.ofList value)
      .long (String.ofList (body.takeWhile (· != '='))) value?
  | '-' :: letter :: _ => .short letter
  | _ => .plain

/-- Reads on with what is known so far. -/
def readFrom (options : Options) (pending : Option Pending) :
    List String → Except Stop Options
  | [] => settle options pending
  | argument :: rest =>
      match Argument.ofString argument with
      | .separator =>
          if rest.isEmpty then settle options pending else .error .unknownArgument
      | .long name value? =>
          match Key.ofName? name, Switch.ofName? name, value? with
          | some key, _, some value => do
              let options ← settle options pending
              let options ← options.assign key value
              readFrom options none rest
          | some key, _, none => do
              let options ← settle options pending
              readFrom options (some ⟨key, none⟩) rest
          | none, some _, some _ => .error .tooManyValues
          | none, some switch, none => do
              let options ← settle options pending
              let options ← options.turnOn switch
              readFrom options none rest
          | none, none, _ => .error .unknownArgument
      | .short letter =>
          match Switch.ofLetter? letter with
          | some switch => do
              let options ← settle options pending
              let options ← options.turnOn switch
              readFrom options none rest
          | none => .error .unknownArgument
      | .plain =>
          match pending with
          | some ⟨key, none⟩ => readFrom options (some ⟨key, some argument⟩) rest
          | some ⟨_, some _⟩ | none => .error .unknownArgument

def read (arguments : List String) : Except Stop Options :=
  readFrom {} none arguments

end CommandLine
end ChestMachine
