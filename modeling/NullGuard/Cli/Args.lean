/-!
The command line. A value given after its option is looked at only when the next argument begins,
so an unknown argument behind a bad value is reported first.
-/

namespace NullGuard.Cli

inductive OutputFormat where
  | text | json
  deriving DecidableEq, Inhabited

structure Args where
  input : String
  format : OutputFormat
  eval : Bool
  maxDepth : Option Nat
  stats : Bool
  emptyCollections : Bool
  deriving DecidableEq, Inhabited

/-- Why a command line is not run. -/
inductive Usage where
  | missingInput
  | unknownArgument
  | conflict
  | invalidValue
  | invalidNumber
  | unexpectedValue
  | help
  | version
  deriving DecidableEq, Inhabited

inductive Switch where
  | eval | stats | emptyCollections
  deriving DecidableEq, Inhabited

inductive ValueOption where
  | format | maxDepth
  deriving DecidableEq, Inhabited

/-- What a long name means. -/
inductive Flag where
  | switch (name : Switch)
  | valued (name : ValueOption)
  | stop (usage : Usage)

def Flag.ofName? : String → Option Flag
  | "eval" => some (.switch .eval)
  | "stats" => some (.switch .stats)
  | "empty-collections" => some (.switch .emptyCollections)
  | "format" => some (.valued .format)
  | "max-depth" => some (.valued .maxDepth)
  | "help" => some (.stop .help)
  | "version" => some (.stop .version)
  | _ => none

/-- An argument that has begun but has not been looked at. -/
inductive Pending where
  | input (value : String)
  | valued (name : ValueOption) (value : Option String)

/-- What has been read so far. -/
structure Reading where
  input : Option String
  format : Option OutputFormat
  maxDepth : Option Nat
  switches : List Switch
  pending : Option Pending
  hasInput : Bool
  onlyInputs : Bool

namespace Reading

def start : Reading := ⟨none, none, none, [], none, false, false⟩

def readFormat : String → Except Usage OutputFormat
  | "text" => .ok .text
  | "json" => .ok .json
  | _ => .error .invalidValue

/-- A number of at most 32 bits, which may have a sign. -/
def readNumber (value : String) : Except Usage Nat :=
  let (negative, digits) :=
    match value.toList with
    | '-' :: digits => (true, digits)
    | '+' :: digits => (false, digits)
    | digits => (false, digits)
  let number := digits.foldl (fun n c => 10 * n + (c.toNat - '0'.toNat)) 0
  if digits.isEmpty ∨ digits.any (!·.isDigit) then .error .invalidNumber
  else if UInt32.size ≤ number ∨ (negative ∧ number ≠ 0) then .error .invalidNumber
  else .ok number

/-- Takes an option with its value. No option may be given twice. -/
def take (reading : Reading) (name : ValueOption) (value : String) : Except Usage Reading :=
  match name with
  | .format =>
    if reading.format.isSome then .error .conflict
    else return { reading with format := some (← readFormat value) }
  | .maxDepth =>
    if reading.maxDepth.isSome then .error .conflict
    else return { reading with maxDepth := some (← readNumber value) }

/-- Looks at the argument that has begun. -/
def settle (reading : Reading) : Except Usage Reading :=
  let settled := { reading with pending := none }
  match reading.pending with
  | none => .ok reading
  | some (.input value) =>
    if value.isEmpty then .error .invalidValue else .ok { settled with input := some value }
  | some (.valued _ none) => .error .invalidValue
  | some (.valued name (some value)) => settled.take name value

def takeSwitch (reading : Reading) (name : Switch) : Except Usage Reading :=
  if reading.switches.contains name then .error .conflict
  else .ok { reading with switches := name :: reading.switches }

/-- Reads `--name` or `--name=value`. -/
def readLong (reading : Reading) (name : String) (value : Option String) :
    Except Usage Reading :=
  match Flag.ofName? name, value with
  | none, _ => .error .unknownArgument
  | some (.switch _), some _ | some (.stop _), some _ => .error .unexpectedValue
  | some (.switch name), none => do
    let reading ← reading.settle
    reading.takeSwitch name
  | some (.stop usage), none => do
    let _ ← reading.settle
    .error usage
  | some (.valued name), some value => do
    let reading ← reading.settle
    reading.take name value
  | some (.valued name), none => do
    let reading ← reading.settle
    return { reading with pending := some (.valued name none) }

def readShort (reading : Reading) (letter : Char) : Except Usage Reading :=
  let stop (usage : Usage) : Except Usage Reading := do
    let _ ← reading.settle
    .error usage
  match letter with
  | 'h' => stop .help
  | 'V' => stop .version
  | _ => .error .unknownArgument

/-- There is one input, and a second one is an unknown argument. -/
def readInput (reading : Reading) (value : String) : Except Usage Reading :=
  if reading.hasInput then .error .unknownArgument
  else do
    let reading ← reading.settle
    return { reading with pending := some (.input value), hasInput := true }

/-- Reads an argument that does not look like an option: the value of the option before it, or
the input. -/
def readPlain (reading : Reading) (value : String) : Except Usage Reading :=
  match reading.pending with
  | some (.valued name none) =>
    .ok { reading with pending := some (.valued name (some value)) }
  | _ => reading.readInput value

def read (reading : Reading) (arg : String) : Except Usage Reading :=
  if reading.onlyInputs then reading.readInput arg
  else match arg.toList with
    | ['-', '-'] => .ok { reading with onlyInputs := true }
    | '-' :: '-' :: rest =>
      let name := String.ofList (rest.takeWhile (· ≠ '='))
      match rest.dropWhile (· ≠ '=') with
      | [] => reading.readLong name none
      | _ :: value => reading.readLong name (some (String.ofList value))
    | '-' :: letter :: _ => reading.readShort letter
    | _ => reading.readPlain arg

def finish (reading : Reading) : Except Usage Args := do
  let reading ← reading.settle
  match reading.input with
  | none => .error .missingInput
  | some input =>
    return {
      input
      format := reading.format.getD .text
      eval := reading.switches.contains .eval
      maxDepth := reading.maxDepth
      stats := reading.switches.contains .stats
      emptyCollections := reading.switches.contains .emptyCollections }

end Reading

namespace Args

def parse (args : List String) : Except Usage Args := do
  (← args.foldlM Reading.read Reading.start).finish

/-- Whether the document comes from standard input. -/
def readsStdin (args : Args) : Bool :=
  args.input = "-"

end Args

end NullGuard.Cli
