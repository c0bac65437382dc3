import FirmwareMatrix.Log
import FirmwareMatrix.Path

/-! The command line. Options take a value, attached with an equals sign or as the next argument;
switches take none; nothing else is an argument. What follows an option is looked at only when the
next known argument or the end is reached, so an unknown argument is noticed first. -/

namespace FirmwareMatrix

/-- What the command line asks for. -/
structure Options where
  config : Option Path
  root : Option Path
  output : Option Path
  buildDir : Option Path
  tool : Option String
  logLevel : Option LogLevel
  dryRun : Bool
  deriving Repr

namespace Options

/-- Nothing is asked for. -/
def none : Options := ⟨.none, .none, .none, .none, .none, .none, false⟩

/-- The names that take a value. -/
inductive Key where
  | config
  | root
  | output
  | buildDir
  | tool
  | logLevel
  deriving DecidableEq, Repr

/-- The names that take no value. -/
inductive Switch where
  | dryRun
  | help
  | version
  deriving DecidableEq, Repr

/-- Why reading a command line stops short of options. -/
inductive Stop where
  | unknownArgument
  /-- A value is missing, empty where it must not be, or no possible value. -/
  | badValue
  | repeated
  /-- A value is attached to a switch. -/
  | unneededValue
  | helpWanted
  | versionWanted
  deriving DecidableEq, Repr

def Key.ofName? : String → Option Key
  | "config" => some .config
  | "root" => some .root
  | "output" => some .output
  | "build-dir" => some .buildDir
  | "tool" => some .tool
  | "log-level" => some .logLevel
  | _ => .none

def Switch.ofName? : String → Option Switch
  | "dry-run" => some .dryRun
  | "help" => some .help
  | "version" => some .version
  | _ => .none

def Switch.ofLetter? : Char → Option Switch
  | 'h' => some .help
  | 'V' => some .version
  | _ => .none

/-- Whether an option has been given. -/
def has (o : Options) : Key → Bool
  | .config => o.config.isSome
  | .root => o.root.isSome
  | .output => o.output.isSome
  | .buildDir => o.buildDir.isSome
  | .tool => o.tool.isSome
  | .logLevel => o.logLevel.isSome

/-- A path that is given must not be empty. -/
def pathValue (v : String) : Except Stop (Option Path) :=
  if v.isEmpty then .error .badValue else .ok (some ⟨v⟩)

/-- Gives an option its value, once. -/
def set (o : Options) (k : Key) (v : String) : Except Stop Options :=
  if o.has k then .error .repeated
  else match k with
    | .config => (pathValue v).map fun config => { o with config }
    | .root => (pathValue v).map fun root => { o with root }
    | .output => (pathValue v).map fun output => { o with output }
    | .buildDir => (pathValue v).map fun buildDir => { o with buildDir }
    | .tool => .ok { o with tool := some v }
    | .logLevel =>
      match LogLevel.ofWord? v with
      | some level => .ok { o with logLevel := some level }
      | .none => .error .badValue

/-- Turns a switch on. -/
def turnOn (o : Options) : Switch → Except Stop Options
  | .dryRun => if o.dryRun then .error .repeated else .ok { o with dryRun := true }
  | .help => .error .helpWanted
  | .version => .error .versionWanted

/-- An option that waits to be looked at, with its value once that has been read. -/
abbrev Pending := Option (Key × Option String)

/-- Looks at the option that waits. -/
def settle (o : Options) : Pending → Except Stop Options
  | .none => .ok o
  | some (_, .none) => .error .badValue
  | some (k, some v) => o.set k v

/-- What an argument is, by its form alone. -/
inductive Shape where
  /-- Nothing but values follow. -/
  | divider
  | long (name : String) (attached : Option String)
  /-- Letters after one dash; the first one decides. -/
  | short (letter : Char)
  | value

def Shape.ofArgument (arg : String) : Shape :=
  match arg.toList with
  | ['-', '-'] => .divider
  | '-' :: '-' :: cs =>
    match Text.cutAt '=' cs with
    | some (name, attached) => .long (String.ofList name) (some (String.ofList attached))
    | .none => .long (String.ofList cs) .none
  | '-' :: c :: _ => .short c
  | _ => .value

/-- Reads arguments after those that gave `o` and left `pending` to be looked at. -/
def readFrom (o : Options) (pending : Pending) : List String → Except Stop Options
  | [] => o.settle pending
  | arg :: rest =>
    match Shape.ofArgument arg with
    | .divider => if rest.isEmpty then o.settle pending else .error .unknownArgument
    | .long name attached =>
      match Key.ofName? name, Switch.ofName? name, attached with
      | some k, _, some v => do readFrom (← (← o.settle pending).set k v) .none rest
      | some k, _, .none => do readFrom (← o.settle pending) (some (k, .none)) rest
      | .none, some _, some _ => .error .unneededValue
      | .none, some s, .none => do readFrom (← (← o.settle pending).turnOn s) .none rest
      | .none, .none, _ => .error .unknownArgument
    | .short letter =>
      match Switch.ofLetter? letter with
      | some s => do readFrom (← (← o.settle pending).turnOn s) .none rest
      | .none => .error .unknownArgument
    | .value =>
      match pending with
      | some (k, .none) => readFrom o (some (k, some arg)) rest
      | _ => .error .unknownArgument

/-- The options that a command line gives. -/
def read (args : List String) : Except Stop Options := readFrom none .none args

end Options

end FirmwareMatrix
