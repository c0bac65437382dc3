import FirmwareMatrix.Path

/-! The three commands a build tool is given, and the process each becomes. The board's name is
passed with every command, so that the tool's cache always names the board being built. -/

namespace FirmwareMatrix

inductive Command where
  /-- Set up an empty build directory for a target. -/
  | configureFresh (name target : String)
  /-- Switch a build directory that is already set up to another target. -/
  | retarget (name target : String)
  /-- Build with whatever set-up the directory has. -/
  | build (name : String)
  deriving DecidableEq, Repr

inductive Command.Kind where
  | configureFresh
  | retarget
  | build
  deriving DecidableEq, Repr

/-- A process to start: the program, its arguments and the directory it runs in. -/
structure Invocation where
  program : String
  args : List String
  directory : Path
  deriving Repr

namespace Command

def kind : Command → Kind
  | configureFresh _ _ => .configureFresh
  | retarget _ _ => .retarget
  | build _ => .build

def boardName : Command → String
  | configureFresh name _ | retarget name _ | build name => name

def target? : Command → Option String
  | configureFresh _ target | retarget _ target => some target
  | build _ => none

/-- Whether the command sets the build directory up. -/
def isConfigure (c : Command) : Bool := c.kind != .build

def Kind.name : Kind → String
  | configureFresh => "ConfigureFresh"
  | retarget => "Retarget"
  | build => "Build"

/-- The tool's own words for the step. -/
def step : Command → List String
  | configureFresh _ target => ["-DIDF_TARGET=" ++ target, "reconfigure"]
  | retarget _ target => ["set-target", target]
  | build _ => ["build"]

def args (buildDir : Path) (c : Command) : List String :=
  ["-B", buildDir.text, "-DHW_NAME=" ++ c.boardName] ++ c.step

def invocation (tool : String) (projectDir buildDir : Path) (c : Command) : Invocation :=
  { program := tool, args := c.args buildDir, directory := projectDir }

end Command

namespace Invocation

/-- Arguments that hold a blank are shown in quotes. -/
def shownArg (arg : String) : String :=
  if arg.toList.any Text.isBlank then " \"" ++ arg ++ "\"" else " " ++ arg

def shown (i : Invocation) : String := i.program ++ String.join (i.args.map shownArg)

/-- What a process that is set up holds for a text: no text with the character that ends texts can
be handed over, and a process that was set up with one cannot be started. -/
def handedOver (text : String) : String :=
  if text.toList.contains '\x00' then "<string-with-nul>" else text

/-- The program and its arguments as a process that is set up holds them. -/
def words (i : Invocation) : List String := (i.program :: i.args).map handedOver

end Invocation

end FirmwareMatrix
