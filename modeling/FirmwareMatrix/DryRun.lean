import FirmwareMatrix.Console
import FirmwareMatrix.Settings
import FirmwareMatrix.Workspace

/-! A run on paper: the boards and the commands that each would need, from an empty build directory
on. Nothing is started and nothing is written but the report. -/

namespace FirmwareMatrix.DryRun

/-- The build directory that a run on paper starts from. -/
def blank (buildDir : Path) : Workspace := ⟨buildDir, true, none⟩

/-- The directory after a board: it has been set up, for the board's target. -/
def after (w : Workspace) (b : Board) : Workspace := { w.record b.target with fresh := false }

/-- Each board with its commands, from a state of the build directory on. -/
def plans (w : Workspace) : List Board → List (Board × List Command)
  | [] => []
  | b :: boards => (b, (w.plan b).commands) :: plans (after w b) boards

/-- All commands in order. -/
def commands (buildDir : Path) (boards : List Board) : List Command :=
  (plans (blank buildDir) boards).flatMap Prod.snd

/-- The report on one command. -/
def commandLine (s : Settings) (directory : Path) (c : Command) : String :=
  "      " ++ c.kind.name ++ ": " ++ (c.invocation s.tool directory s.buildDir).shown

/-- The report on one board, down to its commands. -/
def boardHeading (s : Settings) (b : Board) : List String :=
  ["  - " ++ b.title, "      file: " ++ b.source.text,
    "      output: " ++ (s.outputDir.child b.directoryName).text]

/-- The report on one board. -/
def boardLines (s : Settings) (directory : Path) (b : Board) (cs : List Command) : List String :=
  boardHeading s b ++ cs.map (commandLine s directory)

/-- The report down to the boards. -/
def heading (s : Settings) (boards : List Board) : List String :=
  ["buildmatrix dry-run", "  root = " ++ s.root.text, "  build_dir = " ++ s.buildDir.text,
    "  output_dir = " ++ s.outputDir.text, "", "configs (" ++ toString boards.length ++ "):"]

/-- The whole report. -/
def lines (s : Settings) (directory : Path) (boards : List Board) : List String :=
  heading s boards ++
    (plans (blank s.buildDir) boards).flatMap fun (b, cs) => boardLines s directory b cs

def print (s : Settings) (directory : Path) (boards : List Board) (screen : Screen) : Screen :=
  (lines s directory boards).foldl (fun screen line => Console.plain line screen) screen

end FirmwareMatrix.DryRun
