import FirmwareMatrix.Artifact
import FirmwareMatrix.Console
import FirmwareMatrix.ToolOutput
import FirmwareMatrix.Workspace

/-! Building boards one after another in one build directory. For each board the workspace says
which commands are needed; the outputs of earlier builds are cleared before the build, checked
after it and delivered to a directory of the board's own. A board that fails does not stop the
others. A command that is still running when the run is interrupted ends the run where it is. -/

namespace FirmwareMatrix

/-- Where a run works and what it delivers. -/
structure Layout where
  buildDir : Path
  outputDir : Path
  marker : String
  artifacts : ArtifactSet

/-- A command handed to the runner and the status text at that moment. -/
structure Issued where
  command : Command
  status : String
  deriving DecidableEq, Repr

/-- All that changes during a run: the world that files and the tool live in, the workspace, the
outcomes and commands so far and the screen. -/
structure Session (σ : Type) where
  world : σ
  workspace : Workspace
  outcomes : List Outcome
  issued : List Issued
  screen : Screen

namespace Matrix

variable {σ : Type}

/-- A change of the world within a session. -/
def onWorld {α : Type} (m : StateM σ α) : StateM (Session σ) α := fun s =>
  let (a, world) := m s.world
  (a, { s with world })

def onScreen (f : Screen → Screen) : StateM (Session σ) Unit := fun s =>
  ((), { s with screen := f s.screen })

/-- Starts a session on a directory as it is found. -/
def begin (fs : FileSystem σ) (layout : Layout) (screen : Screen) (world : σ) : Session σ :=
  let (workspace, world) := Workspace.probe fs layout.buildDir layout.marker world
  ⟨world, workspace, [], [], screen⟩

def setPhase (index total : Nat) (b : Board) (phase : StatusLine.Phase) :
    StateM (Session σ) Unit :=
  onScreen (Screen.setText (StatusLine.textFor index total b phase))

/-- Hands a command to the runner. -/
def issue (runner : Runner σ) (c : Command) : StateM (Session σ) Ending := fun s =>
  let (ending, world, screen) := runner.run c (s.world, s.screen)
  (ending, { s with world, screen, issued := s.issued ++ [⟨c, s.screen.bar.text⟩] })

def couldNotRun (c : Command) (f : Failure) : LogEntry :=
  ⟨.error, "build tool could not be run",
    [("config", c.boardName), ("kind", c.kind.name), ("error", f.headline)]⟩

/-- Runs a command: its exit code, -1 when it could not be run, none while it is running. -/
def runCommand (runner : Runner σ) (c : Command) : StateM (Session σ) (Option Int) := do
  let ending ← issue runner c
  if let .failed f := ending then
    onScreen (Screen.report (couldNotRun c f))
    onScreen (Console.error ("Error: " ++ f.headline))
  return ending.code?

def notCleared (b : Board) (reason : String) : LogEntry :=
  ⟨.error, "could not clear previous artifacts", [("config", b.name), ("error", reason)]⟩

def leftOut (b : Board) (file : Path) : LogEntry :=
  ⟨.warn, "build succeeded without producing artifact",
    [("config", b.name), ("path", file.text)]⟩

def notCopied (b : Board) (reason : String) : LogEntry :=
  ⟨.error, "artifact copy failed", [("config", b.name), ("error", reason)]⟩

/-- Where the outputs of a board go. -/
def destination (layout : Layout) (b : Board) : Path := layout.outputDir.child b.directoryName

/-- Checks and delivers what a successful build left. -/
def collectOutputs (fs : FileSystem σ) (layout : Layout) (index total : Nat) (b : Board) :
    StateM (Session σ) BoardResult := do
  match ← onWorld (layout.artifacts.missing? fs layout.buildDir) with
  | some file =>
    onScreen (Screen.report (leftOut b file))
    return .missingArtifact file
  | none =>
    setPhase index total b .copying
    match ← onWorld (layout.artifacts.deliver fs layout.buildDir (destination layout b)) with
    | .ok copies =>
      onScreen fun s => copies.foldl (fun s p => Console.info ("--> Copied " ++ p.text) s) s
      return .succeeded
    | .error f =>
      onScreen (Screen.report (notCopied b f.chain))
      return .copyFailed f.chain

/-- Clears the outputs of earlier builds, builds, and collects the outputs of this one. -/
def buildAndCollect (fs : FileSystem σ) (runner : Runner σ) (layout : Layout) (index total : Nat)
    (b : Board) (build : Command) : StateM (Session σ) (Option BoardResult) := do
  match ← onWorld (layout.artifacts.clear fs layout.buildDir) with
  | .error f =>
    onScreen (Screen.report (notCleared b f.chain))
    return some (.clearFailed f.chain)
  | .ok _ =>
    setPhase index total b .building
    onScreen (Console.info "--> Building...")
    match ← runCommand runner build with
    | none => return none
    | some code =>
      if code = 0 then return some (← collectOutputs fs layout index total b)
      else return some (.buildFailed code)

/-- Sets the directory up for the board if the plan says so; the exit code, zero when there was
nothing to do. -/
def configure (runner : Runner σ) (index total : Nat) (b : Board) :
    Option Command → StateM (Session σ) (Option Int)
  | none => do
    onScreen (Console.info
      ("--> Target unchanged (" ++ b.target ++ "); skipping set-target"))
    return some 0
  | some c => do
    setPhase index total b .targeting
    onScreen (Console.info
      (if c.kind = .configureFresh then "--> Configuring fresh build directory..."
      else "--> Setting target..."))
    runCommand runner c

/-- Builds board number `index`; none while a command is still running. -/
def buildBoard (fs : FileSystem σ) (runner : Runner σ) (layout : Layout) (index total : Nat)
    (b : Board) : StateM (Session σ) (Option BoardResult) := do
  onScreen (Console.banner index total b layout.buildDir.text)
  let workspace ← onWorld ((← get).workspace.refresh fs layout.marker)
  modify fun s => { s with workspace }
  let plan := workspace.plan b
  match ← configure runner index total b plan.configure with
  | none => return none
  | some code =>
    if code = 0 then buildAndCollect fs runner layout index total b plan.build
    else return some (.configureFailed code)

/-- Records the result of a board. The target counts as set up whatever the result. -/
def record (b : Board) (result : BoardResult) : StateM (Session σ) Unit := do
  modify fun s => { s with workspace := s.workspace.record b.target }
  onScreen
    (if result.isSuccess then Console.success ("SUCCESS: " ++ b.name)
    else Console.error ("FAILED: " ++ b.name ++ " (" ++ result.text ++ ")"))
  modify fun s => { s with outcomes := s.outcomes ++ [⟨b.name, result⟩] }

/-- Builds boards from number `index` on; whether all of them ended. -/
def runFrom (fs : FileSystem σ) (runner : Runner σ) (layout : Layout) (total : Nat) :
    Nat → List Board → StateM (Session σ) Bool
  | _, [] => pure true
  | index, b :: boards => do
    match ← buildBoard fs runner layout index total b with
    | none => return false
    | some result =>
      record b result
      runFrom fs runner layout total (index + 1) boards

/-- What has been recorded so far, with the output directory as the file system resolves it. -/
def summarize (fs : FileSystem σ) (layout : Layout) (total : Nat) (interrupted : Bool) :
    StateM (Session σ) Summary := do
  let resolved ← onWorld (fs.canonicalize layout.outputDir)
  let outputDir := match resolved with
    | .ok p => p
    | .error _ => layout.outputDir
  return ⟨(← get).outcomes, total, outputDir, interrupted⟩

/-- Builds every board in order: the summary, or none when the run hangs in a command. -/
def run (fs : FileSystem σ) (runner : Runner σ) (layout : Layout) (boards : List Board) :
    StateM (Session σ) (Option Summary) := do
  if ← runFrom fs runner layout boards.length 1 boards then
    return some (← summarize fs layout boards.length false)
  else return none

def interruptReport : LogEntry := ⟨.warn, "interrupt received; aborting build matrix", []⟩

/-- Runs until all boards ended or, when a command is still running after `patience`
milliseconds, the run is interrupted. The status bar is stopped in either case. -/
def runUntilInterrupted (fs : FileSystem σ) (runner : Runner σ) (layout : Layout) (patience : Nat)
    (boards : List Board) : StateM (Session σ) (Option Summary) := do
  let finished ← run fs runner layout boards
  if finished.isNone then
    onScreen (Screen.wait patience)
    onScreen (Screen.report interruptReport)
  onScreen Screen.stopBar
  return finished

/-- Runs as above; an interrupted run is summed up by what it recorded. -/
def runToSummary (fs : FileSystem σ) (runner : Runner σ) (layout : Layout) (patience : Nat)
    (boards : List Board) : StateM (Session σ) (Bool × Summary) := do
  match ← runUntilInterrupted fs runner layout patience boards with
  | some summary => return (true, summary)
  | none => return (false, ← summarize fs layout boards.length true)

end Matrix

end FirmwareMatrix
