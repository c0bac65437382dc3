import FirmwareMatrix.Discovery
import FirmwareMatrix.DryRun
import FirmwareMatrix.Matrix

/-! A whole run from the command line on: the settings, the boards, then either the report of a dry
run or the builds. Until the output directory is made nothing but reading happens. -/

namespace FirmwareMatrix.Launch

variable {σ : Type}

/-- The world that a run changes and the screen that it reports on. -/
structure State (σ : Type) where
  world : σ
  screen : Screen

/-- What a run finds around it. -/
structure Surroundings (σ : Type) where
  fs : FileSystem σ
  /-- The build tool that the settings name. -/
  tool : Settings → Tool σ
  /-- What the status bar is drawn on. -/
  backend : Backend
  /-- The directory that the run was started in. -/
  directory : Path
  /-- Milliseconds until a run whose tool hangs is interrupted. -/
  patience : Nat

/-- The settings in force and the boards to build, and what was reported on the way. -/
def survey [Extent σ] (fs : FileSystem σ) (o : Options) :
    StateM σ (Except Error (Settings × List Board) × List LogEntry) := do
  match ← Settings.resolve fs o with
  | .error e => return (.error e, [])
  | .ok s =>
    if !(← fs.isDirectory s.root) then return (.error (.missingRoot s.root), [])
    match ← Discovery.discover fs s.root s.pattern with
    | (.error e, log) => return (.error e, log)
    | (.ok boards, log) => return (.ok (s, boards), log)

def layoutOf (s : Settings) : Layout := ⟨s.buildDir, s.outputDir, s.marker, s.artifacts.artifacts⟩

/-- Makes sure that the output directory is there. -/
def openOutput (fs : FileSystem σ) (s : Settings) : StateM (State σ) (Except Error Unit) :=
  fun st =>
    let (present, world) := fs.isDirectory s.outputDir st.world
    if present then (.ok (), { st with world })
    else
      match fs.createDirectories s.outputDir world with
      | (.error f, world) => (.error (.failed f), { st with world })
      | (.ok _, world) =>
        let screen := Console.info ("Created output directory: " ++ s.outputDir.text) st.screen
        (.ok (), ⟨world, screen⟩)

/-- Says how many boards there are. -/
def announce (s : Settings) (boards : List Board) (screen : Screen) : Screen :=
  if boards.isEmpty then
    Console.warning ("No hardware configurations found in " ++ s.root.text) screen
  else
    Console.info ("Found " ++ toString boards.length ++ " hardware configurations.") screen

/-- Builds the boards and reports. -/
def build (around : Surroundings σ) (s : Settings) (boards : List Board) :
    StateM (State σ) Summary := fun st =>
  let screen := (announce s boards st.screen).startBar around.backend
  let layout := layoutOf s
  let session := Matrix.begin around.fs layout screen st.world
  let ((_, summary), session) :=
    Matrix.runToSummary around.fs (around.tool s).runner layout around.patience boards session
  (summary, ⟨session.world, Console.summary summary session.screen⟩)

/-- The run that a command line asks for. -/
def run [Extent σ] (around : Surroundings σ) (o : Options) :
    StateM (State σ) (Except Error RunStatus) := fun st =>
  let ((found, log), world) := survey around.fs o st.world
  let st : State σ := ⟨world, log.foldl (fun screen entry => screen.report entry) st.screen⟩
  match found with
  | .error e => (.error e, st)
  | .ok (s, boards) =>
    if o.dryRun then
      (.ok .succeeded, { st with screen := DryRun.print s around.directory boards st.screen })
    else
      match openOutput around.fs s st with
      | (.error e, st) => (.error e, st)
      | (.ok _, st) =>
        let (summary, st) := build around s boards st
        (.ok summary.status, st)

end FirmwareMatrix.Launch
