import FirmwareMatrix.Proofs.Mirroring

/-! # Runs with their moments

A run that writes down each of its steps as it takes it, with the text that the status bar has and
the world as it is when the step begins and when it ends. Without what is written down it is the run
itself, so what holds at the moments of the one holds at every step of the other. -/

namespace FirmwareMatrix

variable {σ α β : Type}

/-- A step of a run. A board is named with its number. -/
inductive Deed where
  /-- The status text is set for a phase. -/
  | enter (index : Nat) (b : Board) (phase : StatusLine.Phase)
  /-- A command is handed to the runner. -/
  | hand (index : Nat) (b : Board) (c : Command)
  /-- The outputs are copied. -/
  | copy (index : Nat) (b : Board)
  /-- Files are looked at or removed, something is shown or remembered. -/
  | other

/-- A step and the status text before and after it. -/
structure Moment where
  deed : Deed
  before : String
  after : String

namespace Moment

/-- The number of the board that a phase is set for. -/
def entered? (m : Moment) : Option Nat :=
  match m.deed with
  | .enter index _ _ => some index
  | .hand _ _ _ | .copy _ _ | .other => none

/-- The command that is handed over. -/
def issued? (m : Moment) : Option Issued :=
  match m.deed with
  | .hand _ _ c => some ⟨c, m.before⟩
  | .enter _ _ _ | .copy _ _ | .other => none

end Moment

/-- A step that was taken: its moment, and the worlds before and after it. -/
structure Taken (σ : Type) where
  moment : Moment
  found : σ
  left : σ

/-- A session and the steps that led to it. -/
structure Chronicle (σ : Type) where
  session : Session σ
  steps : List (Taken σ)

/-- The step from one session to another. -/
def Taken.between (deed : Deed) (s s' : Session σ) : Taken σ :=
  ⟨⟨deed, s.screen.bar.text, s'.screen.bar.text⟩, s.world, s'.world⟩

/-- Takes a step and writes it down. -/
def chronicled (deed : Deed) (m : StateM (Session σ) α) : StateM (Chronicle σ) α := fun w =>
  let (a, session) := m w.session
  (a, ⟨session, w.steps ++ [.between deed w.session session]⟩)

/-! ## The steps of a run -/

namespace Chronicle

open FirmwareMatrix.Matrix (onWorld onScreen)

def moments (w : Chronicle σ) : List Moment := w.steps.map Taken.moment

def setPhase (index total : Nat) (b : Board) (phase : StatusLine.Phase) :
    StateM (Chronicle σ) Unit :=
  chronicled (.enter index b phase) (Matrix.setPhase index total b phase)

def display (f : Screen → Screen) : StateM (Chronicle σ) Unit := chronicled .other (onScreen f)

def runCommand (runner : Runner σ) (index : Nat) (b : Board) (c : Command) :
    StateM (Chronicle σ) (Option Int) := do
  let ending ← chronicled (.hand index b c) (Matrix.issue runner c)
  if let .failed f := ending then
    display (Screen.report (Matrix.couldNotRun c f))
    display (Console.error ("Error: " ++ f.headline))
  return ending.code?

def collectOutputs (fs : FileSystem σ) (layout : Layout) (index total : Nat) (b : Board) :
    StateM (Chronicle σ) BoardResult := do
  match ← chronicled .other (onWorld (layout.artifacts.missing? fs layout.buildDir)) with
  | some file =>
    display (Screen.report (Matrix.leftOut b file))
    return .missingArtifact file
  | none =>
    setPhase index total b .copying
    let destination := Matrix.destination layout b
    match ← chronicled (.copy index b)
      (onWorld (layout.artifacts.deliver fs layout.buildDir destination)) with
    | .ok copies =>
      display fun s => copies.foldl (fun s p => Console.info ("--> Copied " ++ p.text) s) s
      return .succeeded
    | .error f =>
      display (Screen.report (Matrix.notCopied b f.chain))
      return .copyFailed f.chain

def buildAndCollect (fs : FileSystem σ) (runner : Runner σ) (layout : Layout) (index total : Nat)
    (b : Board) (build : Command) : StateM (Chronicle σ) (Option BoardResult) := do
  match ← chronicled .other (onWorld (layout.artifacts.clear fs layout.buildDir)) with
  | .error f =>
    display (Screen.report (Matrix.notCleared b f.chain))
    return some (.clearFailed f.chain)
  | .ok _ =>
    setPhase index total b .building
    display (Console.info "--> Building...")
    match ← runCommand runner index b build with
    | none => return none
    | some code =>
      if code = 0 then return some (← collectOutputs fs layout index total b)
      else return some (.buildFailed code)

def configure (runner : Runner σ) (index total : Nat) (b : Board) :
    Option Command → StateM (Chronicle σ) (Option Int)
  | none => do
    display (Console.info
      ("--> Target unchanged (" ++ b.target ++ "); skipping set-target"))
    return some 0
  | some c => do
    setPhase index total b .targeting
    display (Console.info
      (if c.kind = .configureFresh then "--> Configuring fresh build directory..."
      else "--> Setting target..."))
    runCommand runner index b c

def buildBoard (fs : FileSystem σ) (runner : Runner σ) (layout : Layout) (index total : Nat)
    (b : Board) : StateM (Chronicle σ) (Option BoardResult) := do
  display (Console.banner index total b layout.buildDir.text)
  let found := (← get).session.workspace
  let workspace ← chronicled .other (onWorld (found.refresh fs layout.marker))
  chronicled .other (modify fun s => { s with workspace })
  let plan := workspace.plan b
  match ← configure runner index total b plan.configure with
  | none => return none
  | some code =>
    if code = 0 then buildAndCollect fs runner layout index total b plan.build
    else return some (.configureFailed code)

def record (b : Board) (result : BoardResult) : StateM (Chronicle σ) Unit :=
  chronicled .other (Matrix.record b result)

def runFrom (fs : FileSystem σ) (runner : Runner σ) (layout : Layout) (total : Nat) :
    Nat → List Board → StateM (Chronicle σ) Bool
  | _, [] => pure true
  | index, b :: boards => do
    match ← buildBoard fs runner layout index total b with
    | none => return false
    | some result =>
      record b result
      runFrom fs runner layout total (index + 1) boards

def run (fs : FileSystem σ) (runner : Runner σ) (layout : Layout) (boards : List Board) :
    StateM (Chronicle σ) (Option Summary) := do
  if ← runFrom fs runner layout boards.length 1 boards then
    return some (← chronicled .other (Matrix.summarize fs layout boards.length false))
  else return none

/-! ## The run itself -/

variable {fs : FileSystem σ} {runner : Runner σ} {layout : Layout} {index total : Nat} {b : Board}

theorem chronicled_mirrors (deed : Deed) (m : StateM (Session σ) α) :
    Mirrors session (chronicled deed m) m := fun _ => rfl

theorem runCommand_mirrors (c : Command) :
    Mirrors session (runCommand runner index b c) (Matrix.runCommand runner c) := by
  refine (chronicled_mirrors _ _).bind fun ending => ?_
  cases ending with
  | failed f =>
    exact (chronicled_mirrors _ _).bind fun _ => (chronicled_mirrors _ _).bind fun _ => .pure _ _
  | exited n => exact .pure _ _
  | pending => exact .pure _ _

theorem collectOutputs_mirrors :
    Mirrors session (collectOutputs fs layout index total b)
      (Matrix.collectOutputs fs layout index total b) := by
  refine (chronicled_mirrors _ _).bind fun missing => ?_
  cases missing with
  | some file => exact (chronicled_mirrors _ _).bind fun _ => .pure _ _
  | none =>
    refine (chronicled_mirrors _ _).bind fun _ => (chronicled_mirrors _ _).bind fun delivered => ?_
    cases delivered <;> exact (chronicled_mirrors _ _).bind fun _ => .pure _ _

theorem buildAndCollect_mirrors (build : Command) :
    Mirrors session (buildAndCollect fs runner layout index total b build)
      (Matrix.buildAndCollect fs runner layout index total b build) := by
  refine (chronicled_mirrors _ _).bind fun cleared => ?_
  cases cleared with
  | error f => exact (chronicled_mirrors _ _).bind fun _ => .pure _ _
  | ok _ =>
    refine (chronicled_mirrors _ _).bind fun _ => (chronicled_mirrors _ _).bind fun _ => ?_
    refine (runCommand_mirrors build).bind fun code => ?_
    cases code with
    | none => exact .pure _ _
    | some n =>
      by_cases hn : n = 0
      · simp only [if_pos hn]
        exact collectOutputs_mirrors.bind fun _ => .pure _ _
      · simp only [if_neg hn]
        exact .pure _ _

theorem configure_mirrors (step : Option Command) :
    Mirrors session (configure runner index total b step)
      (Matrix.configure runner index total b step) := by
  cases step with
  | none => exact (chronicled_mirrors _ _).bind fun _ => .pure _ _
  | some c =>
    exact (chronicled_mirrors _ _).bind fun _ =>
      (chronicled_mirrors _ _).bind fun _ => runCommand_mirrors c

theorem buildBoard_mirrors :
    Mirrors session (buildBoard fs runner layout index total b)
      (Matrix.buildBoard fs runner layout index total b) := by
  refine (chronicled_mirrors _ _).bind fun _ => .get_bind fun w => ?_
  refine (chronicled_mirrors _ _).bind fun ws => (chronicled_mirrors _ _).bind fun _ => ?_
  refine (configure_mirrors _).bind fun code => ?_
  cases code with
  | none => exact .pure _ _
  | some n =>
    by_cases hn : n = 0
    · simp only [if_pos hn]
      exact buildAndCollect_mirrors _
    · simp only [if_neg hn]
      exact .pure _ _

theorem runFrom_mirrors (boards : List Board) :
    Mirrors session (runFrom fs runner layout total index boards)
      (Matrix.runFrom fs runner layout total index boards) := by
  induction boards generalizing index with
  | nil => exact .pure _ _
  | cons b boards ih =>
    refine buildBoard_mirrors.bind fun result => ?_
    cases result with
    | none => exact .pure _ _
    | some r => exact (chronicled_mirrors _ _).bind fun _ => ih

/-- Writing the steps of a run down changes nothing. -/
theorem run_mirrors (boards : List Board) :
    Mirrors session (run fs runner layout boards) (Matrix.run fs runner layout boards) := by
  refine (runFrom_mirrors boards).bind fun fin => ?_
  cases fin with
  | false => exact .pure _ _
  | true => exact (chronicled_mirrors _ _).bind fun _ => .pure _ _

end Chronicle

end FirmwareMatrix
