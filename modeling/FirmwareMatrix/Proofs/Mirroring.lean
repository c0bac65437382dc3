import FirmwareMatrix.Matrix

/-! # Runs on worlds that hold more

A view takes what a file system works on out of a world that holds more than that. Where every
file operation and every command on the larger world gives the answer it gives on the view, and
changes the view in the same way, a whole run does so too: it ends alike, hands over the same
commands and shows the same things. -/

namespace FirmwareMatrix

variable {σ σ' α β : Type}

/-- On the view of a world, `m` answers and changes what `m'` answers and changes on the world. -/
def Mirrors (view : σ' → σ) (m' : StateM σ' α) (m : StateM σ α) : Prop :=
  ∀ w, m (view w) = ((m' w).1, view (m' w).2)

namespace Mirrors

variable {view : σ' → σ}

theorem pure (view : σ' → σ) (a : α) : Mirrors view (Pure.pure a) (Pure.pure a) := fun _ => rfl

theorem bind {m' : StateM σ' α} {m : StateM σ α} {f' : α → StateM σ' β} {f : α → StateM σ β}
    (h : Mirrors view m' m) (hf : ∀ a, Mirrors view (f' a) (f a)) :
    Mirrors view (m' >>= f') (m >>= f) := by
  intro w
  show f (m (view w)).1 (m (view w)).2 = _
  rw [h w]
  exact hf _ _

/-- Reading the world itself gives different answers, which may be used in the same way. -/
theorem get_bind {f' : σ' → StateM σ' β} {f : σ → StateM σ β}
    (hf : ∀ w, Mirrors view (f' w) (f (view w))) : Mirrors view (get >>= f') (get >>= f) :=
  fun w => hf w w

theorem trans {τ : Type} {view' : τ → σ'} {m'' : StateM τ α} {m' : StateM σ' α} {m : StateM σ α}
    (h : Mirrors view' m'' m') (h' : Mirrors view m' m) :
    Mirrors (fun w => view (view' w)) m'' m := by
  intro w
  rw [h' (view' w), h w]

theorem apply_eq {m' : StateM σ' α} {m : StateM σ α} (h : Mirrors view m' m) {w w' : σ'} {a : α}
    (hw : m' w = (a, w')) : m (view w) = (a, view w') := by
  rw [h w, hw]

end Mirrors

/-- The file operations of a larger world are those of its view. -/
structure FileSystem.Over (view : σ' → σ) (fs' : FileSystem σ') (fs : FileSystem σ) : Prop where
  readText p : Mirrors view (fs'.readText p) (fs.readText p)
  write p bytes : Mirrors view (fs'.write p bytes) (fs.write p bytes)
  isPresent p : Mirrors view (fs'.isPresent p) (fs.isPresent p)
  isFile p : Mirrors view (fs'.isFile p) (fs.isFile p)
  isDirectory p : Mirrors view (fs'.isDirectory p) (fs.isDirectory p)
  canonicalize p : Mirrors view (fs'.canonicalize p) (fs.canonicalize p)
  createDirectories p : Mirrors view (fs'.createDirectories p) (fs.createDirectories p)
  copy source dest : Mirrors view (fs'.copy source dest) (fs.copy source dest)
  removeFile p : Mirrors view (fs'.removeFile p) (fs.removeFile p)
  readDirectory p : Mirrors view (fs'.readDirectory p) (fs.readDirectory p)

/-- The commands of a larger world are those of its view. -/
def Runner.Over (view : σ' → σ) (runner' : Runner σ') (runner : Runner σ) : Prop :=
  ∀ c, Mirrors (fun (w, screen) => (view w, screen)) (runner'.run c) (runner.run c)

namespace FileSystem.Over

variable {view : σ' → σ} {fs' : FileSystem σ'} {fs : FileSystem σ}

theorem refl (fs : FileSystem σ) : Over id fs fs := by
  constructor <;> intros <;> exact fun _ => rfl

theorem trans {τ : Type} {view' : τ → σ'} {fs'' : FileSystem τ} (h : Over view' fs'' fs')
    (h' : Over view fs' fs) : Over (fun w => view (view' w)) fs'' fs where
  readText p := (h.readText p).trans (h'.readText p)
  write p bytes := (h.write p bytes).trans (h'.write p bytes)
  isPresent p := (h.isPresent p).trans (h'.isPresent p)
  isFile p := (h.isFile p).trans (h'.isFile p)
  isDirectory p := (h.isDirectory p).trans (h'.isDirectory p)
  canonicalize p := (h.canonicalize p).trans (h'.canonicalize p)
  createDirectories p := (h.createDirectories p).trans (h'.createDirectories p)
  copy source dest := (h.copy source dest).trans (h'.copy source dest)
  removeFile p := (h.removeFile p).trans (h'.removeFile p)
  readDirectory p := (h.readDirectory p).trans (h'.readDirectory p)

/-! ## Handling outputs and looking at the workspace -/

theorem clearEach (h : Over view fs' fs) (dir : Path) (as : List Artifact) :
    Mirrors view (ArtifactSet.clearEach fs' dir as) (ArtifactSet.clearEach fs dir as) := by
  induction as with
  | nil => exact .pure view _
  | cons a as ih =>
    refine (h.isFile _).bind fun found => ?_
    cases found with
    | false => exact ih
    | true =>
      refine (h.removeFile _).bind fun removed => ?_
      cases removed with
      | ok _ => exact ih
      | error f => exact .pure view _

theorem firstMissing? (h : Over view fs' fs) (dir : Path) (as : List Artifact) :
    Mirrors view (ArtifactSet.firstMissing? fs' dir as)
      (ArtifactSet.firstMissing? fs dir as) := by
  induction as with
  | nil => exact .pure view _
  | cons a as ih =>
    refine (h.isFile _).bind fun found => ?_
    cases found with
    | false => exact .pure view _
    | true => exact ih

theorem deliverEach (h : Over view fs' fs) (dir dest : Path) (as : List Artifact) :
    Mirrors view (ArtifactSet.deliverEach fs' dir dest as)
      (ArtifactSet.deliverEach fs dir dest as) := by
  induction as with
  | nil => exact .pure view _
  | cons a as ih =>
    refine (h.copy _ _).bind fun copied => ?_
    cases copied with
    | error f => exact .pure view _
    | ok _ =>
      refine ih.bind fun rest => ?_
      cases rest <;> exact .pure view _

theorem clear (h : Over view fs' fs) (dir : Path) (set : ArtifactSet) :
    Mirrors view (set.clear fs' dir) (set.clear fs dir) :=
  h.clearEach dir set.toList

theorem missing? (h : Over view fs' fs) (dir : Path) (set : ArtifactSet) :
    Mirrors view (set.missing? fs' dir) (set.missing? fs dir) :=
  h.firstMissing? dir set.toList

theorem deliver (h : Over view fs' fs) (dir dest : Path) (set : ArtifactSet) :
    Mirrors view (set.deliver fs' dir dest) (set.deliver fs dir dest) := by
  refine (h.createDirectories dest).bind fun made => ?_
  cases made with
  | error f => exact .pure view _
  | ok _ => exact h.deliverEach dir dest set.toList

theorem refresh (h : Over view fs' fs) (ws : Workspace) (marker : String) :
    Mirrors view (ws.refresh fs' marker) (ws.refresh fs marker) :=
  (h.isPresent _).bind fun _ => .pure view _

theorem probe (h : Over view fs' fs) (directory : Path) (marker : String) :
    Mirrors view (Workspace.probe fs' directory marker) (Workspace.probe fs directory marker) := by
  refine (h.isPresent _).bind fun present => ?_
  cases present with
  | false => exact .pure view _
  | true =>
    refine (h.readText _).bind fun text => ?_
    cases text <;> exact .pure view _

end FileSystem.Over

/-! ## Sessions -/

/-- A session seen by a view of its world. -/
def Session.viewed (view : σ' → σ) (s : Session σ') : Session σ :=
  ⟨view s.world, s.workspace, s.outcomes, s.issued, s.screen⟩

namespace Matrix

variable {view : σ' → σ} {fs' : FileSystem σ'} {fs : FileSystem σ} {runner' : Runner σ'}
  {runner : Runner σ}

theorem onWorld_mirrors {m' : StateM σ' α} {m : StateM σ α} (h : Mirrors view m' m) :
    Mirrors (Session.viewed view) (onWorld m') (onWorld m) := by
  intro s
  simp only [onWorld, Session.viewed, h s.world]
  rfl

theorem onScreen_mirrors (f : Screen → Screen) :
    Mirrors (Session.viewed view) (onScreen f) (onScreen f) :=
  fun _ => rfl

theorem runCommand_mirrors (h : Runner.Over view runner' runner) (c : Command) :
    Mirrors (Session.viewed view) (runCommand runner' c) (runCommand runner c) := by
  have issued : Mirrors (Session.viewed view) (issue runner' c) (issue runner c) := by
    intro s
    simp only [issue, Session.viewed, h c (s.world, s.screen)]
    rfl
  refine issued.bind fun ending => ?_
  cases ending with
  | failed f =>
    exact (onScreen_mirrors _).bind fun _ => (onScreen_mirrors _).bind fun _ => .pure _ _
  | exited n => exact .pure _ _
  | pending => exact .pure _ _

theorem collectOutputs_mirrors (h : FileSystem.Over view fs' fs) (layout : Layout)
    (index total : Nat) (b : Board) :
    Mirrors (Session.viewed view) (collectOutputs fs' layout index total b)
      (collectOutputs fs layout index total b) := by
  refine (onWorld_mirrors (h.missing? _ _)).bind fun missing => ?_
  cases missing with
  | some file => exact (onScreen_mirrors _).bind fun _ => .pure _ _
  | none =>
    refine (onScreen_mirrors _).bind fun _ => ?_
    refine (onWorld_mirrors (h.deliver _ _ _)).bind fun delivered => ?_
    cases delivered <;> exact (onScreen_mirrors _).bind fun _ => .pure _ _

theorem buildAndCollect_mirrors (h : FileSystem.Over view fs' fs)
    (hr : Runner.Over view runner' runner) (layout : Layout) (index total : Nat) (b : Board)
    (build : Command) :
    Mirrors (Session.viewed view) (buildAndCollect fs' runner' layout index total b build)
      (buildAndCollect fs runner layout index total b build) := by
  refine (onWorld_mirrors (h.clear _ _)).bind fun cleared => ?_
  cases cleared with
  | error f => exact (onScreen_mirrors _).bind fun _ => .pure _ _
  | ok _ =>
    refine (onScreen_mirrors _).bind fun _ => (onScreen_mirrors _).bind fun _ => ?_
    refine (runCommand_mirrors hr build).bind fun code => ?_
    cases code with
    | none => exact .pure _ _
    | some n =>
      by_cases hn : n = 0
      · simp only [if_pos hn]
        exact (collectOutputs_mirrors h layout index total b).bind fun _ => .pure _ _
      · simp only [if_neg hn]
        exact .pure _ _

theorem configure_mirrors (hr : Runner.Over view runner' runner) (index total : Nat) (b : Board)
    (step : Option Command) :
    Mirrors (Session.viewed view) (configure runner' index total b step)
      (configure runner index total b step) := by
  cases step with
  | none => exact (onScreen_mirrors _).bind fun _ => .pure _ _
  | some c =>
    exact (onScreen_mirrors _).bind fun _ =>
      (onScreen_mirrors _).bind fun _ => runCommand_mirrors hr c

theorem buildBoard_mirrors (h : FileSystem.Over view fs' fs)
    (hr : Runner.Over view runner' runner) (layout : Layout) (index total : Nat) (b : Board) :
    Mirrors (Session.viewed view) (buildBoard fs' runner' layout index total b)
      (buildBoard fs runner layout index total b) := by
  refine (onScreen_mirrors _).bind fun _ => .get_bind fun s => ?_
  refine (onWorld_mirrors (h.refresh s.workspace layout.marker)).bind fun ws => ?_
  have kept : Mirrors (Session.viewed view) (modify fun s : Session σ' => { s with workspace := ws })
      (modify fun s : Session σ => { s with workspace := ws }) := fun _ => rfl
  refine kept.bind fun _ => (configure_mirrors hr index total b _).bind fun code => ?_
  cases code with
  | none => exact .pure _ _
  | some n =>
    by_cases hn : n = 0
    · simp only [if_pos hn]
      exact buildAndCollect_mirrors h hr layout index total b _
    · simp only [if_neg hn]
      exact .pure _ _

theorem record_mirrors (b : Board) (r : BoardResult) :
    Mirrors (Session.viewed view) (record b r) (record b r) :=
  fun _ => rfl

theorem runFrom_mirrors (h : FileSystem.Over view fs' fs) (hr : Runner.Over view runner' runner)
    (layout : Layout) (total index : Nat) (boards : List Board) :
    Mirrors (Session.viewed view) (runFrom fs' runner' layout total index boards)
      (runFrom fs runner layout total index boards) := by
  induction boards generalizing index with
  | nil => exact .pure _ _
  | cons b boards ih =>
    refine (buildBoard_mirrors h hr layout index total b).bind fun result => ?_
    cases result with
    | none => exact .pure _ _
    | some r => exact (record_mirrors b r).bind fun _ => ih (index + 1)

theorem begin_mirrors (h : FileSystem.Over view fs' fs) (layout : Layout) (screen : Screen)
    (w : σ') : begin fs layout screen (view w) = (begin fs' layout screen w).viewed view := by
  simp only [begin, h.probe layout.buildDir layout.marker w]
  rfl

theorem summarize_mirrors (h : FileSystem.Over view fs' fs) (layout : Layout) (total : Nat)
    (interrupted : Bool) :
    Mirrors (Session.viewed view) (summarize fs' layout total interrupted)
      (summarize fs layout total interrupted) :=
  (onWorld_mirrors (h.canonicalize _)).bind fun _ => .get_bind fun _ => .pure _ _

/-- What a larger world holds besides its view makes no difference to a run. -/
theorem run_mirrors (h : FileSystem.Over view fs' fs) (hr : Runner.Over view runner' runner)
    (layout : Layout) (boards : List Board) :
    Mirrors (Session.viewed view) (run fs' runner' layout boards)
      (run fs runner layout boards) := by
  refine (runFrom_mirrors h hr layout _ 1 boards).bind fun fin => ?_
  cases fin with
  | false => exact .pure _ _
  | true => exact (summarize_mirrors h layout _ false).bind fun _ => .pure _ _

theorem runUntilInterrupted_mirrors (h : FileSystem.Over view fs' fs)
    (hr : Runner.Over view runner' runner) (layout : Layout) (patience : Nat)
    (boards : List Board) :
    Mirrors (Session.viewed view) (runUntilInterrupted fs' runner' layout patience boards)
      (runUntilInterrupted fs runner layout patience boards) := by
  refine (run_mirrors h hr layout boards).bind fun finished => ?_
  cases finished with
  | some summary => exact (onScreen_mirrors _).bind fun _ => .pure _ _
  | none =>
    exact (onScreen_mirrors _).bind fun _ => (onScreen_mirrors _).bind fun _ =>
      (onScreen_mirrors _).bind fun _ => .pure _ _

theorem runToSummary_mirrors (h : FileSystem.Over view fs' fs)
    (hr : Runner.Over view runner' runner) (layout : Layout) (patience : Nat)
    (boards : List Board) :
    Mirrors (Session.viewed view) (runToSummary fs' runner' layout patience boards)
      (runToSummary fs runner layout patience boards) := by
  refine (runUntilInterrupted_mirrors h hr layout patience boards).bind fun finished => ?_
  cases finished with
  | some summary => exact .pure _ _
  | none => exact (summarize_mirrors h _ _ _).bind fun _ => .pure _ _

end Matrix

end FirmwareMatrix
