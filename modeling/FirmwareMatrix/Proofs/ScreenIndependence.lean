import FirmwareMatrix.Proofs.Scripted
import FirmwareMatrix.Proofs.Turns

/-! # What is shown decides nothing

A run prints progress lines and changes the text of the status bar at every step, and nothing it
does next looks at what came of that. Two sessions that differ in their screens alone (colour or
none, a sink that fails from some byte on or at every flush, a bar that is drawn, refused or not
there) hand over the same commands and end with the same outcomes, world and summary. -/

namespace FirmwareMatrix

variable {σ α β : Type}

/-- Sessions that differ at most in their screens, and in what these showed at a command. -/
structure Session.Alike (s s' : Session σ) : Prop where
  world : s'.world = s.world
  workspace : s'.workspace = s.workspace
  outcomes : s'.outcomes = s.outcomes
  commands : s'.issued.map Issued.command = s.issued.map Issued.command

namespace Matrix

/-- From sessions that are alike both actions return the same and leave sessions that are alike. -/
def Agree (m m' : StateM (Session σ) α) : Prop :=
  ∀ s s', s.Alike s' → (m' s').1 = (m s).1 ∧ (m s).2.Alike (m' s').2

namespace Agree

theorem pure (a : α) : Agree (σ := σ) (Pure.pure a) (Pure.pure a) := fun _ _ h => ⟨rfl, h⟩

theorem bind {m m' : StateM (Session σ) α} {f f' : α → StateM (Session σ) β} (h : Agree m m')
    (hf : ∀ a, Agree (f a) (f' a)) : Agree (m >>= f) (m' >>= f') := by
  intro s s' hs
  obtain ⟨ha, hs₁⟩ := h s s' hs
  have hrest := hf (m s).1 _ _ hs₁
  simp only [StateM.bind_apply, ha]
  exact hrest

/-- Whatever is shown, and whether or not the same is. -/
theorem onScreen (f f' : Screen → Screen) :
    Agree (σ := σ) (Matrix.onScreen f) (Matrix.onScreen f') :=
  fun _ _ h => ⟨rfl, h.world, h.workspace, h.outcomes, h.commands⟩

theorem onWorld (m : StateM σ α) : Agree (Matrix.onWorld m) (Matrix.onWorld m) := by
  intro s s' h
  simp only [Matrix.onWorld, h.world]
  exact ⟨rfl, rfl, h.workspace, h.outcomes, h.commands⟩

end Agree

variable (fs : FileSystem σ) {runner : Runner σ} (hdet : runner.Determined) (layout : Layout)

theorem summarize_agree (total : Nat) (interrupted : Bool) :
    Agree (summarize fs layout total interrupted) (summarize fs layout total interrupted) := by
  refine .bind (.onWorld _) fun resolved s s' h => ⟨?_, h⟩
  exact congrArg (fun outcomes => Summary.mk outcomes total _ interrupted) h.outcomes

include hdet

/-- The turns of sessions that are alike are the same. -/
theorem runFrom_agree (total index : Nat) (boards : List Board) :
    Agree (runFrom fs runner layout total index boards)
      (runFrom fs runner layout total index boards) := by
  intro s s' h
  obtain ⟨cs, outs, hturns, houts, hissued⟩ :=
    runFrom_turns (Prod.eta (runFrom fs runner layout total index boards s)).symm
  obtain ⟨cs', outs', hturns', houts', hissued'⟩ :=
    runFrom_turns (Prod.eta (runFrom fs runner layout total index boards s')).symm
  rw [h.workspace, h.world] at hturns'
  obtain ⟨rfl, rfl, hfin, hws, hworld⟩ := hturns.unique hdet hturns'
  refine ⟨hfin.symm, hworld.symm, hws.symm, ?_, ?_⟩
  · rw [houts', houts, h.outcomes]
  · rw [hissued', hissued, h.commands]

theorem run_agree (boards : List Board) :
    Agree (run fs runner layout boards) (run fs runner layout boards) := by
  refine .bind (runFrom_agree fs hdet layout _ _ _) fun finished => ?_
  cases finished with
  | true => exact .bind (summarize_agree fs layout _ _) fun _ => .pure _
  | false => exact .pure _

/-- An interrupted run is summed up alike too, however long it was waited for. -/
theorem runToSummary_agree (patience patience' : Nat) (boards : List Board) :
    Agree (runToSummary fs runner layout patience boards)
      (runToSummary fs runner layout patience' boards) := by
  refine .bind (.bind (run_agree fs hdet layout boards) fun finished => ?_) fun finished => ?_
  · cases finished with
    | none =>
      exact .bind (.onScreen _ _) fun _ => .bind (.onScreen _ _) fun _ =>
        .bind (.onScreen _ _) fun _ => .pure _
    | some summary => exact .bind (.onScreen _ _) fun _ => .pure _
  · cases finished with
    | none => exact .bind (summarize_agree fs layout _ _) fun _ => .pure _
    | some summary => exact .pure _

omit hdet in
/-- With a scripted tool, no choice of a screen makes a difference to what is built: the commands,
the outcomes, the tree, the workspace and the summary, which the exit code is read off, are the
same, whether the run finishes or is interrupted in a command that hangs. -/
theorem shown_never_matters (tool : ScriptedTool) (boards : List Board) (s : Session Tree)
    (screen : Screen) (patience patience' : Nat) :
    let s' := { s with screen }
    let ended := run Tree.fileSystem tool.tool layout boards s
    let ended' := run Tree.fileSystem tool.tool layout boards s'
    let closed := runToSummary Tree.fileSystem tool.tool layout patience boards s
    let closed' := runToSummary Tree.fileSystem tool.tool layout patience' boards s'
    ended'.1 = ended.1 ∧ ended.2.Alike ended'.2 ∧
      closed'.1 = closed.1 ∧ closed'.1.2.status.exitCode = closed.1.2.status.exitCode ∧
      closed.2.Alike closed'.2 := by
  intro s' ended ended' closed closed'
  have halike : s.Alike s' := ⟨rfl, rfl, rfl, rfl⟩
  obtain ⟨hsummary, hended⟩ := run_agree Tree.fileSystem tool.determined layout boards s s' halike
  obtain ⟨hresult, hclosed⟩ := runToSummary_agree Tree.fileSystem tool.determined layout patience
    patience' boards s s' halike
  exact ⟨hsummary, hended, hresult, congrArg (·.2.status.exitCode) hresult, hclosed⟩

end Matrix

end FirmwareMatrix
