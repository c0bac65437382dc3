import FirmwareMatrix.Proofs.Moments
import FirmwareMatrix.Proofs.Observed
import Mathlib.Data.List.Forall2

/-! # What the recorded steps of a run ask for

The steps that a run writes down account for all that it asks of its world: what a step is called
says what is asked in it. A command is handed over in a step of its own, and files are copied in the
steps that are called so and in no others. -/

namespace FirmwareMatrix

variable {σ α β : Type}

/-- What copying outputs asks, in order: the copy of each, up to one that fails. -/
inductive Copying (dir dest : Path) : List Artifact → List (Event σ) → Prop
  | done : Copying dir dest [] []
  | copied {a : Artifact} {as : List Artifact} {es : List (Event σ)}
    (rest : Copying dir dest as es) :
    Copying dir dest (a :: as) (.copy (dir.join a.source) (dest.child a.deliveredAs) (.ok ()) :: es)
  | failed (a : Artifact) (as : List Artifact) (f : Failure) :
    Copying dir dest (a :: as) [.copy (dir.join a.source) (dest.child a.deliveredAs) (.error f)]

/-- What delivering asks: for the directory, and if it can be made for the copies. -/
inductive Delivering (dir dest : Path) (as : List Artifact) : List (Event σ) → Prop
  | unmade (f : Failure) : Delivering dir dest as [.createDirectories dest (.error f)]
  | made {es : List (Event σ)} (copying : Copying dir dest as es) :
    Delivering dir dest as (.createDirectories dest (.ok ()) :: es)

/-- Whether a directory was to be made, a file to be copied or a command to be run. -/
def Event.isDeed : Event σ → Bool
  | createDirectories _ _ | copy _ _ _ | ran _ => true
  | _ => false

/-- What is asked of the world in a step. -/
def Deed.Asks (layout : Layout) : Deed → List (Event σ) → Prop
  | enter _ _ _, es => es = []
  | hand _ _ c, es => ∃ call : Call σ, call.command = c ∧ es = [.ran call]
  | copy _ b, es =>
    Delivering layout.buildDir (Matrix.destination layout b) layout.artifacts.toList es
  | other, es => ∀ e ∈ es, e.isDeed = false

section Adds

variable (fs : FileSystem σ) (dir dest : Path)

theorem deliverEach_asks (as : List Artifact) :
    Adds (fun _ es => Copying dir dest as es)
      (ArtifactSet.deliverEach fs.observed dir dest as) := by
  induction as with
  | nil => exact .pure .done
  | cons a as ih =>
    refine .bind (P := fun r es => es = [.copy (dir.join a.source) (dest.child a.deliveredAs) r])
      (.noting fun _ => rfl) fun copied es hes => ?_
    subst hes
    cases copied with
    | error f => exact .pure (.failed a as f)
    | ok u =>
      refine .bind ih fun rest es hes => ?_
      cases rest <;> exact .pure (by simpa using .copied hes)

theorem deliver_asks (set : ArtifactSet) :
    Adds (fun _ es => Delivering dir dest set.toList es) (set.deliver fs.observed dir dest) := by
  refine .bind (P := fun r es => es = [.createDirectories dest r]) (.noting fun _ => rfl)
    fun made es hes => ?_
  subst hes
  cases made with
  | error f => exact .pure (.unmade f)
  | ok u => exact (deliverEach_asks fs dir dest set.toList).mono fun _ _ => .made

end Adds

/-! ## Steps one after another -/

/-- The step asks for `es`, as its name says. -/
structure Taken.Tells (layout : Layout) (step : Taken (Observed σ)) (es : List (Event σ)) :
    Prop where
  events : step.left.events = step.found.events ++ es
  asks : step.moment.deed.Asks layout es

/-- All that `m` asks for it asks for in the steps that it writes down, as they tell. -/
def Accounts (layout : Layout) (m : StateM (Chronicle (Observed σ)) α) : Prop :=
  ∀ w, ∃ steps asked, (m w).2.steps = w.steps ++ steps ∧
    (m w).2.session.world.events = w.session.world.events ++ asked.flatten ∧
    List.Forall₂ (Taken.Tells layout) steps asked

namespace Accounts

variable {layout : Layout}

theorem pure (a : α) : Accounts layout (Pure.pure a : StateM (Chronicle (Observed σ)) α) :=
  fun _ => ⟨[], [], (List.append_nil _).symm, (List.append_nil _).symm, .nil⟩

theorem bind {m : StateM (Chronicle (Observed σ)) α} {f : α → StateM (Chronicle (Observed σ)) β}
    (h : Accounts layout m) (hf : ∀ a, Accounts layout (f a)) : Accounts layout (m >>= f) := by
  intro w
  obtain ⟨steps, asked, hsteps, hevents, htells⟩ := h w
  obtain ⟨steps', asked', hsteps', hevents', htells'⟩ := hf (m w).1 (m w).2
  refine ⟨steps ++ steps', asked ++ asked', ?_, ?_, List.rel_append htells htells'⟩
  · rw [← List.append_assoc, ← hsteps]
    exact hsteps'
  · rw [List.flatten_append, ← List.append_assoc, ← hevents]
    exact hevents'

theorem get_bind {f : Chronicle (Observed σ) → StateM (Chronicle (Observed σ)) α}
    (hf : ∀ w, Accounts layout (f w)) : Accounts layout (get >>= f) :=
  fun w => hf w w

/-- A single step. -/
theorem chronicled {deed : Deed} {m : StateM (Session (Observed σ)) α}
    (h : ∀ s, ∃ es, (m s).2.world.events = s.world.events ++ es ∧ deed.Asks layout es) :
    Accounts layout (FirmwareMatrix.chronicled deed m) := by
  intro w
  obtain ⟨es, hevents, hasks⟩ := h w.session
  refine ⟨[.between deed w.session (m w.session).2], [es], rfl, ?_, .cons ⟨hevents, hasks⟩ .nil⟩
  rw [List.flatten_singleton]
  exact hevents

theorem onWorld {deed : Deed} {m : StateM (Observed σ) α}
    (h : Adds (fun _ es => deed.Asks layout es) m) :
    Accounts layout (FirmwareMatrix.chronicled deed (Matrix.onWorld m)) :=
  chronicled fun s => h s.world

/-- A step that leaves the world alone. -/
theorem apart {m : StateM (Session (Observed σ)) α} (h : ∀ s, (m s).2.world = s.world) :
    Accounts layout (FirmwareMatrix.chronicled .other m) :=
  chronicled fun s => ⟨[], by rw [h, List.append_nil], by simp [Deed.Asks]⟩

theorem display (f : Screen → Screen) : Accounts (σ := σ) layout (Chronicle.display f) :=
  apart fun _ => rfl

end Accounts

/-! ## The steps of a run -/

namespace Chronicle

variable {fs : FileSystem σ} {runner : Runner σ} {layout : Layout} {index total : Nat} {b : Board}

theorem setPhase_accounts (p : StatusLine.Phase) :
    Accounts (σ := σ) layout (setPhase index total b p) :=
  .chronicled fun _ => ⟨[], (List.append_nil _).symm, rfl⟩

theorem runCommand_accounts (c : Command) :
    Accounts layout (runCommand runner.observed index b c) := by
  refine .bind (.chronicled fun s => ⟨[.ran _], rfl, _, rfl, rfl⟩) fun ending => ?_
  cases ending with
  | failed f => exact (Accounts.display _).bind fun _ => (Accounts.display _).bind fun _ => .pure _
  | exited n => exact .pure _
  | pending => exact .pure _

theorem collectOutputs_accounts :
    Accounts layout (collectOutputs fs.observed layout index total b) := by
  refine .bind (.onWorld (firstMissing?_addsOnly fs fun _ _ _ => rfl)) fun missing => ?_
  cases missing with
  | some file => exact (Accounts.display _).bind fun _ => .pure _
  | none =>
    refine (setPhase_accounts .copying).bind fun _ => ?_
    refine .bind (.onWorld (deliver_asks fs _ _ _)) fun delivered => ?_
    cases delivered <;> exact (Accounts.display _).bind fun _ => .pure _

theorem buildAndCollect_accounts (build : Command) :
    Accounts layout (buildAndCollect fs.observed runner.observed layout index total b build) := by
  refine .bind (.onWorld (clearEach_addsOnly fs (fun _ _ _ => rfl) fun _ _ _ => rfl))
    fun cleared => ?_
  cases cleared with
  | error f => exact (Accounts.display _).bind fun _ => .pure _
  | ok _ =>
    refine (setPhase_accounts .building).bind fun _ => (Accounts.display _).bind fun _ =>
      (runCommand_accounts build).bind fun code => ?_
    cases code with
    | none => exact .pure _
    | some n =>
      by_cases hn : n = 0
      · simp only [if_pos hn]
        exact collectOutputs_accounts.bind fun _ => .pure _
      · simp only [if_neg hn]
        exact .pure _

theorem configure_accounts (step : Option Command) :
    Accounts layout (configure runner.observed index total b step) := by
  cases step with
  | none => exact (Accounts.display _).bind fun _ => .pure _
  | some c =>
    exact (setPhase_accounts .targeting).bind fun _ => (Accounts.display _).bind fun _ =>
      runCommand_accounts c

theorem buildBoard_accounts :
    Accounts layout (buildBoard fs.observed runner.observed layout index total b) := by
  refine (Accounts.display _).bind fun _ => .get_bind fun w => ?_
  refine .bind (.onWorld (refresh_addsOnly fs fun _ => rfl)) fun ws =>
    (Accounts.apart fun _ => rfl).bind fun _ => ?_
  refine (configure_accounts _).bind fun code => ?_
  cases code with
  | none => exact .pure _
  | some n =>
    by_cases hn : n = 0
    · simp only [if_pos hn]
      exact buildAndCollect_accounts _
    · simp only [if_neg hn]
      exact .pure _

theorem runFrom_accounts (boards : List Board) :
    Accounts layout (runFrom fs.observed runner.observed layout total index boards) := by
  induction boards generalizing index with
  | nil => exact .pure _
  | cons b boards ih =>
    refine buildBoard_accounts.bind fun result => ?_
    cases result with
    | none => exact .pure _
    | some r => exact (Accounts.apart fun _ => rfl).bind fun _ => ih

theorem run_accounts (fs : FileSystem σ) (runner : Runner σ) (layout : Layout)
    (boards : List Board) :
    Accounts layout (run fs.observed runner.observed layout boards) := by
  refine (runFrom_accounts boards).bind fun fin => ?_
  cases fin with
  | false => exact .pure _
  | true =>
    refine .bind (.chronicled fun s => ?_) fun _ => .pure _
    exact ⟨[.canonicalize layout.outputDir _], rfl, List.forall_mem_singleton.mpr rfl⟩

end Chronicle

end FirmwareMatrix
