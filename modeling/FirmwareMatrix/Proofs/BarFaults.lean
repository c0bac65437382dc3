import FirmwareMatrix.Proofs.BarLifecycle

/-! # Faults of a status bar

A backend may refuse to draw or to give the row back, and may start or stop doing so at any time.
Nobody who holds the bar can tell: two bars that differ in their backends alone go through the same
states and ask for the same things. The one trace is a warning, when a bar is stopped while the row
cannot be given back. -/

namespace FirmwareMatrix

namespace Screen

/-- The bars differ in their backends at most, and asked for the same things. -/
structure Alike (s s' : Screen) : Prop where
  bar : ∃ backend, s'.bar = { s.bar with backend }
  barEvents : s'.barEvents = s.barEvents

/-- What can be seen of a bar: what its backend was asked for, its text, its activity and its
frame. -/
structure BarView where
  calls : List BarEvent
  text : String
  active : Bool
  frame : Nat

def view (s : Screen) : BarView := ⟨s.barEvents, s.bar.text, s.bar.active, s.bar.frame⟩

namespace Alike

variable {s s' : Screen}

theorem view (h : Alike s s') : s'.view = s.view := by
  obtain ⟨backend, hbar⟩ := h.bar
  rw [Screen.view, Screen.view, h.barEvents, hbar]

theorem active (h : Alike s s') : s'.bar.active = s.bar.active := by
  obtain ⟨backend, hbar⟩ := h.bar
  rw [hbar]

theorem setText (h : Alike s s') (text : String) : Alike (s.setText text) (s'.setText text) := by
  obtain ⟨backend, hbar⟩ := h.bar
  refine ⟨⟨backend, ?_⟩, h.barEvents⟩
  simp [Screen.setText, hbar]

theorem request (h : Alike s s') (e : BarEvent) : Alike (s.request e).2 (s'.request e).2 := by
  obtain ⟨backend, hbar⟩ := h.bar
  obtain ⟨backend₁, hbar₁⟩ := request_bar e s
  obtain ⟨backend₂, hbar₂⟩ := request_bar e s'
  refine ⟨⟨backend₂, ?_⟩, ?_⟩
  · rw [hbar₂, hbar₁, hbar]
  · rw [request_barEvents, request_barEvents, h.barEvents]

theorem redraw (h : Alike s s') : Alike s.redraw s'.redraw := by
  obtain ⟨backend, hbar⟩ := h.bar
  unfold Screen.redraw
  rw [h.active]
  split
  · have hsame : BarEvent.draw s'.bar.text s'.bar.frame = .draw s.bar.text s.bar.frame := by
      rw [hbar]
    rw [hsame]
    exact h.request _
  · exact h

theorem fire (h : Alike s s') : Alike s.fire s'.fire := by
  obtain ⟨backend, hbar⟩ := h.bar
  refine redraw ⟨⟨backend, ?_⟩, h.barEvents⟩
  simp [hbar]

theorem touch (h : Alike s s') (touch : Touch) : Alike (touch.on s) (touch.on s') := by
  cases touch with
  | setText text => exact h.setText text
  | redraw => exact h.redraw
  | tick => exact h.fire

theorem touches (h : Alike s s') (touches : List Touch) :
    Alike (touches.foldl (fun s touch => touch.on s) s)
      (touches.foldl (fun s touch => touch.on s) s') := by
  induction touches generalizing s s' with
  | nil => exact h
  | cons touch touches ih => exact ih (h.touch touch)

theorem ticks (h : Alike s s') (n : Nat) : Alike (ticks n s) (ticks n s') := by
  induction n generalizing s s' with
  | zero => exact h
  | succ n ih =>
    refine ih ?_
    unfold tick
    rw [h.active]
    split
    · exact h.fire
    · exact h

theorem wait (h : Alike s s') (ms : Nat) : Alike (s.wait ms) (s'.wait ms) := by
  obtain ⟨backend, hbar⟩ := h.bar
  unfold Screen.wait
  rw [h.active]
  split
  · have hclock : s'.bar.clock = s.bar.clock := by rw [hbar]
    have hlater : Alike { s with bar := { s.bar with clock := s.bar.clock + ms } }
        { s' with bar := { s'.bar with clock := s.bar.clock + ms } } :=
      ⟨⟨backend, by simp [hbar]⟩, h.barEvents⟩
    dsimp only
    rw [hclock]
    exact hlater.ticks _
  · exact h

theorem giveBack (h : Alike s s') (reports : Bool) :
    Alike (s.giveBack reports) (s'.giveBack reports) := by
  refine ⟨?_, ?_⟩
  · rw [giveBack_bar, giveBack_bar]
    exact h.bar
  · rw [(giveBack_barEvents reports s).2, (giveBack_barEvents reports s').2, h.barEvents]

theorem endBar (h : Alike s s') (meanwhile : List Touch) (reports : Bool) :
    Alike (s.endBar meanwhile reports) (s'.endBar meanwhile reports) := by
  obtain ⟨backend, hbar⟩ := h.bar
  unfold Screen.endBar
  rw [h.active]
  split
  · have hsilent : Alike s.silence s'.silence := ⟨⟨backend, by simp [silence, hbar]⟩, h.barEvents⟩
    exact (hsilent.touches meanwhile).giveBack reports
  · exact h

theorem act (h : Alike s s') (a : BarAction) : Alike (BarAction.act s a) (BarAction.act s' a) := by
  cases a with
  | touched touch => exact h.touch touch
  | waited ms => exact h.wait ms
  | stopped meanwhile | dropped meanwhile => exact h.endBar meanwhile _

end Alike

/-! ## What is reported -/

/-- Nothing was reported, and the backend is the same. -/
structure Unreported (s s' : Screen) : Prop where
  log : s'.log = s.log
  backend : s'.bar.backend = s.bar.backend

namespace Unreported

variable {s s' : Screen}

theorem trans {s₁ : Screen} (h : Unreported s s₁) (h' : Unreported s₁ s') : Unreported s s' :=
  ⟨h'.log.trans h.log, h'.backend.trans h.backend⟩

theorem redraw (s : Screen) : Unreported s s.redraw := by
  refine ⟨?_, congrArg StatusBar.backend (redraw_bar s)⟩
  unfold Screen.redraw
  split
  · exact request_log _ s
  · rfl

theorem lasting : Lasting Unreported where
  refl _ := ⟨rfl, rfl⟩
  trans := trans
  redraw := redraw
  setText _ _ := ⟨rfl, rfl⟩
  setFrame _ _ := ⟨rfl, rfl⟩
  setClock _ _ := ⟨rfl, rfl⟩

end Unreported

/-- What is reported of a row that cannot be given back. -/
def restoreWarning : LogEntry :=
  ⟨.warn, "failed to restore terminal scroll region", [("error", BarFault.refused.message)]⟩

/-- The bar is on a recorder that refuses these requests. -/
def OnRecorder (draw restore : Bool) (s : Screen) : Prop :=
  s.bar.backend = .recorder true false draw restore

theorem giveBack_log {draw restore : Bool} {s : Screen} (h : OnRecorder draw restore s)
    (reports : Bool) :
    (s.giveBack reports).log = s.log ++ if reports && restore then [restoreWarning] else [] := by
  have hmet : s.bar.backend.perform .restore =
      if restore then .error .refused else .ok ("", s.bar.backend) := by
    rw [h]
    rfl
  cases restore with
  | false =>
    simp only [giveBack, request, hmet]
    simp
  | true =>
    simp only [giveBack, request, hmet]
    cases reports <;> simp [report, restoreWarning]

theorem endBar_log {draw restore : Bool} {s : Screen} (h : OnRecorder draw restore s)
    (hactive : s.bar.active = true) (meanwhile : List Touch) (reports : Bool) :
    (s.endBar meanwhile reports).log =
      s.log ++ if reports && restore then [restoreWarning] else [] := by
  have hmeanwhile := Unreported.lasting.touches meanwhile s.silence
  have hrecorder : OnRecorder draw restore (meanwhile.foldl (fun s touch => touch.on s) s.silence) :=
    hmeanwhile.backend.trans h
  rw [endBar, if_pos hactive, giveBack_log hrecorder, hmeanwhile.log]
  rfl

end Screen

/-! ## Whole lives -/

/-- What happens to a bar, or to what its backend refuses. -/
inductive BarStep where
  | acted (a : BarAction)
  /-- From now on these requests are refused. -/
  | refuses (draw restore : Bool)

namespace BarStep

open Screen

def run : Screen → BarStep → Screen
  | s, acted a => a.act s
  | s, refuses draw restore =>
    { s with bar := { s.bar with backend := .recorder true false draw restore } }

def action? : BarStep → Option BarAction
  | acted a => some a
  | refuses _ _ => none

/-- The warning that some steps lead to: there is one if the first end is a stop and the row cannot
be given back there. -/
def warning? (refused : Bool) : List BarStep → Option LogEntry
  | [] => none
  | refuses _ restore :: steps => warning? restore steps
  | acted (.stopped _) :: _ => if refused then some restoreWarning else none
  | acted (.dropped _) :: _ => none
  | acted _ :: steps => warning? refused steps

variable {s s' : Screen}

theorem alike_run (steps : List BarStep) (h : Alike s' s) :
    Alike ((steps.filterMap action?).foldl BarAction.act s') (steps.foldl run s) := by
  induction steps generalizing s s' with
  | nil => exact h
  | cons step steps ih =>
    cases step with
    | acted a => exact ih (h.act a)
    | refuses draw restore =>
      obtain ⟨backend, hbar⟩ := h.bar
      refine ih ⟨⟨.recorder true false draw restore, ?_⟩, h.barEvents⟩
      simp [run, hbar]

/-- Nothing is reported of a bar that is not active. -/
theorem log_inactive (steps : List BarStep) (h : s.bar.active = false) :
    (steps.foldl run s).log = s.log := by
  induction steps generalizing s with
  | nil => rfl
  | cons step steps ih =>
    cases step with
    | refuses draw restore => exact ih h
    | acted a =>
      have hactive : (a.act s).bar.active = false := (BarAction.calm_act a h).active.trans h
      have hlog : (a.act s).log = s.log := by
        cases ha : a.isEnd with
        | true => rw [BarAction.act_end_inactive ha h]
        | false => exact (BarAction.act_lasting Unreported.lasting ha s).log
      exact (ih hactive).trans hlog

theorem log_active {draw restore : Bool} (steps : List BarStep) (h : OnRecorder draw restore s)
    (hactive : s.bar.active = true) :
    (steps.foldl run s).log = s.log ++ (warning? restore steps).toList := by
  induction steps generalizing s draw restore with
  | nil => exact (List.append_nil _).symm
  | cons step steps ih =>
    cases step with
    | refuses draw' restore' =>
      have hrecorder : OnRecorder draw' restore' (run s (.refuses draw' restore')) := rfl
      exact ih hrecorder hactive
    | acted a =>
      cases ha : a.isEnd with
      | true =>
        have hrest := log_inactive steps (BarAction.act_end ha hactive).1
        refine hrest.trans ?_
        cases a with
        | touched | waited => cases ha
        | stopped meanwhile =>
          refine (endBar_log h hactive meanwhile true).trans ?_
          cases restore <;> rfl
        | dropped meanwhile => exact endBar_log h hactive meanwhile false
      | false =>
        have hsame := BarAction.act_lasting Unreported.lasting ha s
        have hstill : (a.act s).bar.active = true :=
          (BarAction.act_lasting draws_lasting ha s).active.trans hactive
        have hwarning : warning? restore (.acted a :: steps) = warning? restore steps := by
          cases a with
          | touched | waited => rfl
          | stopped | dropped => cases ha
        rw [hwarning, ← hsame.log]
        exact ih (hsame.backend.trans h) hstill

/-- Where nothing is refused, nothing is reported. -/
theorem warning?_map_acted (as : List BarAction) : warning? false (as.map acted) = none := by
  induction as with
  | nil => rfl
  | cons a as ih =>
    cases a with
    | touched | waited => exact ih
    | stopped | dropped => rfl

end BarStep

/-- Whatever a backend that gave its row refuses later, after every step the bar looks as it would
had nothing been refused: what was asked for, the text, the activity and the frame are the same. The
one trace is a warning, when the bar is stopped, and not dropped, while the row cannot be given
back. -/
theorem Screen.bar_hides_faults (s : Screen) (draw restore : Bool) (steps : List BarStep) (n : Nat) :
    let past := steps.take n
    let faulty := past.foldl BarStep.run (s.startBar (.recorder true false draw restore))
    let sound := (past.filterMap BarStep.action?).foldl BarAction.act
      (s.startBar (.recorder true false false false))
    faulty.view = sound.view ∧
      faulty.log = sound.log ++ (BarStep.warning? restore past).toList := by
  intro past faulty sound
  have hstart : Alike (s.startBar (.recorder true false false false))
      (s.startBar (.recorder true false draw restore)) :=
    ⟨⟨.recorder true false draw restore, rfl⟩, rfl⟩
  have hrecorder : OnRecorder draw restore (s.startBar (.recorder true false draw restore)) := rfl
  have hfaulty : faulty.log = s.log ++ (BarStep.warning? restore past).toList :=
    BarStep.log_active past hrecorder rfl
  have hsound : sound.log = s.log := by
    have hrun : sound = ((past.filterMap BarStep.action?).map BarStep.acted).foldl BarStep.run
        (s.startBar (.recorder true false false false)) := by
      rw [List.foldl_map]
      rfl
    have hlog := BarStep.log_active (s := s.startBar (.recorder true false false false))
      ((past.filterMap BarStep.action?).map BarStep.acted) rfl rfl
    rw [hrun, hlog, BarStep.warning?_map_acted]
    exact List.append_nil _
  exact ⟨(BarStep.alike_run past hstart).view, by rw [hfaulty, hsound]⟩

end FirmwareMatrix
