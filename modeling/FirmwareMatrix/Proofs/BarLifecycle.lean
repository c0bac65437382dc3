import FirmwareMatrix.Proofs.BarEvents

/-! # The life of a status bar

A bar that is started asks for its row, is then drawn and nothing else, and gives the row back once
when it is stopped or dropped. The ticker and whoever holds the bar may act at any point, also
after the end was called for and before the ticker has come to its end; from the call on they draw
nothing. A bar that shows nothing, or that got no row, asks for nothing more. -/

namespace FirmwareMatrix

namespace Screen

/-! ## Ending in steps -/

/-- The ticker comes round once: the next frame, drawn if the bar still is. -/
def fire (s : Screen) : Screen := redraw { s with bar := { s.bar with frame := s.bar.frame + 1 } }

/-- The end is called for. -/
def silence (s : Screen) : Screen := { s with bar := { s.bar with active := false } }

/-- The row is given back; one that cannot be given back is reported if `reports` says so. -/
def giveBack (reports : Bool) (s : Screen) : Screen :=
  match s.request .restore with
  | (some f, s) =>
    if reports then
      s.report ⟨.warn, "failed to restore terminal scroll region", [("error", f.message)]⟩
    else s
  | (none, s) => s

/-- What can be done at any time: the ticker comes round, and a text is set or a drawing asked for
by anyone who holds the bar. -/
inductive Touch where
  | setText (text : String)
  | redraw
  | tick

def Touch.on : Touch → Screen → Screen
  | setText text, s => s.setText text
  | redraw, s => s.redraw
  | tick, s => s.fire

/-- Ends the bar, with `meanwhile` being done after the end was called for and before the row is
given back. -/
def endBar (meanwhile : List Touch) (reports : Bool) (s : Screen) : Screen :=
  if s.bar.active then (meanwhile.foldl (fun s touch => touch.on s) s.silence).giveBack reports
  else s

theorem tick_eq_fire {s : Screen} (h : s.bar.active = true) : s.tick = s.fire := if_pos h

theorem ticks_silence (n : Nat) (s : Screen) :
    (List.replicate n Touch.tick).foldl (fun s touch => touch.on s) s.silence =
      { s with bar := { s.bar with active := false, frame := s.bar.frame + n } } := by
  induction n generalizing s with
  | zero => rfl
  | succ n ih =>
    have hfire : s.silence.fire =
        silence { s with bar := { s.bar with frame := s.bar.frame + 1 } } := rfl
    rw [List.replicate_succ, List.foldl_cons, Touch.on, hfire, ih]
    simp only [Nat.add_assoc, Nat.add_comm 1 n]

/-- Ticks that come late are ticks like any other. -/
theorem finishBar_eq_endBar (late : Nat) (reports : Bool) (s : Screen) :
    s.finishBar late reports = s.endBar (List.replicate late .tick) reports := by
  unfold finishBar endBar
  split
  · rw [ticks_silence]
    rfl
  · rfl

/-! ## Single steps -/

variable {s : Screen}

theorem Lasting.touch {R : Screen → Screen → Prop} (h : Lasting R) (touch : Touch) (s : Screen) :
    R s (touch.on s) := by
  cases touch with
  | setText text => exact h.setText text s
  | redraw => exact h.redraw s
  | tick => exact h.trans (h.setFrame _ s) (h.redraw _)

theorem Lasting.touches {R : Screen → Screen → Prop} (h : Lasting R) (touches : List Touch)
    (s : Screen) : R s (touches.foldl (fun s touch => touch.on s) s) := by
  induction touches generalizing s with
  | nil => exact h.refl s
  | cons first rest ih => exact h.trans (h.touch first s) (ih _)

/-- Nothing is drawn on a bar that is not active. -/
theorem Touch.calm (touch : Touch) (h : s.bar.active = false) : Calm s (touch.on s) := by
  cases touch with
  | setText text => exact calm_setText text s
  | redraw =>
    show Calm s (if s.bar.active then _ else s)
    rw [h]
    exact .refl s
  | tick =>
    show Calm s (if s.bar.active then _ else _)
    rw [h]
    exact ⟨rfl, rfl⟩

theorem calm_touches (touches : List Touch) (h : s.bar.active = false) :
    Calm s (touches.foldl (fun s touch => touch.on s) s) := by
  induction touches generalizing s with
  | nil => exact .refl s
  | cons touch touches ih =>
    have first := touch.calm h
    exact first.trans (ih (first.active.trans h))

theorem giveBack_bar (reports : Bool) (s : Screen) : (s.giveBack reports).bar = s.bar := by
  have hbar := request_bar_of_ne (e := .restore) (by simp) s
  unfold giveBack
  cases hr : s.request .restore with
  | mk fault s₁ =>
    rw [hr] at hbar
    cases fault with
    | none => exact hbar
    | some f =>
      dsimp only
      split <;> exact hbar

theorem giveBack_barEvents (reports : Bool) (s : Screen) :
    (s.giveBack reports).bar.active = s.bar.active ∧
      (s.giveBack reports).barEvents = s.barEvents ++ [.restore] := by
  have hactive := request_active .restore s
  have hevents := request_barEvents .restore s
  unfold giveBack
  cases hr : s.request .restore with
  | mk fault s₁ =>
    rw [hr] at hactive hevents
    cases fault with
    | none => exact ⟨hactive, hevents⟩
    | some f =>
      dsimp only
      split <;> exact ⟨hactive, hevents⟩

theorem endBar_active (meanwhile : List Touch) (reports : Bool) (h : s.bar.active = true) :
    (s.endBar meanwhile reports).bar.active = false ∧
      (s.endBar meanwhile reports).barEvents = s.barEvents ++ [.restore] := by
  have quiet := calm_touches (s := s.silence) meanwhile rfl
  obtain ⟨hactive, hevents⟩ :=
    giveBack_barEvents reports (meanwhile.foldl (fun s touch => touch.on s) s.silence)
  rw [endBar, if_pos h]
  exact ⟨hactive.trans quiet.active, by rw [hevents, quiet.barEvents]; rfl⟩

theorem endBar_inactive (meanwhile : List Touch) (reports : Bool) (h : s.bar.active = false) :
    s.endBar meanwhile reports = s := by
  simp [endBar, h]

/-- A bar that is stopped gives its row back, whether or not that works. -/
theorem stopBar_active (h : s.bar.active = true) :
    s.stopBar.bar.active = false ∧ s.stopBar.barEvents = s.barEvents ++ [.restore] := by
  rw [stopBar, finishBar_eq_endBar]
  exact endBar_active [] true h

theorem stopBar_inactive (h : s.bar.active = false) : s.stopBar = s := by
  rw [stopBar, finishBar_eq_endBar]
  exact endBar_inactive [] true h

end Screen

/-! ## Whole lives -/

/-- What happens to a bar after it was started. -/
inductive BarAction where
  | touched (touch : Screen.Touch)
  /-- Time passes, with the ticks that fall into it. -/
  | waited (ms : Nat)
  | stopped (meanwhile : List Screen.Touch)
  | dropped (meanwhile : List Screen.Touch)

namespace BarAction

open Screen

def act : Screen → BarAction → Screen
  | s, touched touch => touch.on s
  | s, waited ms => s.wait ms
  | s, stopped meanwhile => s.endBar meanwhile true
  | s, dropped meanwhile => s.endBar meanwhile false

def isEnd : BarAction → Bool
  | stopped _ | dropped _ => true
  | _ => false

variable {s : Screen}

theorem act_lasting {R : Screen → Screen → Prop} (h : Lasting R) {a : BarAction}
    (ha : a.isEnd = false) (s : Screen) : R s (act s a) := by
  cases a with
  | touched touch => exact h.touch touch s
  | waited ms => exact h.wait ms s
  | stopped | dropped => cases ha

theorem act_end {a : BarAction} (ha : a.isEnd = true) (h : s.bar.active = true) :
    (act s a).bar.active = false ∧ (act s a).barEvents = s.barEvents ++ [.restore] := by
  cases a with
  | touched | waited => cases ha
  | stopped meanwhile | dropped meanwhile => exact endBar_active meanwhile _ h

/-- Ending a bar that is not active changes nothing at all. -/
theorem act_end_inactive {a : BarAction} (ha : a.isEnd = true) (h : s.bar.active = false) :
    act s a = s := by
  cases a with
  | touched | waited => cases ha
  | stopped meanwhile | dropped meanwhile => exact endBar_inactive meanwhile _ h

theorem calm_act (a : BarAction) (h : s.bar.active = false) : Calm s (act s a) := by
  cases a with
  | touched touch => exact touch.calm h
  | waited ms =>
    show Calm s (if s.bar.active then _ else s)
    rw [h]
    exact .refl s
  | stopped meanwhile | dropped meanwhile =>
    show Calm s (s.endBar _ _)
    rw [endBar_inactive meanwhile _ h]
    exact .refl s

theorem calm_acts (as : List BarAction) (h : s.bar.active = false) :
    Calm s (as.foldl act s) := by
  induction as generalizing s with
  | nil => exact .refl s
  | cons a as ih =>
    have first := calm_act a h
    exact first.trans (ih (first.active.trans h))

/-- An active bar is drawn until its first end, gives the row back there and is left alone. -/
theorem acts_active (as : List BarAction) (h : s.bar.active = true) :
    (as.foldl act s).bar.active = !as.any isEnd ∧
      ∃ draws, (∀ e ∈ draws, ∃ text frame, e = BarEvent.draw text frame) ∧
        (as.foldl act s).barEvents =
          s.barEvents ++ (draws ++ if as.any isEnd then [.restore] else []) := by
  induction as generalizing s with
  | nil => exact ⟨h, [], by simp, by simp⟩
  | cons a as ih =>
    rw [List.foldl_cons, List.any_cons]
    cases ha : a.isEnd with
    | false =>
      have first := act_lasting draws_lasting ha s
      obtain ⟨draws, hevents, hdraws⟩ := first.barEvents
      obtain ⟨hactive, draws', hdraws', hevents'⟩ := ih (first.active.trans h)
      refine ⟨hactive, draws ++ draws', List.forall_mem_append.mpr ⟨hdraws, hdraws'⟩, ?_⟩
      rw [hevents', hevents, Bool.false_or, List.append_assoc, List.append_assoc]
    | true =>
      obtain ⟨hactive, hevents⟩ := act_end ha h
      have rest := calm_acts as hactive
      exact ⟨rest.active.trans hactive, [], by simp, rest.barEvents.trans hevents⟩

/-- What happens to a bar, active or not, that is then acted on. -/
theorem acts_bar (as : List BarAction) (s : Screen) :
    (as.foldl act s).bar.active = (s.bar.active && !as.any isEnd) ∧
      ∃ draws, (∀ e ∈ draws, ∃ text frame, e = BarEvent.draw text frame) ∧
        (as.foldl act s).barEvents = s.barEvents ++
          if s.bar.active then draws ++ if as.any isEnd then [.restore] else [] else [] := by
  cases h : s.bar.active with
  | true => exact acts_active as h
  | false =>
    have rest := calm_acts as h
    exact ⟨rest.active.trans h, [], by simp, by rw [rest.barEvents]; simp⟩

end BarAction

/-- Whatever happens to a bar: it asks for nothing where nothing can be shown, for its row alone
where that is refused, and otherwise for its row, for drawings, and for the row to be given back
once if it was stopped or dropped, with nothing after that. It is active exactly if it got its row
and was neither stopped nor dropped, and ending it again changes nothing. -/
theorem Screen.bar_lifecycle (backend : Backend) (s : Screen) (as : List BarAction) :
    let ended := as.foldl BarAction.act (s.startBar backend)
    let reserved := (backend.perform .reserve).toBool
    (∃ draws, (∀ e ∈ draws, ∃ text frame, e = BarEvent.draw text frame) ∧
      ended.barEvents = s.barEvents ++
        (if backend.isInteractive = false then []
        else if reserved = false then [.reserve]
        else .reserve :: (draws ++ if as.any BarAction.isEnd then [.restore] else []))) ∧
    ended.bar.active = (backend.isInteractive && reserved && !as.any BarAction.isEnd) ∧
    (as.any BarAction.isEnd = true → ∀ a : BarAction, a.isEnd = true →
      BarAction.act ended a = ended) := by
  intro ended reserved
  obtain ⟨hstarted, hactive⟩ := startBar_barEvents backend s
  obtain ⟨hended, draws, hdraws, hlog⟩ := BarAction.acts_bar as (s.startBar backend)
  rw [hactive] at hended hlog
  refine ⟨⟨draws, hdraws, ?_⟩, hended, fun hany a hend => ?_⟩
  · rw [hlog, hstarted]
    cases backend.isInteractive with
    | false => simp
    | true => cases hr : (backend.perform .reserve).toBool <;> simp [reserved, hr]
  · refine BarAction.act_end_inactive hend ?_
    rw [hended, hany]
    simp

end FirmwareMatrix
