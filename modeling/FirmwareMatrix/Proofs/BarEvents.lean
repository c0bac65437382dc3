import FirmwareMatrix.Matrix
import FirmwareMatrix.Proofs.OutputSteps

/-! # What the status bar is asked for

Progress lines, diagnostics and texts ask nothing of the status bar; only starting, drawing and
stopping it do. So between its start and its stop a bar is drawn and nothing else, and a run with
commands that show nothing leaves it alone. -/

namespace FirmwareMatrix

namespace Screen

variable {s s' : Screen}

/-- The bar is as active as before and was asked for nothing. -/
structure Calm (s s' : Screen) : Prop where
  active : s'.bar.active = s.bar.active
  barEvents : s'.barEvents = s.barEvents

theorem Calm.refl (s : Screen) : Calm s s := ⟨rfl, rfl⟩

theorem Calm.trans {s₁ : Screen} (h : Calm s s₁) (h' : Calm s₁ s') : Calm s s' :=
  ⟨h'.active.trans h.active, h'.barEvents.trans h.barEvents⟩

theorem calm_write (bytes : List UInt8) (s : Screen) : Calm s (s.write bytes).2 :=
  ⟨rfl, by simp [barEvents, write, Mark.event?]⟩

theorem calm_flush (s : Screen) : Calm s s.flush.2 :=
  ⟨rfl, by simp [barEvents, flush, Mark.event?]⟩

theorem calm_report (entry : LogEntry) (s : Screen) : Calm s (s.report entry) := ⟨rfl, rfl⟩

theorem calm_setText (text : String) (s : Screen) : Calm s (s.setText text) := ⟨rfl, rfl⟩

/-! ## Requests -/

/-- Of the bar, a request changes the backend at most. -/
theorem request_bar (e : BarEvent) (s : Screen) :
    ∃ backend, (s.request e).2.bar = { s.bar with backend } := by
  unfold request
  dsimp only
  split
  · exact ⟨s.bar.backend, rfl⟩
  · next text backend _ =>
    refine ⟨backend, ?_⟩
    split <;> rfl

theorem request_active (e : BarEvent) (s : Screen) :
    (s.request e).2.bar.active = s.bar.active := by
  obtain ⟨backend, hbar⟩ := request_bar e s
  rw [hbar]

/-- A backend is changed by reserving the row alone. -/
theorem perform_ok {b b' : Backend} {e : BarEvent} {text : String} (he : e ≠ .reserve)
    (h : b.perform e = .ok (text, b')) : b' = b := by
  cases b with
  | recorder interactive refusesReserve refusesDraw refusesRestore =>
    simp only [Backend.perform] at h
    split at h
    · cases h
    · cases h
      rfl
  | terminal t =>
    cases e with
    | reserve => exact absurd rfl he
    | draw shown frame =>
      simp only [Backend.perform, Terminal.perform] at h
      split at h <;> cases h <;> rfl
    | restore =>
      simp only [Backend.perform, Terminal.perform] at h
      cases h
      rfl

theorem request_bar_of_ne {e : BarEvent} (he : e ≠ .reserve) (s : Screen) :
    (s.request e).2.bar = s.bar := by
  unfold request
  cases hmet : s.bar.backend.perform e with
  | error f => rfl
  | ok met =>
    obtain ⟨text, backend⟩ := met
    have hbackend := perform_ok he hmet
    subst hbackend
    dsimp only
    split <;> rfl

theorem request_barEvents (e : BarEvent) (s : Screen) :
    (s.request e).2.barEvents = s.barEvents ++ [e] := by
  have hmark : ({ s with marks := s.marks ++ [.bar e] } : Screen).barEvents =
      s.barEvents ++ [e] := by
    simp [barEvents, Mark.event?]
  unfold request
  dsimp only
  split
  · exact hmark
  · split
    · exact hmark
    · exact (calm_write _ _).barEvents.trans hmark

theorem request_log (e : BarEvent) (s : Screen) : (s.request e).2.log = s.log := by
  unfold request
  dsimp only
  split
  · rfl
  · split <;> rfl

/-- A row is asked for if anything can be shown, and the bar is active if it is given. -/
theorem startBar_barEvents (backend : Backend) (s : Screen) :
    (s.startBar backend).barEvents =
        s.barEvents ++ (if backend.isInteractive then [.reserve] else []) ∧
      (s.startBar backend).bar.active =
        (backend.isInteractive && (backend.perform .reserve).toBool) := by
  have hactive := request_active .reserve { s with bar := ⟨backend, "", 0, 0, false⟩ }
  have hevents := request_barEvents .reserve { s with bar := ⟨backend, "", 0, 0, false⟩ }
  have hfault : (request .reserve { s with bar := ⟨backend, "", 0, 0, false⟩ }).1.isNone =
      (backend.perform .reserve).toBool := by
    unfold request
    cases backend.perform .reserve with
    | error f => rfl
    | ok met =>
      dsimp only
      split <;> rfl
  unfold startBar
  cases backend.isInteractive with
  | false => exact ⟨(List.append_nil _).symm, rfl⟩
  | true =>
    cases hr : request .reserve { s with bar := ⟨backend, "", 0, 0, false⟩ } with
    | mk fault s₁ =>
      rw [hr] at hactive hevents hfault
      rw [← hfault]
      simp only [hr, if_true]
      cases fault with
      | none => exact ⟨hevents, rfl⟩
      | some f => exact ⟨hevents, hactive⟩

/-- A bar that was started asked for its row and for nothing else. -/
theorem startBar_active {backend : Backend} (h : (s.startBar backend).bar.active = true) :
    (s.startBar backend).barEvents = s.barEvents ++ [.reserve] := by
  obtain ⟨hevents, hactive⟩ := startBar_barEvents backend s
  rw [hevents, if_pos (Bool.and_eq_true_iff.mp (hactive.symm.trans h)).1]

/-! ## Drawing -/

/-- The bar is as active as before and was drawn some times. -/
structure Draws (s s' : Screen) : Prop where
  active : s'.bar.active = s.bar.active
  barEvents : ∃ draws, s'.barEvents = s.barEvents ++ draws ∧
    ∀ e ∈ draws, ∃ text frame, e = .draw text frame

theorem Calm.draws (h : Calm s s') : Draws s s' :=
  ⟨h.active, [], by rw [h.barEvents, List.append_nil], by simp⟩

theorem Draws.trans {s₁ : Screen} (h : Draws s s₁) (h' : Draws s₁ s') : Draws s s' := by
  obtain ⟨draws, hd, hall⟩ := h.barEvents
  obtain ⟨draws', hd', hall'⟩ := h'.barEvents
  refine ⟨h'.active.trans h.active, draws ++ draws', ?_, List.forall_mem_append.mpr ⟨hall, hall'⟩⟩
  rw [hd', hd, List.append_assoc]

theorem redraw_bar (s : Screen) : s.redraw.bar = s.bar := by
  unfold redraw
  split
  · exact request_bar_of_ne (by simp) s
  · rfl

theorem redraw_barEvents (h : s.bar.active = true) :
    s.redraw.barEvents = s.barEvents ++ [.draw s.bar.text s.bar.frame] := by
  rw [redraw, if_pos h]
  exact request_barEvents _ s

theorem draws_redraw (s : Screen) : Draws s s.redraw := by
  unfold redraw
  split
  · exact ⟨request_active _ s, _, request_barEvents _ s, by simp⟩
  · exact (Calm.refl s).draws

/-- A relation between a screen and what becomes of it, whatever is done to its bar that does not
end it: it suffices that it holds for one drawing and for setting each of the other fields. -/
structure Lasting (R : Screen → Screen → Prop) : Prop where
  refl : ∀ s, R s s
  trans : ∀ {s s₁ s'}, R s s₁ → R s₁ s' → R s s'
  redraw : ∀ s, R s s.redraw
  setText : ∀ text s, R s (s.setText text)
  setFrame : ∀ frame s, R s { s with bar := { s.bar with frame } }
  setClock : ∀ clock s, R s { s with bar := { s.bar with clock } }

namespace Lasting

variable {R : Screen → Screen → Prop}

theorem tick (h : Lasting R) (s : Screen) : R s s.tick := by
  unfold Screen.tick
  split
  · exact h.trans (h.setFrame _ s) (h.redraw _)
  · exact h.refl s

theorem ticks (h : Lasting R) (n : Nat) (s : Screen) : R s (ticks n s) := by
  induction n generalizing s with
  | zero => exact h.refl s
  | succ n ih => exact h.trans (h.tick s) (ih s.tick)

theorem wait (h : Lasting R) (ms : Nat) (s : Screen) : R s (s.wait ms) := by
  unfold Screen.wait
  split
  · exact h.trans (h.setClock _ s) (h.ticks _ _)
  · exact h.refl s

end Lasting

/-- A bar that is not ended is drawn and nothing else. -/
theorem draws_lasting : Lasting Draws where
  refl s := (Calm.refl s).draws
  trans := Draws.trans
  redraw := draws_redraw
  setText text s := (calm_setText text s).draws
  setFrame _ _ := Calm.draws ⟨rfl, rfl⟩
  setClock _ _ := Calm.draws ⟨rfl, rfl⟩

end Screen

/-! ## Progress lines -/

namespace Console

open Screen

theorem calm_write_flush (bytes : List UInt8) (plain : Option Text.Escape.State) (s : Screen) :
    Calm s (match { s with plain }.write bytes with
      | (true, s) => s.flush.2
      | (false, s) => s) := by
  have hwrite := calm_write bytes { s with plain }
  cases hw : write bytes { s with plain } with
  | mk whole s₁ =>
    rw [hw] at hwrite
    have calm : Calm s s₁ := ⟨hwrite.active, hwrite.barEvents⟩
    cases whole with
    | true => exact calm.trans (calm_flush s₁)
    | false => exact calm

theorem calm_printLine (text : String) (s : Screen) : Calm s (printLine text s) :=
  calm_write_flush _ _ s

theorem calm_styled (style : Style) (text : String) (s : Screen) :
    Calm s (styled style text s) := by
  unfold styled
  split <;> exact calm_printLine _ s

theorem calm_banner (index total : Nat) (b : Board) (buildDir : String) (s : Screen) :
    Calm s (banner index total b buildDir s) :=
  (calm_styled _ _ _).trans <| (calm_styled _ _ _).trans <| (calm_styled _ _ _).trans <|
    (calm_styled _ _ _).trans <| (calm_styled _ _ _).trans <| calm_styled _ _ _

end Console

/-! ## Runs -/

variable {σ α β : Type}

/-- The commands show nothing. -/
def Runner.Silent (runner : Runner σ) : Prop :=
  ∀ c w screen, (runner.run c (w, screen)).2.2 = screen

/-- A step of a run leaves the bar alone. -/
def LeavesBar (m : StateM (Session σ) α) : Prop :=
  ∀ s : Session σ, Screen.Calm s.screen (m s).2.screen

namespace LeavesBar

theorem pure (a : α) : LeavesBar (Pure.pure a : StateM (Session σ) α) :=
  fun s => .refl s.screen

theorem bind {m : StateM (Session σ) α} {f : α → StateM (Session σ) β} (h : LeavesBar m)
    (hf : ∀ a, LeavesBar (f a)) : LeavesBar (m >>= f) :=
  fun s => (h s).trans (hf _ _)

theorem get_bind {f : Session σ → StateM (Session σ) β} (hf : ∀ s, LeavesBar (f s)) :
    LeavesBar (get >>= f) :=
  fun s => hf s s

end LeavesBar

namespace Matrix

open Screen Console

theorem onWorld_leavesBar (m : StateM σ α) : LeavesBar (onWorld m) := fun s => .refl s.screen

theorem onScreen_leavesBar {f : Screen → Screen} (hf : ∀ s, Calm s (f s)) :
    LeavesBar (onScreen f : StateM (Session σ) Unit) :=
  fun s => hf s.screen

theorem setPhase_leavesBar (index total : Nat) (b : Board) (phase : StatusLine.Phase) :
    LeavesBar (setPhase index total b phase : StateM (Session σ) Unit) :=
  onScreen_leavesBar (calm_setText _)

variable {runner : Runner σ} (silent : runner.Silent)

include silent

theorem runCommand_leavesBar (c : Command) : LeavesBar (runCommand runner c) := by
  have issued : LeavesBar (issue runner c) := by
    intro s
    have hs : (issue runner c s).2.screen = s.screen := silent c s.world s.screen
    rw [hs]
    exact .refl s.screen
  refine issued.bind fun ending => ?_
  cases ending with
  | failed f =>
    exact (onScreen_leavesBar (calm_report _)).bind fun _ =>
      (onScreen_leavesBar (calm_styled _ _)).bind fun _ => .pure _
  | exited n => exact .pure _
  | pending => exact .pure _

omit silent in
theorem collectOutputs_leavesBar (fs : FileSystem σ) (layout : Layout) (index total : Nat)
    (b : Board) : LeavesBar (collectOutputs fs layout index total b) := by
  have copied (copies : List Path) (s : Screen) :
      Calm s (copies.foldl (fun s p => info ("--> Copied " ++ p.text) s) s) := by
    induction copies generalizing s with
    | nil => exact .refl s
    | cons p copies ih => exact (calm_styled _ _ s).trans (ih _)
  refine (onWorld_leavesBar _).bind fun missing => ?_
  cases missing with
  | some file => exact (onScreen_leavesBar (calm_report _)).bind fun _ => .pure _
  | none =>
    refine (setPhase_leavesBar _ _ _ _).bind fun _ => (onWorld_leavesBar _).bind fun delivered => ?_
    cases delivered with
    | ok copies => exact (onScreen_leavesBar (copied copies)).bind fun _ => .pure _
    | error f => exact (onScreen_leavesBar (calm_report _)).bind fun _ => .pure _

theorem buildAndCollect_leavesBar (fs : FileSystem σ) (layout : Layout) (index total : Nat)
    (b : Board) (build : Command) :
    LeavesBar (buildAndCollect fs runner layout index total b build) := by
  refine (onWorld_leavesBar _).bind fun cleared => ?_
  cases cleared with
  | error f => exact (onScreen_leavesBar (calm_report _)).bind fun _ => .pure _
  | ok _ =>
    refine (setPhase_leavesBar _ _ _ _).bind fun _ =>
      (onScreen_leavesBar (calm_styled _ _)).bind fun _ =>
        (runCommand_leavesBar silent build).bind fun code => ?_
    cases code with
    | none => exact .pure _
    | some n =>
      by_cases hn : n = 0
      · simp only [if_pos hn]
        exact (collectOutputs_leavesBar fs layout index total b).bind fun _ => .pure _
      · simp only [if_neg hn]
        exact .pure _

theorem configure_leavesBar (index total : Nat) (b : Board) (step : Option Command) :
    LeavesBar (configure runner index total b step) := by
  cases step with
  | none => exact (onScreen_leavesBar (calm_styled _ _)).bind fun _ => .pure _
  | some c =>
    exact (setPhase_leavesBar _ _ _ _).bind fun _ =>
      (onScreen_leavesBar (calm_styled _ _)).bind fun _ => runCommand_leavesBar silent c

theorem buildBoard_leavesBar (fs : FileSystem σ) (layout : Layout) (index total : Nat)
    (b : Board) : LeavesBar (buildBoard fs runner layout index total b) := by
  refine (onScreen_leavesBar (calm_banner _ _ _ _)).bind fun _ => .get_bind fun s => ?_
  refine (onWorld_leavesBar _).bind fun ws => ?_
  have kept : LeavesBar (modify fun s : Session σ => { s with workspace := ws }) :=
    fun s => .refl s.screen
  refine kept.bind fun _ => (configure_leavesBar silent index total b _).bind fun code => ?_
  cases code with
  | none => exact .pure _
  | some n =>
    by_cases hn : n = 0
    · simp only [if_pos hn]
      exact buildAndCollect_leavesBar silent fs layout index total b _
    · simp only [if_neg hn]
      exact .pure _

omit silent in
theorem record_leavesBar (b : Board) (r : BoardResult) :
    LeavesBar (record b r : StateM (Session σ) Unit) := by
  intro s
  show s.screen.Calm ((if r.isSuccess then success _ else error _) s.screen)
  split <;> exact calm_styled _ _ _

theorem runFrom_leavesBar (fs : FileSystem σ) (layout : Layout) (total index : Nat)
    (boards : List Board) : LeavesBar (runFrom fs runner layout total index boards) := by
  induction boards generalizing index with
  | nil => exact .pure _
  | cons b boards ih =>
    refine (buildBoard_leavesBar silent fs layout index total b).bind fun result => ?_
    cases result with
    | none => exact .pure _
    | some r => exact (record_leavesBar b r).bind fun _ => ih (index + 1)

/-- A run with commands that show nothing leaves the bar to whoever started it. -/
theorem run_leavesBar (fs : FileSystem σ) (layout : Layout) (boards : List Board) :
    LeavesBar (run fs runner layout boards) := by
  refine (runFrom_leavesBar silent fs layout _ 1 boards).bind fun fin => ?_
  cases fin with
  | false => exact .pure _
  | true =>
    refine LeavesBar.bind ?_ fun _ => .pure _
    exact (onWorld_leavesBar _).bind fun _ => .get_bind fun _ => .pure _

end Matrix

end FirmwareMatrix
