import FirmwareMatrix.Proofs.BarLifecycle
import Mathlib.Data.List.Infix

/-! # What a status bar shows

Whoever holds a bar sets its text, the ticker its frame, and both draw it. While a bar is active,
its text is the one set last and its frame the number of ticks so far; so every drawing shows these
two, in whatever order the two sides act. A tick falls at every full period after the first wait
began, wherever the time between them is divided. -/

namespace FirmwareMatrix

namespace Screen

/-! ## Time -/

/-- How many ticks fall into `ms` milliseconds when `elapsed` have passed: one at every period. -/
def due (elapsed ms : Nat) : Nat := (List.range' elapsed ms).countP (· % period = 0)

theorem ticksBefore_succ (time : Nat) :
    ticksBefore (time + 1) = ticksBefore time + if time % period = 0 then 1 else 0 := by
  by_cases h : time % period = 0
  · rw [if_pos h]
    simp only [ticksBefore, period] at h ⊢
    omega
  · rw [if_neg h]
    simp only [ticksBefore, period] at h ⊢
    omega

theorem ticksBefore_add (elapsed ms : Nat) :
    ticksBefore (elapsed + ms) = ticksBefore elapsed + due elapsed ms := by
  induction ms with
  | zero => rfl
  | succ ms ih =>
    have hlast : due elapsed (ms + 1) =
        due elapsed ms + if (elapsed + ms) % period = 0 then 1 else 0 := by
      rw [due, List.range'_concat, List.countP_append, Nat.one_mul]
      simp [due]
    rw [← Nat.add_assoc, ticksBefore_succ, ih, hlast, Nat.add_assoc]

theorem due_add (elapsed a b : Nat) :
    due elapsed (a + b) = due elapsed a + due (elapsed + a) b := by
  have h := ticksBefore_add elapsed (a + b)
  rw [← Nat.add_assoc, ticksBefore_add (elapsed + a) b, ticksBefore_add elapsed a] at h
  omega

/-! ## Drawings -/

namespace Touch

def text? : Touch → Option String
  | setText text => some text
  | _ => none

def isTick : Touch → Bool
  | tick => true
  | _ => false

/-- A text alone is not drawn. -/
def isDrawn : Touch → Bool
  | setText _ => false
  | _ => true

end Touch

/-- The text set last, or none if there is none. -/
def latestText (touches : List Touch) : String := ((touches.filterMap Touch.text?).getLast?).getD ""

def tickCount (touches : List Touch) : Nat := touches.countP Touch.isTick

/-- The text and the frame of each drawing: for every touch that is drawn, the text set last and
the number of ticks up to it. -/
def drawings (touches : List Touch) : List (String × Nat) :=
  (touches.inits.filter fun past => past.getLast?.any Touch.isDrawn).map fun past =>
    (latestText past, tickCount past)

/-- The requests for some drawings. -/
def drawn (drawings : List (String × Nat)) : List BarEvent :=
  drawings.map fun (text, frame) => .draw text frame

theorem drawings_concat (touches : List Touch) (touch : Touch) :
    drawings (touches ++ [touch]) = drawings touches ++
      if touch.isDrawn then
        [(latestText (touches ++ [touch]), tickCount (touches ++ [touch]))]
      else [] := by
  have hinits : (touches ++ [touch]).inits = touches.inits ++ [touches ++ [touch]] := by
    simp [List.inits_append]
  rw [drawings, hinits, List.filter_append, List.map_append]
  cases h : touch.isDrawn <;> simp [drawings, h]

theorem length_drawings (touches : List Touch) :
    (drawings touches).length = touches.countP Touch.isDrawn := by
  induction touches using List.reverseRecOn with
  | nil => rfl
  | append_singleton touches touch ih =>
    rw [drawings_concat, List.length_append, ih, List.countP_append]
    cases h : touch.isDrawn <;> simp [h]

theorem tickCount_concat (touches : List Touch) (touch : Touch) :
    tickCount (touches ++ [touch]) = tickCount touches + if touch.isTick then 1 else 0 := by
  rw [tickCount, List.countP_append, List.countP_singleton]
  rfl

/-- Frames never decrease. -/
theorem drawings_ascending (touches : List Touch) :
    (∀ d ∈ drawings touches, d.2 ≤ tickCount touches) ∧
      (drawings touches).Pairwise fun d d' => d.2 ≤ d'.2 := by
  induction touches using List.reverseRecOn with
  | nil => exact ⟨by decide, by decide⟩
  | append_singleton touches touch ih =>
    obtain ⟨hbound, hpairs⟩ := ih
    have hmore : tickCount touches ≤ tickCount (touches ++ [touch]) := by
      rw [tickCount_concat]
      omega
    rw [drawings_concat]
    cases touch.isDrawn with
    | false =>
      rw [if_neg Bool.false_ne_true, List.append_nil]
      exact ⟨fun d hd => Nat.le_trans (hbound d hd) hmore, hpairs⟩
    | true =>
      rw [if_pos rfl]
      constructor
      · intro d hd
        rcases List.mem_append.mp hd with hd | hd
        · exact Nat.le_trans (hbound d hd) hmore
        · rw [List.mem_singleton.mp hd]
      · refine List.pairwise_append.mpr ⟨hpairs, List.pairwise_singleton _ _, ?_⟩
        intro d hd d' hd'
        rw [List.mem_singleton.mp hd']
        exact Nat.le_trans (hbound d hd) hmore

/-! ## Active bars -/

/-- The bar is active, after `base` was asked for the drawings of `touches`, and holds their text
and frame. -/
structure Shows (base : List BarEvent) (touches : List Touch) (s : Screen) : Prop where
  active : s.bar.active = true
  text : s.bar.text = latestText touches
  frame : s.bar.frame = tickCount touches
  barEvents : s.barEvents = base ++ drawn (drawings touches)

variable {base : List BarEvent} {touches : List Touch} {s : Screen}

theorem latestText_setText (touches : List Touch) (text : String) :
    latestText (touches ++ [.setText text]) = text := by
  simp [latestText, Touch.text?]

theorem latestText_of_none {touch : Touch} (h : touch.text? = none) (touches : List Touch) :
    latestText (touches ++ [touch]) = latestText touches := by
  simp [latestText, h]

/-- A bar that holds the text and the frame of a touch shows them once it is drawn. -/
theorem shows_redraw {touch : Touch} (hdrawn : touch.isDrawn = true) (hactive : s.bar.active = true)
    (htext : s.bar.text = latestText (touches ++ [touch]))
    (hframe : s.bar.frame = tickCount (touches ++ [touch]))
    (hevents : s.barEvents = base ++ drawn (drawings touches)) :
    Shows base (touches ++ [touch]) s.redraw ∧ s.redraw.bar.clock = s.bar.clock := by
  have hbar : s.redraw.bar = s.bar := redraw_bar s
  refine ⟨⟨?_, ?_, ?_, ?_⟩, congrArg StatusBar.clock hbar⟩
  · exact (congrArg StatusBar.active hbar).trans hactive
  · exact (congrArg StatusBar.text hbar).trans htext
  · exact (congrArg StatusBar.frame hbar).trans hframe
  · rw [redraw_barEvents hactive, hevents, htext, hframe, drawings_concat, if_pos hdrawn]
    simp [drawn]

/-- A touch takes no time, and an active bar shows it. -/
theorem Shows.touch (h : Shows base touches s) (touch : Touch) :
    Shows base (touches ++ [touch]) (touch.on s) ∧ (touch.on s).bar.clock = s.bar.clock := by
  cases touch with
  | setText text =>
    refine ⟨⟨h.active, (latestText_setText touches text).symm, ?_, ?_⟩, rfl⟩
    · rw [tickCount_concat]
      exact h.frame
    · rw [drawings_concat]
      exact h.barEvents.trans (by simp [Touch.isDrawn])
  | redraw =>
    refine shows_redraw rfl h.active ?_ ?_ h.barEvents
    · rw [latestText_of_none rfl]
      exact h.text
    · rw [tickCount_concat]
      exact h.frame
  | tick =>
    refine shows_redraw rfl h.active ?_ ?_ h.barEvents
    · rw [latestText_of_none rfl]
      exact h.text
    · rw [tickCount_concat]
      exact congrArg (· + 1) h.frame

theorem Shows.ticks (h : Shows base touches s) (n : Nat) :
    Shows base (touches ++ List.replicate n .tick) (ticks n s) ∧
      (Screen.ticks n s).bar.clock = s.bar.clock := by
  induction n generalizing s touches with
  | zero =>
    rw [List.replicate_zero, List.append_nil]
    exact ⟨h, rfl⟩
  | succ n ih =>
    obtain ⟨hnext, hclock⟩ := h.touch .tick
    have htick : s.tick = Touch.on .tick s := tick_eq_fire h.active
    obtain ⟨hlast, hclock'⟩ := ih hnext
    rw [Screen.ticks, htick, List.replicate_succ, List.append_cons]
    exact ⟨hlast, hclock'.trans hclock⟩

/-- A bar starts with no text, before the first frame. -/
theorem startBar_bar (backend : Backend) (s : Screen) :
    ∃ backend' active, (s.startBar backend).bar = ⟨backend', "", 0, 0, active⟩ := by
  obtain ⟨backend', hbar⟩ := request_bar .reserve { s with bar := ⟨backend, "", 0, 0, false⟩ }
  unfold startBar
  dsimp only
  cases backend.isInteractive with
  | false => exact ⟨backend, false, rfl⟩
  | true =>
    cases hr : request .reserve { s with bar := ⟨backend, "", 0, 0, false⟩ } with
    | mk fault s₁ =>
      rw [hr] at hbar
      have hasked : s₁.bar = ⟨backend', "", 0, 0, false⟩ := hbar
      cases fault with
      | none => exact ⟨backend', true, by simp [hasked]⟩
      | some f => exact ⟨backend', false, hasked⟩

theorem shows_startBar {backend : Backend} (h : (s.startBar backend).bar.active = true) :
    Shows (s.barEvents ++ [.reserve]) [] (s.startBar backend) ∧
      (s.startBar backend).bar.clock = 0 := by
  obtain ⟨backend', active, hbar⟩ := startBar_bar backend s
  refine ⟨⟨h, ?_, ?_, ?_⟩, ?_⟩
  · rw [hbar]
    rfl
  · rw [hbar]
    rfl
  · rw [startBar_active h]
    exact (List.append_nil _).symm
  · rw [hbar]

/-- Time that passes shows in the ticks that fall into it. -/
theorem Shows.wait (h : Shows base touches s) (ms : Nat) :
    Shows base (touches ++ List.replicate (due s.bar.clock ms) .tick) (s.wait ms) ∧
      (s.wait ms).bar.clock = s.bar.clock + ms := by
  have hlater : Shows base touches { s with bar := { s.bar with clock := s.bar.clock + ms } } :=
    ⟨h.active, h.text, h.frame, h.barEvents⟩
  have hcount : ticksBefore (s.bar.clock + ms) - ticksBefore s.bar.clock = due s.bar.clock ms := by
    rw [ticksBefore_add]
    omega
  rw [Screen.wait, if_pos h.active]
  dsimp only
  rw [hcount]
  exact hlater.ticks _

end Screen

namespace BarAction

open Screen

/-- What touches a bar before its first end, when `elapsed` milliseconds have passed before: a wait
is the ticks that fall into it. -/
def touches (elapsed : Nat) : List BarAction → List Touch
  | touched touch :: as => touch :: touches elapsed as
  | waited ms :: as => List.replicate (due elapsed ms) .tick ++ touches (elapsed + ms) as
  | _ => []

/-- A wait may be divided anywhere. -/
theorem touches_waited_add (before after : List BarAction) (elapsed a b : Nat) :
    touches elapsed (before ++ waited (a + b) :: after) =
      touches elapsed (before ++ waited a :: waited b :: after) := by
  induction before generalizing elapsed with
  | nil =>
    simp only [List.nil_append, touches]
    rw [due_add, List.replicate_add, List.append_assoc, Nat.add_assoc]
  | cons action before ih =>
    cases action with
    | touched touch => exact congrArg (touch :: ·) (ih elapsed)
    | waited ms => exact congrArg (_ ++ ·) (ih (elapsed + ms))
    | stopped | dropped => rfl

variable {base : List BarEvent} {past : List Touch} {s : Screen}

/-- An active bar shows what touches it until its first end. -/
theorem acts_shows (as : List BarAction) (h : Shows base past s) :
    (as.foldl act s).barEvents =
        base ++ (drawn (drawings (past ++ touches s.bar.clock as)) ++
          if as.any isEnd then [.restore] else []) ∧
      (as.any isEnd = false → Shows base (past ++ touches s.bar.clock as) (as.foldl act s)) := by
  induction as generalizing s past with
  | nil => exact ⟨by simpa [touches] using h.barEvents, fun _ => by simpa [touches] using h⟩
  | cons a as ih =>
    rw [List.foldl_cons, List.any_cons]
    cases ha : a.isEnd with
    | true =>
      obtain ⟨hactive, hevents⟩ := act_end ha h.active
      have hnone : touches s.bar.clock (a :: as) = [] := by
        cases a with
        | touched | waited => cases ha
        | stopped | dropped => rfl
      refine ⟨?_, fun hany => by simp at hany⟩
      rw [(calm_acts as hactive).barEvents, hevents, h.barEvents, hnone]
      simp
    | false =>
      rw [Bool.false_or]
      cases a with
      | stopped | dropped => cases ha
      | touched touch =>
        obtain ⟨hnext, hclock⟩ := h.touch touch
        have hrest := ih hnext
        rw [hclock, List.append_assoc] at hrest
        exact hrest
      | waited ms =>
        obtain ⟨hnext, hclock⟩ := h.wait ms
        have hrest := ih hnext
        rw [hclock, List.append_assoc] at hrest
        exact hrest

end BarAction

/-- A bar that got its row is asked for one drawing for every touch that is drawn before the first
end, in their order: each shows the text set last and counts the ticks up to its own. So frames
never decrease; while the bar is active, a tick raises the frame by one and nothing else changes
it, and a text alone draws nothing. Where waits are divided does not show. -/
theorem Screen.bar_drawings (backend : Backend) (s : Screen)
    (hinteractive : backend.isInteractive = true)
    (hreserved : (backend.perform .reserve).toBool = true) (as : List BarAction) :
    let started := s.startBar backend
    let ended := as.foldl BarAction.act started
    let touches := BarAction.touches 0 as
    ended.barEvents = s.barEvents ++ .reserve :: (drawn (drawings touches) ++
      if as.any BarAction.isEnd then [.restore] else []) ∧
    (drawings touches).length = touches.countP Touch.isDrawn ∧
    (drawings touches).Pairwise (fun d d' => d.2 ≤ d'.2) ∧
    (as.any BarAction.isEnd = false → ∀ touch : Touch,
      (touch.on ended).bar.frame = ended.bar.frame + (if touch.isTick then 1 else 0) ∧
      (touch.on ended).barEvents = ended.barEvents ++
        if touch.isDrawn then [.draw (touch.on ended).bar.text (touch.on ended).bar.frame]
        else []) ∧
    ∀ before after a b,
      ((before ++ .waited (a + b) :: after).foldl BarAction.act started).barEvents =
        ((before ++ .waited a :: .waited b :: after).foldl BarAction.act started).barEvents := by
  intro started ended touches
  have hactive : started.bar.active = true := by
    rw [(startBar_barEvents backend s).2, hinteractive, hreserved]
    rfl
  obtain ⟨hstarted, hclock⟩ := shows_startBar hactive
  have hlog (actions : List BarAction) := BarAction.acts_shows actions hstarted
  rw [hclock] at hlog
  refine ⟨?_, length_drawings touches, (drawings_ascending touches).2, ?_, ?_⟩
  · exact (hlog as).1.trans (by simp [touches])
  · intro hany touch
    have hended : Shows (s.barEvents ++ [.reserve]) touches ended := (hlog as).2 hany
    obtain ⟨hnext, -⟩ := hended.touch touch
    refine ⟨?_, ?_⟩
    · rw [hnext.frame, hended.frame, tickCount_concat]
    · rw [hnext.barEvents, hended.barEvents, hnext.text, hnext.frame, drawings_concat]
      cases touch.isDrawn <;> simp [drawn]
  · intro before after a b
    have hends : (before ++ .waited (a + b) :: after).any BarAction.isEnd =
        (before ++ .waited a :: .waited b :: after).any BarAction.isEnd := by
      simp [BarAction.isEnd]
    rw [(hlog _).1, (hlog _).1, BarAction.touches_waited_add, hends]

/-- Two waits with a drawing and another text between them, and what comes too late. -/
theorem Screen.twoWaits_drawings :
    (Backend.terminal (.ofSize 80 24)).isInteractive = true ∧
      ((Backend.terminal (.ofSize 80 24)).perform .reserve).toBool = true ∧
      ([BarAction.touched (.setText "A"), .waited 150, .touched .redraw, .touched (.setText "B"),
        .waited 60, .stopped [.tick, .redraw], .touched .redraw, .waited 500].foldl BarAction.act
        ((blank .open false).startBar (.terminal (.ofSize 80 24)))).barEvents =
        [.reserve, .draw "A" 1, .draw "A" 2, .draw "A" 2, .draw "B" 3, .restore] :=
  ⟨rfl, rfl, (bar_drawings (.terminal (.ofSize 80 24)) (blank .open false) rfl rfl _).1.trans
    (by decide +kernel)⟩

end FirmwareMatrix
