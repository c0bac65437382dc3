import FirmwareMatrix.Proofs.StepRequests
import FirmwareMatrix.Proofs.Turns

/-! # What the status text says during a run

Progress lines, diagnostics and file operations leave the text as it is; only setting a phase and
whatever a command does while it runs change it. So a command finds the text that was set for it,
and the text set for copying stays until a phase is set again. -/

namespace FirmwareMatrix

open StatusLine (textFor)

variable {σ α β : Type}

/-! ## Texts -/

/-- The phase that a command is run in. -/
def Command.phase (c : Command) : StatusLine.Phase :=
  if c.isConfigure then .targeting else .building

theorem Command.phase_ne_copying (c : Command) : c.phase ≠ .copying := by
  unfold phase
  split <;> simp

theorem StatusLine.ending_textFor (index total : Nat) (b : Board) (p : Phase) :
    (textFor index total b p).toList.reverse.take 4 = p.text.toList.reverse.take 4 := by
  simp only [textFor, String.toList_append, List.reverse_append]
  exact List.take_append_of_le_length (by cases p <;> decide)

/-- A text tells the phase that it was set for. -/
theorem StatusLine.phase_of_textFor {index total index' total' : Nat} {b b' : Board} {p p' : Phase}
    (h : textFor index total b p = textFor index' total' b' p') : p = p' := by
  have hends := ending_textFor index total b p
  rw [h, ending_textFor] at hends
  revert hends
  cases p <;> cases p' <;> decide

theorem Screen.report_bar (entry : LogEntry) (s : Screen) : (s.report entry).bar = s.bar := rfl

theorem Console.printLine_bar (text : String) (s : Screen) : (printLine text s).bar = s.bar := by
  unfold printLine
  dsimp only
  split <;> next h => exact congrArg (·.2.bar) h.symm

theorem Console.styled_bar (style : Style) (text : String) (s : Screen) :
    (styled style text s).bar = s.bar := by
  unfold styled
  split <;> exact printLine_bar _ s

theorem Console.banner_bar (index total : Nat) (b : Board) (buildDir : String) (s : Screen) :
    (banner index total b buildDir s).bar = s.bar := by
  simp only [banner, info, styled_bar]

/-! ## Moments in a row -/

/-- `index` is the number of a board `b`, counted from one. -/
def Numbered (boards : List Board) (index : Nat) (b : Board) : Prop :=
  0 < index ∧ boards[index - 1]? = some b

/-- The text of the bar, and the least number that a phase can be set for from here on. -/
structure Showing where
  text : String
  floor : Nat

/-- One moment of a run over `boards`. -/
inductive Showing.Step (boards : List Board) : Showing → Moment → Showing → Prop
  | enter {v : Showing} {index : Nat} {b : Board} {p : StatusLine.Phase}
      (number : Numbered boards index b) (floor : v.floor ≤ index) :
      Step boards v ⟨.enter index b p, v.text, textFor index boards.length b p⟩
        ⟨textFor index boards.length b p, index⟩
  | hand {v : Showing} {index : Nat} {b : Board} {c : Command} (number : Numbered boards index b)
      (name : c.boardName = b.name) (text : v.text = textFor index boards.length b c.phase)
      (text' : String) :
      Step boards v ⟨.hand index b c, v.text, text'⟩ ⟨text', v.floor⟩
  | copy {v : Showing} {index : Nat} {b : Board} (number : Numbered boards index b)
      (text : v.text = textFor index boards.length b .copying) :
      Step boards v ⟨.copy index b, v.text, v.text⟩ v
  | other (v : Showing) : Step boards v ⟨.other, v.text, v.text⟩ v

/-- Moments of a run over `boards` one after another. -/
inductive Showing.Course (boards : List Board) : Showing → List Moment → Showing → Prop
  | nil (v : Showing) : Course boards v [] v
  | cons {v v₁ v' : Showing} {m : Moment} {ms : List Moment} (step : Step boards v m v₁)
      (rest : Course boards v₁ ms v') : Course boards v (m :: ms) v'

/-- Each moment begins with the text that the one before it left. -/
def Unbroken : String → List Moment → String → Prop
  | text, [], text' => text = text'
  | text, m :: ms, text' => m.before = text ∧ Unbroken m.after ms text'

namespace Showing

variable {boards : List Board} {v v₁ v' : Showing} {m : Moment} {ms ms' : List Moment}

theorem Step.texts (h : Step boards v m v') : m.before = v.text ∧ m.after = v'.text := by
  cases h <;> exact ⟨rfl, rfl⟩

namespace Course

theorem append (h : Course boards v ms v₁) (h' : Course boards v₁ ms' v') :
    Course boards v (ms ++ ms') v' := by
  induction h with
  | nil _ => exact h'
  | cons step _ ih => exact .cons step (ih h')

theorem split (h : Course boards v (ms ++ ms') v') :
    ∃ v₁, Course boards v ms v₁ ∧ Course boards v₁ ms' v' := by
  induction ms generalizing v with
  | nil => exact ⟨v, .nil v, h⟩
  | cons m ms ih =>
    cases h with
    | cons step rest =>
      obtain ⟨v₁, hms, hms'⟩ := ih rest
      exact ⟨v₁, .cons step hms, hms'⟩

/-- The step that a moment was. -/
theorem step_of_mem (h : Course boards v ms v') (hm : m ∈ ms) : ∃ u u', Step boards u m u' := by
  induction h with
  | nil _ => simp at hm
  | cons step _ ih =>
    rcases List.mem_cons.mp hm with rfl | hm
    · exact ⟨_, _, step⟩
    · exact ih hm

theorem unbroken (h : Course boards v ms v') : Unbroken v.text ms v'.text := by
  induction h with
  | nil _ => exact rfl
  | cons step _ ih =>
    obtain ⟨hbefore, hafter⟩ := step.texts
    exact ⟨hbefore, hafter ▸ ih⟩

/-- Phases are set for one board after the other. -/
theorem ascending (h : Course boards v ms v') :
    (∀ i ∈ ms.filterMap Moment.entered?, v.floor ≤ i) ∧
      (ms.filterMap Moment.entered?).Pairwise (· ≤ ·) := by
  induction h with
  | nil _ => exact ⟨by simp, .nil⟩
  | cons step rest ih =>
    cases step with
    | enter number floor =>
      refine ⟨?_, .cons ih.1 ih.2⟩
      exact List.forall_mem_cons.mpr ⟨floor, fun i hi => Nat.le_trans floor (ih.1 i hi)⟩
    | hand number name text text' => exact ih
    | copy number text => exact ih
    | other => exact ih

/-- Where no phase is set, the text for copying stays: a command would have to find another. -/
theorem stays {index total : Nat} {b : Board} (h : Course boards v ms v')
    (htext : v.text = textFor index total b .copying) (hms : ∀ x ∈ ms, x.entered? = none) :
    ∀ x ∈ ms, x.before = textFor index total b .copying ∧
      x.after = textFor index total b .copying := by
  induction h with
  | nil _ => simp
  | cons step _ ih =>
    obtain ⟨hm, hrest⟩ := List.forall_mem_cons.mp hms
    cases step with
    | enter number floor => simp [Moment.entered?] at hm
    | hand number name text text' =>
      have hphase := StatusLine.phase_of_textFor (text.symm.trans htext)
      exact absurd hphase (Command.phase_ne_copying _)
    | copy number text => exact List.forall_mem_cons.mpr ⟨⟨htext, htext⟩, ih htext hrest⟩
    | other => exact List.forall_mem_cons.mpr ⟨⟨htext, htext⟩, ih htext hrest⟩

end Course

end Showing

/-- The text names what is running. From `text` on, through all the moments, it is changed by
setting a phase and by commands alone; a command is handed over under the text for its board and
phase; the text for copying stands from the copying on until a phase is set; and the numbers never
go down. -/
structure NamesRunning (boards : List Board) (text : String) (ms : List Moment) (text' : String) :
    Prop where
  unbroken : Unbroken text ms text'
  unchanged : ∀ m ∈ ms, m.entered? = none → m.issued? = none → m.after = m.before
  handed : ∀ m ∈ ms, ∀ index b c, m.deed = .hand index b c →
    Numbered boards index b ∧ c.boardName = b.name ∧
      m.before = textFor index boards.length b c.phase
  entered : ∀ m ∈ ms, ∀ index b p, m.deed = .enter index b p →
    Numbered boards index b ∧ m.after = textFor index boards.length b p
  copying : ∀ before m during after index b, ms = before ++ m :: (during ++ after) →
    m.deed = .copy index b → (∀ x ∈ during, x.entered? = none) →
    Numbered boards index b ∧ ∀ x ∈ m :: during,
      x.before = textFor index boards.length b .copying ∧
        x.after = textFor index boards.length b .copying
  ascending : (ms.filterMap Moment.entered?).Pairwise (· ≤ ·)

theorem Showing.Course.namesRunning {boards : List Board} {v v' : Showing} {ms : List Moment}
    (h : Course boards v ms v') : NamesRunning boards v.text ms v'.text where
  unbroken := h.unbroken
  unchanged m hm hentered hissued := by
    obtain ⟨u, u', step⟩ := h.step_of_mem hm
    cases step with
    | enter number floor => simp [Moment.entered?] at hentered
    | hand number name text text' => simp [Moment.issued?] at hissued
    | copy number text => rfl
    | other => rfl
  handed m hm index b c hdeed := by
    obtain ⟨u, u', step⟩ := h.step_of_mem hm
    cases step <;> cases hdeed
    next text' number name text => exact ⟨number, name, text⟩
  entered m hm index b p hdeed := by
    obtain ⟨u, u', step⟩ := h.step_of_mem hm
    cases step <;> cases hdeed
    next floor number => exact ⟨number, rfl⟩
  copying before m during after index b hms hdeed hduring := by
    subst hms
    obtain ⟨v₁, -, hfrom⟩ := h.split
    cases hfrom with
    | cons step rest =>
      obtain ⟨v₂, hstretch, -⟩ := rest.split
      cases step <;> cases hdeed
      next number text =>
        exact ⟨number, List.forall_mem_cons.mpr
          ⟨⟨text, text⟩, hstretch.stays text hduring⟩⟩
  ascending := h.ascending.2

/-! ## The moments of a run -/

/-- From a bar for which `P` holds, `m` takes the moments of a run over `boards`, notes the
commands it hands over and leaves a bar for which `Q` holds. -/
def Passes (boards : List Board) (P : Showing → Prop) (m : StateM (Chronicle σ) α)
    (Q : α → Showing → Prop) : Prop :=
  ∀ w v, v.text = w.session.screen.bar.text → P v →
    ∃ ms v', (m w).2.moments = w.moments ++ ms ∧ Showing.Course boards v ms v' ∧
      v'.text = (m w).2.session.screen.bar.text ∧
      (m w).2.session.issued = w.session.issued ++ ms.filterMap Moment.issued? ∧ Q (m w).1 v'

namespace Passes

variable {boards : List Board} {P : Showing → Prop} {Q : α → Showing → Prop}

theorem pure {a : α} (h : ∀ v, P v → Q a v) :
    Passes boards P (Pure.pure a : StateM (Chronicle σ) α) Q := by
  intro w v htext hp
  exact ⟨[], v, (List.append_nil _).symm, .nil v, htext, (List.append_nil _).symm, h v hp⟩

theorem bind {m : StateM (Chronicle σ) α} {f : α → StateM (Chronicle σ) β}
    {Q' : β → Showing → Prop} (h : Passes boards P m Q)
    (hf : ∀ a, Passes boards (Q a) (f a) Q') : Passes boards P (m >>= f) Q' := by
  intro w v htext hp
  obtain ⟨ms, v₁, hms, course, htext₁, hissued, hq⟩ := h w v htext hp
  obtain ⟨ms', v', hms', course', htext', hissued', hq'⟩ := hf _ _ v₁ htext₁ hq
  refine ⟨ms ++ ms', v', ?_, course.append course', htext', ?_, hq'⟩
  · rw [← List.append_assoc, ← hms]
    exact hms'
  · rw [List.filterMap_append, ← List.append_assoc, ← hissued]
    exact hissued'

theorem get_bind {f : Chronicle σ → StateM (Chronicle σ) α}
    (hf : ∀ w, Passes boards P (f w) Q) : Passes boards P (get >>= f) Q :=
  fun w => hf w w

theorem weaken {m : StateM (Chronicle σ) α} {P' : Showing → Prop} (h : Passes boards P m Q)
    (hp : ∀ v, P' v → P v) : Passes boards P' m Q :=
  fun w v htext hv => h w v htext (hp v hv)

/-- A single moment. -/
theorem chronicled {deed : Deed} {m : StateM (Session σ) α}
    (h : ∀ s v, v.text = s.screen.bar.text → P v →
      ∃ v', Showing.Step boards v ⟨deed, v.text, (m s).2.screen.bar.text⟩ v' ∧
        (m s).2.issued = s.issued ++ [⟨deed, v.text, v'.text⟩].filterMap Moment.issued? ∧
        Q (m s).1 v') :
    Passes boards P (FirmwareMatrix.chronicled deed m) Q := by
  intro w v htext hp
  obtain ⟨v', step, hissued, hq⟩ := h w.session v htext hp
  have hafter : (m w.session).2.screen.bar.text = v'.text := step.texts.2
  refine ⟨[⟨deed, v.text, v'.text⟩], v', ?_, ?_, hafter.symm, ?_, hq⟩
  · rw [htext, ← hafter]
    exact List.map_append
  · rw [← hafter]
    exact .cons step (.nil v')
  · exact hissued

/-- What neither sets a text nor hands a command over. -/
theorem still {m : StateM (Session σ) α} (hbar : ∀ s, (m s).2.screen.bar = s.screen.bar)
    (hissued : ∀ s, (m s).2.issued = s.issued) :
    Passes boards P (FirmwareMatrix.chronicled .other m) fun _ => P := by
  refine chronicled fun s v htext hp => ⟨v, ?_, ?_, hp⟩
  · rw [hbar, ← htext]
    exact .other v
  · rw [hissued]
    exact (List.append_nil _).symm

theorem onWorld (m : StateM σ α) :
    Passes boards P (FirmwareMatrix.chronicled .other (Matrix.onWorld m)) fun _ => P :=
  still (fun _ => rfl) fun _ => rfl

theorem display {f : Screen → Screen} (hf : ∀ s, (f s).bar = s.bar) :
    Passes (σ := σ) boards P (Chronicle.display f) fun _ => P :=
  still (fun s => hf s.screen) fun _ => rfl

end Passes

namespace Chronicle

open Showing Console

variable {fs : FileSystem σ} {runner : Runner σ} {layout : Layout} {boards : List Board}
  {index : Nat} {b : Board}

/-- Phases were set for boards up to number `index`. -/
def Reached (index : Nat) (v : Showing) : Prop := v.floor ≤ index

/-- Besides, the text is that of a phase. -/
def Says (total index : Nat) (b : Board) (p : StatusLine.Phase) (v : Showing) : Prop :=
  v.text = textFor index total b p ∧ Reached index v

theorem setPhase_passes (hb : Numbered boards index b) (p : StatusLine.Phase) :
    Passes (σ := σ) boards (Reached index) (setPhase index boards.length b p)
      fun _ => Says boards.length index b p := by
  refine .chronicled fun s v _ hreached => ?_
  exact ⟨⟨textFor index boards.length b p, index⟩, .enter hb hreached, (List.append_nil _).symm,
    rfl, Nat.le_refl _⟩

theorem runCommand_passes (hb : Numbered boards index b) {c : Command}
    (hc : c.boardName = b.name) :
    Passes boards (Says boards.length index b c.phase) (runCommand runner index b c)
      fun _ => Reached index := by
  refine .bind (Q := fun _ => Reached index) (.chronicled fun s v htext hsays => ?_)
    fun ending => ?_
  · refine ⟨⟨_, v.floor⟩, .hand hb hc hsays.1 _, ?_, hsays.2⟩
    rw [htext]
    rfl
  · cases ending with
    | failed f =>
      exact (Passes.display (Screen.report_bar _)).bind fun _ =>
        (Passes.display (styled_bar _ _)).bind fun _ => .pure fun _ h => h
    | exited n => exact .pure fun _ h => h
    | pending => exact .pure fun _ h => h

theorem collectOutputs_passes (hb : Numbered boards index b) :
    Passes boards (Reached index) (collectOutputs fs layout index boards.length b)
      fun _ => Reached index := by
  have copied (copies : List Path) (s : Screen) :
      (copies.foldl (fun s p => info ("--> Copied " ++ p.text) s) s).bar = s.bar := by
    induction copies generalizing s with
    | nil => rfl
    | cons p copies ih => exact (ih _).trans (styled_bar _ _ s)
  refine (Passes.onWorld _).bind fun missing => ?_
  cases missing with
  | some file => exact (Passes.display (Screen.report_bar _)).bind fun _ => .pure fun _ h => h
  | none =>
    refine (setPhase_passes hb .copying).bind fun _ => ?_
    refine .bind (Q := fun _ => Reached index) (.chronicled fun s v htext hsays => ?_)
      fun delivered => ?_
    · refine ⟨v, ?_, (List.append_nil _).symm, hsays.2⟩
      rw [show (Matrix.onWorld _ s).2.screen.bar.text = v.text from htext.symm]
      exact .copy hb hsays.1
    · cases delivered with
      | ok copies => exact (Passes.display (copied copies)).bind fun _ => .pure fun _ h => h
      | error f => exact (Passes.display (Screen.report_bar _)).bind fun _ => .pure fun _ h => h

theorem buildAndCollect_passes (hb : Numbered boards index b) :
    Passes boards (Reached index)
      (buildAndCollect fs runner layout index boards.length b (.build b.name))
      fun _ => Reached index := by
  refine (Passes.onWorld _).bind fun cleared => ?_
  cases cleared with
  | error f => exact (Passes.display (Screen.report_bar _)).bind fun _ => .pure fun _ h => h
  | ok _ =>
    refine (setPhase_passes hb .building).bind fun _ => (Passes.display (styled_bar _ _)).bind
      fun _ => (runCommand_passes hb (c := .build b.name) rfl).bind fun code => ?_
    cases code with
    | none => exact .pure fun _ h => h
    | some n =>
      by_cases hn : n = 0
      · simp only [if_pos hn]
        exact (collectOutputs_passes hb).bind fun _ => .pure fun _ h => h
      · simp only [if_neg hn]
        exact .pure fun _ h => h

theorem configure_passes (hb : Numbered boards index b) {step : Option Command}
    (hstep : ∀ c, step = some c → c.isConfigure = true ∧ c.boardName = b.name) :
    Passes boards (Reached index) (configure runner index boards.length b step)
      fun _ => Reached index := by
  cases step with
  | none => exact (Passes.display (styled_bar _ _)).bind fun _ => .pure fun _ h => h
  | some c =>
    obtain ⟨hconfigure, hname⟩ := hstep c rfl
    have hphase : c.phase = .targeting := if_pos hconfigure
    refine (setPhase_passes hb .targeting).bind fun _ =>
      (Passes.display (styled_bar _ _)).bind fun _ => ?_
    rw [← hphase]
    exact runCommand_passes hb hname

theorem buildBoard_passes (hb : Numbered boards index b) :
    Passes boards (Reached index) (buildBoard fs runner layout index boards.length b)
      fun _ => Reached index := by
  refine (Passes.display (banner_bar _ _ _ _)).bind fun _ => .get_bind fun w => ?_
  refine (Passes.onWorld _).bind fun ws => ?_
  refine (Passes.still (fun _ => rfl) fun _ => rfl).bind fun _ => ?_
  refine (configure_passes hb fun c hc => ?_).bind fun code => ?_
  · rcases Workspace.step_of_plan hc with rfl | rfl <;> exact ⟨rfl, rfl⟩
  · cases code with
    | none => exact .pure fun _ h => h
    | some n =>
      by_cases hn : n = 0
      · simp only [if_pos hn]
        exact buildAndCollect_passes hb
      · simp only [if_neg hn]
        exact .pure fun _ h => h

theorem record_passes (result : BoardResult) {P : Showing → Prop} :
    Passes (σ := σ) boards P (record b result) fun _ => P := by
  refine Passes.still (fun s => ?_) fun _ => rfl
  show ((if result.isSuccess then success _ else error _) s.screen).bar = s.screen.bar
  split <;> exact styled_bar _ _ _

theorem runFrom_passes (done rest : List Board) (h : boards = done ++ rest) :
    Passes boards (Reached (done.length + 1))
      (runFrom fs runner layout boards.length (done.length + 1) rest) fun _ _ => True := by
  induction rest generalizing done with
  | nil => exact .pure fun _ _ => trivial
  | cons b rest ih =>
    have hb : Numbered boards (done.length + 1) b := ⟨Nat.succ_pos _, by simp [h]⟩
    refine (buildBoard_passes hb).bind fun result => ?_
    cases result with
    | none => exact .pure fun _ _ => trivial
    | some r =>
      have hrest := ih (done ++ [b]) (by simp [h])
      rw [List.length_append, List.length_singleton] at hrest
      exact (record_passes r).bind fun _ => hrest.weaken fun v => Nat.le_succ_of_le

theorem run_passes :
    Passes boards (Reached 1) (run fs runner layout boards) fun _ _ => True := by
  refine (runFrom_passes [] boards rfl).bind fun fin => ?_
  cases fin with
  | false => exact .pure fun _ _ => trivial
  | true => exact (Passes.still (fun _ => rfl) fun _ => rfl).bind fun _ => .pure fun _ _ => trivial

end Chronicle

/-- At every moment of every run the status text names what is running. Where the world is observed,
all that the run asks for it asks for in its moments, as these are called: a command where one is
handed over, and copies where outputs are copied. -/
theorem Matrix.run_names_running (fs : FileSystem σ) (runner : Runner σ) (layout : Layout)
    (boards : List Board) (s : Session σ) :
    let w := Chronicle.run fs runner layout boards ⟨s, []⟩
    let observed :=
      (Chronicle.run fs.observed runner.observed layout boards ⟨s.watched, []⟩).2
    (w.1, w.2.session) = run fs runner layout boards s ∧
      w.2.session.issued = s.issued ++ w.2.moments.filterMap Moment.issued? ∧
      NamesRunning boards s.screen.bar.text w.2.moments w.2.session.screen.bar.text ∧
      ∃ asked, observed.session.world.events = asked.flatten ∧
        List.Forall₂ (Taken.Tells layout) observed.steps asked := by
  intro w observed
  have hpasses : Passes boards (Chronicle.Reached 1) (Chronicle.run fs runner layout boards)
      fun _ _ => True := Chronicle.run_passes
  obtain ⟨ms, v', hms, course, htext, hissued, -⟩ :=
    hpasses ⟨s, []⟩ ⟨s.screen.bar.text, 0⟩ rfl (Nat.zero_le 1)
  have hmoments : w.2.moments = ms := hms
  obtain ⟨steps, asked, hsteps, hevents, htells⟩ :=
    Chronicle.run_accounts fs runner layout boards ⟨s.watched, []⟩
  have hsteps : observed.steps = steps := hsteps
  refine ⟨(Chronicle.run_mirrors boards ⟨s, []⟩).symm, hmoments ▸ hissued, ?_, asked, hevents,
    hsteps ▸ htells⟩
  rw [hmoments, ← show v'.text = w.2.session.screen.bar.text from htext]
  exact course.namesRunning

end FirmwareMatrix
