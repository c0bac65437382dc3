import FirmwareMatrix.Proofs.BarLifecycle
import FirmwareMatrix.Proofs.Scripted

/-! # What an interrupted run leaves

A command that never ends cuts a run short in the turn of its board. Outcomes are recorded and
outputs are delivered at the end of a turn, so what is there then is what a run over the boards
before leaves, and the status bar is given back as after any other run. -/

namespace FirmwareMatrix

namespace Matrix

variable {σ : Type} {fs : FileSystem σ} {runner : Runner σ} {layout : Layout} {view : σ → Tree}
  {boards : List Board} {s s' : Session σ}

/-- `s` is what `done` is, up to the commands of `b` and what they did outside of `out`; the last
of them has not ended. -/
structure CutShort (runner : Runner σ) (view : σ → Tree) (out : List Component) (b : Board)
    (done s : Session σ) : Prop where
  commands : ∃ cs, s.issued.map Issued.command = done.issued.map Issued.command ++ cs ∧
    Waits runner b cs none
  outcomes : s.outcomes = done.outcomes
  kept : Tree.AgreeBelow out (view done.world) (view s.world)

theorem run_ended {summary : Summary} (h : run fs runner layout boards s = (some summary, s')) :
    ∃ cs, s'.issued.map Issued.command = s.issued.map Issued.command ++ cs ∧
      ∀ c ∈ cs, Ended runner c := by
  obtain ⟨s₁, hfrom, hend⟩ := run_eq h
  obtain ⟨cs, outs, hturns, -, hissued⟩ := runFrom_turns hfrom
  obtain ⟨-, rfl⟩ := summarize_eq hend
  exact ⟨cs, hissued, hturns.ended⟩

/-- A run that hangs does what a run over some first boards does, and then part of a turn. -/
theorem run_cut_short (hfs : fs.Over view Tree.fileSystem)
    (spares : runner.Spares view layout.outputDir.components) (hsep : layout.Separate)
    (hdet : runner.Determined) (h : run fs runner layout boards s = (none, s')) :
    ∃ k b summary done, boards[k]? = some b ∧
      run fs runner layout (boards.take k) s = (some summary, done) ∧
      CutShort runner view layout.outputDir.components b done s' := by
  obtain ⟨s₁, hfrom, hend⟩ := run_eq h
  obtain rfl : s' = s₁ := hend
  obtain ⟨cs, outs, hturns, houts, hissued⟩ := runFrom_turns hfrom
  obtain ⟨k, b, ws₁, w₁, ws₂, w₂, cs₁, cs₂, hb, hbefore, look, turn, rfl⟩ := hturns.split
  cases hrun : run fs runner layout (boards.take k) s with
  | mk summary done =>
    -- the run over the boards before takes the one way there is for them
    obtain ⟨s₂, hfrom₂, hend₂⟩ := run_eq hrun
    obtain ⟨cs', outs', hturns', houts', hissued'⟩ := runFrom_turns hfrom₂
    obtain ⟨rfl, rfl, hfin, -, hworld⟩ := hbefore.unique hdet hturns'
    cases summary with
    | none => cases hfin
    | some summary =>
      obtain ⟨-, rfl⟩ := summarize_eq hend₂
      refine ⟨k, b, summary, _, hb, hrun, ⟨cs₂, ?_, turn.waits⟩, houts.trans houts'.symm, ?_⟩
      · rw [hissued, hissued', List.append_assoc]
      · have hresolved : view (fs.canonicalize layout.outputDir s₂.world).2 = view s₂.world :=
          (congrArg Prod.snd (hfs.canonicalize layout.outputDir s₂.world)).symm
        have hturn := turn.agreeBelow_of_hung hfs spares hsep
        rw [(hfs.refresh_view look).1, hworld] at hturn
        intro q hq
        rw [hresolved]
        exact hturn q hq

/-! ## The bar around a run -/

/-- The screen when the bar is stopped: an interrupted run first waits and reports. -/
def closing (patience : Nat) (finished : Option Summary) (screen : Screen) : Screen :=
  if finished.isNone then ((screen.wait patience).report interruptReport).stopBar
  else screen.stopBar

theorem runUntilInterrupted_eq {patience : Nat} {finished : Option Summary}
    (h : runUntilInterrupted fs runner layout patience boards s = (finished, s')) :
    ∃ s₁, run fs runner layout boards s = (finished, s₁) ∧
      s' = { s₁ with screen := closing patience finished s₁.screen } := by
  simp only [runUntilInterrupted, StateM.bind_apply] at h
  cases hr : run fs runner layout boards s with
  | mk finished₁ s₁ =>
    rw [hr] at h
    cases finished₁ <;> obtain ⟨rfl, rfl⟩ := Prod.mk.inj h <;> exact ⟨s₁, rfl, rfl⟩

open Screen in
/-- Until an interrupted run is over a bar is drawn; then it is given back. -/
theorem closing_none {screen screen₁ : Screen} (patience : Nat) (h : Calm screen screen₁) :
    (closing patience none screen₁).bar.active = false ∧
      (screen.bar.active = true → ∃ draws,
        (closing patience none screen₁).barEvents = screen.barEvents ++ draws ++ [.restore] ∧
          ∀ e ∈ draws, ∃ text frame, e = .draw text frame) ∧
      (screen.bar.active = false →
        (closing patience none screen₁).barEvents = screen.barEvents) := by
  have drawn : Draws screen ((screen₁.wait patience).report interruptReport) :=
    (h.draws.trans (draws_lasting.wait patience screen₁)).trans (calm_report _ _).draws
  cases hactive : screen.bar.active with
  | true =>
    obtain ⟨hstopped, hevents⟩ := stopBar_active (drawn.active.trans hactive)
    obtain ⟨draws, hdraws, hall⟩ := drawn.barEvents
    exact ⟨hstopped, fun _ => ⟨draws, hevents.trans (by rw [hdraws]), hall⟩, nofun⟩
  | false =>
    have inactive : screen₁.bar.active = false := h.active.trans hactive
    have quiet : closing patience none screen₁ = screen₁.report interruptReport := by
      show ((screen₁.wait patience).report interruptReport).stopBar = _
      rw [wait, if_neg (by simp [inactive])]
      exact stopBar_inactive inactive
    rw [quiet]
    exact ⟨inactive, nofun, fun _ => h.barEvents⟩

end Matrix

/-! ## A tool that hangs -/

namespace ScriptedTool

variable {tool : ScriptedTool} {c : Command} {e : Ending} {t t' : Tree}

/-- The script never ends the command. -/
def Hangs (tool : ScriptedTool) (c : Command) : Prop :=
  tool.unavailable c.kind c.boardName = false ∧ tool.hangs c.kind c.boardName = true

instance (tool : ScriptedTool) (c : Command) : Decidable (tool.Hangs c) :=
  inferInstanceAs (Decidable (_ ∧ _))

theorem silent (tool : ScriptedTool) : tool.tool.Silent := fun _ _ _ => rfl

theorem hangs_iff (h : tool.tool.Ends c t e t') : tool.Hangs c ↔ e.code? = none := by
  have hrun := ends_iff.mp h
  have he : e = (tool.perform c t).1 := by
    unfold run at hrun
    split at hrun
    · next heq => exact heq ▸ (congrArg Prod.fst hrun).symm
    · next heq => exact heq ▸ (congrArg Prod.fst hrun).symm
  rw [he]
  unfold perform Hangs
  split
  · simp_all [Ending.code?]
  · split
    · simp_all [Ending.code?]
    · dsimp only
      split
      · split <;> simp_all [Ending.code?]
      · simp_all [Ending.code?]

theorem not_hangs_of_ended (h : Matrix.Ended tool.tool c) : ¬ tool.Hangs c := by
  obtain ⟨t, e, t', ends, hcode⟩ := h
  exact mt (hangs_iff ends).mp hcode

/-- After `before` the commands in `cs` are for board `b`, and the last is the first that hangs. -/
def HangsIn (tool : ScriptedTool) (b : Board) (before cs : List Command) : Prop :=
  ∃ during last, cs = before ++ (during ++ [last]) ∧
    (∀ c ∈ during ++ [last], c.boardName = b.name) ∧
    (∀ c ∈ before ++ during, ¬ tool.Hangs c) ∧ tool.Hangs last

theorem hangsIn_of_waits {b : Board} {before cs : List Command}
    (hbefore : ∀ c ∈ before, Matrix.Ended tool.tool c) (h : Matrix.Waits tool.tool b cs none) :
    tool.HangsIn b before (before ++ cs) := by
  obtain ⟨during, last, rfl, hduring, t, e, t', ends, hcode⟩ := h.hung rfl
  refine ⟨during, last, rfl, h.boardName, fun c hc => ?_, (hangs_iff ends).mpr hcode⟩
  rcases List.mem_append.mp hc with hc | hc
  · exact not_hangs_of_ended (hbefore c hc)
  · exact not_hangs_of_ended (hduring c hc)

end ScriptedTool

namespace Matrix

/-- A run that hands over a command that hangs does not finish. -/
theorem run_none_of_hangs {fs : FileSystem Tree} {tool : ScriptedTool} {layout : Layout}
    {boards : List Board} {s s' : Session Tree} {finished : Option Summary} (hissued : s.issued = [])
    (h : run fs tool.tool layout boards s = (finished, s'))
    (hhang : ∃ i ∈ s'.issued, tool.Hangs i.command) : finished = none := by
  cases finished with
  | none => rfl
  | some summary =>
    obtain ⟨cs, hcs, hall⟩ := run_ended h
    obtain ⟨i, hi, hhangs⟩ := hhang
    rw [hissued, List.map_nil, List.nil_append] at hcs
    have hmem : i.command ∈ cs := hcs ▸ List.mem_map_of_mem hi
    exact absurd hhangs (ScriptedTool.not_hangs_of_ended (hall _ hmem))

/-- A run that does not finish stops in the first command that hangs. -/
theorem run_hangs_in {settings : Settings} {tool : ScriptedTool} {boards : List Board}
    {s s' : Session Tree} (steady : tool.Steady) (hdir : tool.buildDir = settings.buildDir)
    (hart : tool.artifacts = settings.artifacts.artifacts) (hout : settings.outputDir.IsPlain)
    (hapart : Path.Apart settings.buildDir settings.outputDir) (hissued : s.issued = [])
    (h : run Tree.fileSystem tool.tool (Launch.layoutOf settings) boards s = (none, s')) :
    ∃ k b full done, boards[k]? = some b ∧
      run Tree.fileSystem tool.tool (Launch.layoutOf settings) (boards.take k) s =
        (some full, done) ∧
      tool.HangsIn b (done.issued.map Issued.command) (s'.issued.map Issued.command) ∧
      s'.outcomes = done.outcomes ∧
      Tree.AgreeBelow settings.outputDir.components done.world s'.world := by
  obtain ⟨k, b, full, done, hb, hdone, hcut⟩ := run_cut_short
    (FileSystem.Over.refl Tree.fileSystem)
    (ScriptedTool.spares_layoutOf steady hdir hart hout hapart)
    (Launch.separate_layoutOf hout hapart) tool.determined h
  obtain ⟨cs, hcs, hwaits⟩ := hcut.commands
  obtain ⟨cs', hcs', hall⟩ := run_ended hdone
  rw [hissued, List.map_nil, List.nil_append] at hcs'
  refine ⟨k, b, full, done, hb, hdone, ?_, hcut.outcomes, hcut.kept⟩
  rw [hcs]
  exact ScriptedTool.hangsIn_of_waits (hcs' ▸ hall) hwaits

/-- Interrupting a run while a command hangs leaves the outcomes and the deliveries of a run over
the boards before that command's board, and a status bar that was given back once. -/
theorem interrupted_keeps_prefix (settings : Settings) (tool : ScriptedTool)
    (steady : tool.Steady) (hdir : tool.buildDir = settings.buildDir)
    (hart : tool.artifacts = settings.artifacts.artifacts) (hout : settings.outputDir.IsPlain)
    (hapart : Path.Apart settings.buildDir settings.outputDir) (boards : List Board) (t : Tree)
    (screen : Screen) (hblank : screen.barEvents = []) (backend : Backend) (patience : Nat) :
    let layout := Launch.layoutOf settings
    let start := Matrix.begin Tree.fileSystem layout (screen.startBar backend) t
    let ended := runUntilInterrupted Tree.fileSystem tool.tool layout patience boards start
    let summary := (summarize Tree.fileSystem layout boards.length true ended.2).1
    (∃ i ∈ ended.2.issued, tool.Hangs i.command) →
      ended.1 = none ∧
      (∃ k b full done, boards[k]? = some b ∧
        run Tree.fileSystem tool.tool layout (boards.take k) start = (some full, done) ∧
        tool.HangsIn b (done.issued.map Issued.command) (ended.2.issued.map Issued.command) ∧
        ended.2.outcomes = done.outcomes ∧
        Tree.AgreeBelow settings.outputDir.components done.world ended.2.world) ∧
      (summary.outcomes = ended.2.outcomes ∧ summary.status = .interrupted ∧
        summary.status.exitCode = 1) ∧
      ended.2.screen.bar.active = false ∧
      (start.screen.bar.active = true →
        ∃ draws, ended.2.screen.barEvents = .reserve :: draws ++ [.restore] ∧
          ∀ e ∈ draws, ∃ text frame, e = .draw text frame) ∧
      (start.screen.bar.active = false →
        ended.2.screen.barEvents = start.screen.barEvents) := by
  intro layout start ended summary hhang
  have hissued : start.issued = [] := rfl
  have hsummary : summary.outcomes = ended.2.outcomes ∧ summary.status = .interrupted ∧
      summary.status.exitCode = 1 := ⟨rfl, rfl, rfl⟩
  have hended : runUntilInterrupted Tree.fileSystem tool.tool layout patience boards start =
      (ended.1, ended.2) := rfl
  obtain ⟨s₁, hrun, hs⟩ := runUntilInterrupted_eq hended
  have hnone : ended.1 = none := run_none_of_hangs hissued hrun (by rw [hs] at hhang; exact hhang)
  rw [hnone] at hrun hs
  have calm : Screen.Calm start.screen s₁.screen := by
    have hleaves := run_leavesBar tool.silent Tree.fileSystem layout boards start
    rw [hrun] at hleaves
    exact hleaves
  obtain ⟨hstopped, hdrawn, hinert⟩ := closing_none patience calm
  have hcut := run_hangs_in steady hdir hart hout hapart hissued hrun
  refine ⟨hnone, ?_, hsummary, ?_, fun hactive => ?_, ?_⟩
  · rw [hs]
    exact hcut
  · rw [hs]
    exact hstopped
  · obtain ⟨draws, hdraws, hdrawing⟩ := hdrawn hactive
    have hreserved : start.screen.barEvents = [.reserve] := by
      show (screen.startBar backend).barEvents = _
      rw [Screen.startBar_active hactive, hblank]
      rfl
    rw [hs]
    exact ⟨draws, by rw [hdraws, hreserved]; rfl, hdrawing⟩
  · rw [hs]
    exact hinert

/-- A tool that never ends the build of board `B`. -/
def stuck : ScriptedTool :=
  { ScriptedTool.willing Settings.default with
    hangs := fun kind name => kind = .build ∧ name = "B" }

/-- Three boards, the second of which hangs. -/
def trio : List Board :=
  [⟨"A", "esp32c3", ⟨"hw_a.h"⟩⟩, ⟨"B", "esp32c3", ⟨"hw_b.h"⟩⟩, ⟨"C", "esp32s3", ⟨"hw_c.h"⟩⟩]

/-- Interrupted after some ticks of a bar that shows on an agreeable backend. -/
theorem trio_keeps_prefix :
    let layout := Launch.layoutOf .default
    let start := Matrix.begin Tree.fileSystem layout
      ((Screen.blank .open false).startBar (.recorder true false false false)) Tree.empty
    let ended := runUntilInterrupted Tree.fileSystem stuck.tool layout 300 trio start
    ended.1 = none ∧
      (∃ k b full done, trio[k]? = some b ∧
        run Tree.fileSystem stuck.tool layout (trio.take k) start = (some full, done) ∧
        stuck.HangsIn b (done.issued.map Issued.command) (ended.2.issued.map Issued.command) ∧
        ended.2.outcomes = done.outcomes ∧
        Tree.AgreeBelow Settings.default.outputDir.components done.world ended.2.world) ∧
      ∃ draws, ended.2.screen.barEvents = .reserve :: draws ++ [.restore] ∧
        ∀ e ∈ draws, ∃ text frame, e = .draw text frame := by
  have h := interrupted_keeps_prefix .default stuck (fun _ _ _ => rfl) rfl rfl
    (by decide +kernel) (by decide +kernel) trio Tree.empty (Screen.blank .open false) rfl
    (.recorder true false false false) 300
  have hhang := h (by decide +kernel)
  exact ⟨hhang.1, hhang.2.1, hhang.2.2.2.2.1 (by decide +kernel)⟩

end Matrix

end FirmwareMatrix
