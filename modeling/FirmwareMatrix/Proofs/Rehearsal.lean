import FirmwareMatrix.DryRun
import FirmwareMatrix.Proofs.Clearing
import FirmwareMatrix.Proofs.ConsoleLines
import FirmwareMatrix.Proofs.Restart
import Mathlib.Data.List.Forall2

/-! # A run on paper and the run itself

A run on paper supposes that every set-up succeeds and leaves its marker. The run itself looks for
the marker before each board. Nothing that a run does takes the marker away, as long as it is no
output itself, so the two agree on every board, and the commands on paper are those handed over. -/

namespace FirmwareMatrix

variable {q : List Component}

/-! ## Nothing but outputs is taken away -/

theorem Tree.contains_of_file? {t : Tree} {bytes : List UInt8} (h : t.file? q = some bytes) :
    t.contains q = true := by
  cases hc : t.contains q with
  | true => rfl
  | false =>
    rw [file?_eq_none_of_not_contains hc] at h
    cases h

namespace ArtifactSet

variable {dir dest : Path} {as : List Artifact}

theorem contains_discards (hq : q ∉ as.map (Artifact.place dir)) (t : Tree) :
    (as.foldl (fun t a => t.discard (a.place dir)) t).contains q = t.contains q := by
  have hkept : q ∉ stale dir as t := fun hgone => hq (mem_stale.mp hgone).1
  rw [Tree.contains, lookup_discards, if_neg hkept, Option.isSome_map]
  rfl

theorem deliverEach_contains {t t' : Tree} {r : Except Failure (List Path)}
    (h : deliverEach Tree.fileSystem dir dest as t = (r, t')) (hq : t.contains q = true) :
    t'.contains q = true := by
  induction as generalizing t r with
  | nil =>
    obtain rfl : t = t' := (Prod.mk.inj h).2
    exact hq
  | cons a as ih =>
    rcases deliverEach_tree_cons h with ⟨rfl, -⟩ | ⟨bytes, r', -, -, hrest⟩
    · exact hq
    · exact ih hrest (Tree.contains_addFile _ bytes (.inr hq))

theorem deliver_contains {set : ArtifactSet} {t t' : Tree} {r : Except Failure (List Path)}
    (h : set.deliver Tree.fileSystem dir dest t = (r, t')) (hq : t.contains q = true) :
    t'.contains q = true := by
  rcases deliver_tree_cases h with ⟨-, rfl, -⟩ | ⟨-, hcopies⟩
  · exact hq
  · exact deliverEach_contains hcopies (Tree.contains_addDirectory _ hq)

end ArtifactSet

namespace ScriptedTool

variable {tool : ScriptedTool}

theorem contains_writeOutputs (name : String) {t : Tree} (hq : t.contains q = true) :
    (tool.writeOutputs name t).contains q = true := by
  unfold writeOutputs
  induction tool.artifacts.toList generalizing t with
  | nil => exact hq
  | cons a as ih =>
    rw [List.foldl_cons]
    apply ih
    split
    · exact hq
    · exact Tree.contains_addFile _ _ (.inr hq)

/-- A command takes nothing away. -/
theorem ends_contains (hs : tool.Steady) {c : Command} {e : Ending} {t t' : Tree}
    (h : tool.tool.Ends c t e t') (hq : t.contains q = true) : t'.contains q = true := by
  have h := ends_iff.mp h
  rw [run_of_steady hs] at h
  rcases perform_cases tool c t with ⟨t₁, hwork, hrun⟩ | ⟨e', hcode, hrun⟩
  · obtain ⟨rfl, rfl⟩ := Prod.mk.inj (hrun.symm.trans h)
    cases c with
    | configureFresh name target | retarget name target =>
      rw [setUp_ok hwork]
      exact Tree.contains_addFile _ _ (.inr (Tree.contains_addDirectory _ hq))
    | build name =>
      rw [← Except.ok.inj hwork]
      exact contains_writeOutputs name hq
  · obtain ⟨rfl, rfl⟩ := Prod.mk.inj (hrun.symm.trans h)
    exact hq

end ScriptedTool

/-! ## One board -/

/-- Only the marker and the target of the board before count for a plan. -/
theorem Workspace.plan_congr {ws ws' : Workspace} (hfresh : ws.fresh = ws'.fresh)
    (hprevious : ws.previous = ws'.previous) (b : Board) : ws.plan b = ws'.plan b := by
  unfold plan targetChanged
  rw [hfresh, hprevious]

namespace Matrix

variable {tool : ScriptedTool} {layout : Layout} (fits : tool.Fits layout)
  (hcache : layout.cache.components ∉ layout.artifacts.toList.map (Artifact.place layout.buildDir))
  {b : Board} {ws ws' : Workspace} {w w' : Observed Tree} {cs : List Command}
  {r : Option BoardResult}

theorem Collects.contains {r : BoardResult} (h : Collects Tree.fileSystem.observed layout b w r w')
    (hq : w.world.contains q = true) : w'.world.contains q = true := by
  have hfs := Tree.fileSystem.observed_over
  cases h with
  | leftOut missing => rwa [hfs.missing?_view missing]
  | notCopied complete deliver | delivered complete deliver =>
    refine ArtifactSet.deliver_contains ((hfs.deliver _ _ _).apply_eq deliver) ?_
    rwa [hfs.missing?_view complete]

include fits hcache

/-- Outputs can always be cleared in a tree, so a board that is set up is built; the marker stays
where it is. -/
theorem Builds.rehearsed
    (h : Builds Tree.fileSystem.observed tool.tool.observed layout b w cs r w')
    (hmarked : w.world.contains layout.cache.components = true) :
    cs = [.build b.name] ∧ w'.world.contains layout.cache.components = true := by
  have hfs := Tree.fileSystem.observed_over
  have hclear {w₁ : Observed Tree} {x : Except Failure Unit}
      (clear : layout.artifacts.clear Tree.fileSystem.observed layout.buildDir w = (x, w₁)) :
      w₁.world.contains layout.cache.components = true := by
    rw [(hfs.clear_view clear).2, ArtifactSet.contains_discards hcache]
    exact hmarked
  cases h with
  | notCleared clear => cases (hfs.clear_view clear).1
  | hung clear ends | failed clear ends =>
    exact ⟨rfl, ScriptedTool.ends_contains fits.steady ends.world (hclear clear)⟩
  | built clear ends code collects =>
    exact ⟨rfl, collects.contains (ScriptedTool.ends_contains fits.steady ends.world
      (hclear clear))⟩

/-- A turn whose set-up succeeds follows its plan to the end and leaves the marker. -/
theorem Turn.rehearsed (hfresh : ws.fresh = !w.world.contains layout.cache.components)
    (h : Turn Tree.fileSystem.observed tool.tool.observed layout ws b w cs r w')
    (smooth : Smooth (calls w'.events)) :
    cs = (ws.plan b).commands ∧ w'.world.contains layout.cache.components = true := by
  cases h with
  | asFound plan builds =>
    have hmarked : w.world.contains layout.cache.components = true := by
      simpa [(Workspace.previous_of_plan plan).1] using hfresh
    obtain ⟨rfl, hstays⟩ := builds.rehearsed fits hcache hmarked
    exact ⟨by rw [Plan.commands, plan]; rfl, hstays⟩
  | @hung c e _ plan ends code | @notSetUp c e n _ plan ends code =>
    -- a set-up that fails or hangs would show among the calls
    have hcall : (⟨c, w.world, e, w'.world⟩ : Call Tree) ∈ calls w'.events := by
      rw [ends.events, calls_append]
      exact List.mem_append_right _ (List.mem_singleton.mpr rfl)
    have hcode := (smooth _ hcall).2 (Workspace.isConfigure_of_plan plan)
    simp_all
  | @setUp c e w₁ cs r _ plan ends code builds =>
    have hplace : tool.cachePlace = layout.cache.components := by
      rw [ScriptedTool.cachePlace, fits.buildDir, fits.marker]
      rfl
    have htarget : c.target? = some b.target := by
      rcases Workspace.step_of_plan plan with rfl | rfl <;> rfl
    have hmarked : w₁.world.contains layout.cache.components = true := by
      rcases ScriptedTool.ends_configure fits.steady (Workspace.isConfigure_of_plan plan) htarget
        ends.world with ⟨-, hfile⟩ | ⟨hcode, -⟩
      · rw [← hplace]
        exact Tree.contains_of_file? hfile
      · exact absurd code hcode
    obtain ⟨rfl, hstays⟩ := builds.rehearsed fits hcache hmarked
    exact ⟨by rw [Plan.commands, plan]; rfl, hstays⟩

/-! ## All boards -/

/-- Turns follow the plans that start from the same marker and the same target before. -/
theorem Turns.rehearsed {paper : Workspace} {boards : List Board} {outs : List Outcome}
    (hdir : ws.directory = layout.buildDir)
    (hfresh : paper.fresh = !w.world.contains layout.cache.components)
    (hprevious : paper.previous = ws.previous)
    (h : Turns Tree.fileSystem.observed tool.tool.observed layout ws w boards cs outs true ws' w')
    (smooth : Smooth (calls w'.events)) :
    cs = (DryRun.plans paper boards).flatMap Prod.snd := by
  generalize hfin : true = fin at h
  induction h generalizing paper with
  | done => rfl
  | hung => cases hfin
  | @next ws w ws₁ w₁ b boards cs r w₂ cs' outs fin ws' w' look turn rest ih =>
    obtain ⟨es, -, hes, -⟩ := rest.runs
    have smooth₂ := smooth
    rw [hes, calls_append] at smooth₂
    obtain ⟨hworld, hws⟩ := Tree.fileSystem.observed_over.refresh_view look
    have hfresh₁ : ws₁.fresh = !w₁.world.contains layout.cache.components := by
      rw [hws, hdir, hworld]
      rfl
    have hplan : ws₁.plan b = paper.plan b := by
      refine Workspace.plan_congr ?_ ?_ b
      · rw [hfresh₁, hworld, hfresh]
      · rw [hws, hprevious]
    obtain ⟨rfl, hmarked⟩ := turn.rehearsed fits hcache hfresh₁ (smooth_append.mp smooth₂).1
    have hdir₁ : (ws₁.record b.target).directory = layout.buildDir :=
      (refresh_event look).1.trans hdir
    have hfresh₂ : (DryRun.after paper b).fresh = !w₂.world.contains layout.cache.components := by
      rw [hmarked]
      rfl
    have hrest := ih hdir₁ hfresh₂ rfl smooth hfin
    rw [DryRun.plans, List.flatMap_cons, hplan, hrest]

end Matrix

namespace DryRun

/-- The plans on paper, board by board. -/
theorem plans_eq_zip (paper : Workspace) (boards : List Board) :
    plans paper boards = boards.zip ((plans paper boards).map Prod.snd) := by
  induction boards generalizing paper with
  | nil => rfl
  | cons b boards ih => exact congrArg _ (ih (after paper b))

/-- The commands under a board are for that board. -/
theorem forall₂_plans (paper : Workspace) (boards : List Board) :
    List.Forall₂ (fun b cs => ∀ c ∈ cs, c.boardName = b.name) boards
      ((plans paper boards).map Prod.snd) := by
  induction boards generalizing paper with
  | nil => exact .nil
  | cons b boards ih =>
    refine .cons (fun c hc => ?_) (ih (after paper b))
    rcases List.mem_append.mp hc with hstep | hbuild
    · rcases Workspace.step_of_plan (Option.mem_toList.mp hstep) with rfl | rfl <;> rfl
    · rw [List.mem_singleton.mp hbuild]
      rfl

/-- The report is written line by line; no line of it has a style. -/
theorem written_print (s : Settings) (directory : Path) (boards : List Board) (colored : Bool) :
    (print s directory boards (Screen.blank .open colored)).written =
      Text.Utf8.encode ((lines s directory boards).flatMap fun line => (line ++ "\n").toList) := by
  have hlines : ((lines s directory boards).map Console.Message.plain).flatMap
      Console.Message.lines = (lines s directory boards).map (Console.Line.mk none) := by
    rw [List.flatMap_map]
    exact List.map_eq_flatMap.symm
  have hshown (line : String) : (Console.Line.mk none line).shown colored = line := by
    cases colored <;> rfl
  calc (print s directory boards (Screen.blank .open colored)).written
      = (((lines s directory boards).map Console.Message.plain).foldl (fun s m => m.report s)
          (Screen.blank .open colored)).written := by
        rw [List.foldl_map]
        rfl
    _ = ((lines s directory boards).map (Console.Line.mk none)).flatMap
          (Console.Line.bytes colored) := by
        rw [← hlines]
        exact Console.written_report _ none false colored
    _ = _ := by
        rw [Console.flatMap_bytes, List.flatMap_map]
        simp only [hshown]

end DryRun

namespace Matrix

/-- A run that starts without a marker, and in which every set-up succeeds and no command hangs,
hands over exactly the commands of the run on paper. The report on paper shows these and no other
commands, under the board that each is for, with its kind and the process that it would start. -/
theorem run_as_rehearsed (settings : Settings) (tool : ScriptedTool)
    (fits : tool.Fits (Launch.layoutOf settings))
    (hcache : (Launch.layoutOf settings).cache.components ∉
      settings.artifacts.artifacts.toList.map (Artifact.place settings.buildDir))
    (boards : List Board) (t : Tree)
    (absent : t.contains (Launch.layoutOf settings).cache.components = false) (screen : Screen) :
    let layout := Launch.layoutOf settings
    let start := begin Tree.fileSystem layout screen t
    let issued := (run Tree.fileSystem tool.tool layout boards start).2.issued.map Issued.command
    Smooth (callsOf Tree.fileSystem tool.tool layout boards start) →
      issued = DryRun.commands settings.buildDir boards ∧
      ∃ blocks : List (List Command), blocks.flatten = issued ∧
        List.Forall₂ (fun b cs => ∀ c ∈ cs, c.boardName = b.name) boards blocks ∧
        ∀ directory colored,
          (DryRun.print settings directory boards (Screen.blank .open colored)).written =
            Text.Utf8.encode ((DryRun.heading settings boards ++
              (boards.zip blocks).flatMap fun (b, cs) => DryRun.boardHeading settings b ++
                cs.map fun c => "      " ++ c.kind.name ++ ": " ++
                  (c.invocation settings.tool directory settings.buildDir).shown).flatMap
                fun line => (line ++ "\n").toList) := by
  intro layout start issued smooth
  have hprobe : (Workspace.probe Tree.fileSystem layout.buildDir layout.marker t).1 =
      DryRun.blank settings.buildDir := by
    have hnone : t.contains (layout.buildDir.child layout.marker).components = false := absent
    rw [probe_tree, hnone]
    rfl
  have hstart : start = ⟨t, DryRun.blank settings.buildDir, [], [], screen⟩ := by
    rw [← hprobe]
    exact begin_tree layout screen t
  have hissued : issued = DryRun.commands settings.buildDir boards := by
    have hviewed := run_observed Tree.fileSystem tool.tool layout boards start.watched
    rw [Session.viewed_watched] at hviewed
    obtain ⟨s₁, cs, outs, -, -, hturns, smooth₁, hcommands⟩ :=
      run_smooth (s := start.watched) (Prod.eta _).symm smooth
    have hcs : cs = DryRun.commands settings.buildDir boards := by
      rw [hstart] at hturns
      exact hturns.rehearsed fits hcache rfl (by rw [Session.watched, absent]; rfl) rfl smooth₁
    have hsame : issued = (run Tree.fileSystem.observed tool.tool.observed layout boards
        start.watched).2.issued.map Issued.command :=
      congrArg (fun ended => ended.2.issued.map Issued.command) hviewed
    rw [hsame, hcommands, hcs, hstart]
    rfl
  have hzip := DryRun.plans_eq_zip (DryRun.blank settings.buildDir) boards
  refine ⟨hissued, (DryRun.plans (DryRun.blank settings.buildDir) boards).map Prod.snd, ?_,
    DryRun.forall₂_plans _ boards, fun directory colored => ?_⟩
  · rw [hissued]
    rfl
  · rw [DryRun.written_print, ← hzip]
    rfl

/-- A build that fails and one that leaves an output out do not disturb the plan: the chip changes
once, at the last board. -/
theorem halves_as_rehearsed :
    let layout := Launch.layoutOf .default
    let boards := firstHalf ++ secondHalf
    let start := begin Tree.fileSystem layout (Screen.blank .open false) Tree.empty
    let issued := (run Tree.fileSystem clumsy.tool layout boards start).2.issued
    (Tree.empty.contains layout.cache.components = false ∧
      Smooth (callsOf Tree.fileSystem clumsy.tool layout boards start)) ∧
      issued.map Issued.command = DryRun.commands Settings.default.buildDir boards ∧
      (issued.map fun i => i.command.kind) =
        [.configureFresh, .build, .build, .build, .retarget, .build] ∧
      ∃ blocks : List (List Command), blocks.flatten = issued.map Issued.command ∧
        List.Forall₂ (fun b cs => ∀ c ∈ cs, c.boardName = b.name) boards blocks ∧
        (DryRun.print .default ⟨"/work"⟩ boards (Screen.blank .open true)).written =
          Text.Utf8.encode ((DryRun.heading .default boards ++
            (boards.zip blocks).flatMap fun (b, cs) => DryRun.boardHeading .default b ++
              cs.map fun c => "      " ++ c.kind.name ++ ": " ++
                (c.invocation "idf.py" ⟨"/work"⟩ ⟨"build"⟩).shown).flatMap
              fun line => (line ++ "\n").toList) := by
  have smooth : Smooth (callsOf Tree.fileSystem clumsy.tool (Launch.layoutOf .default)
      (firstHalf ++ secondHalf) (begin Tree.fileSystem (Launch.layoutOf .default)
        (Screen.blank .open false) Tree.empty)) := by
    decide +kernel
  obtain ⟨hissued, blocks, hflatten, hnames, hprinted⟩ :=
    run_as_rehearsed .default clumsy ⟨fun _ _ _ => rfl, rfl, rfl, rfl⟩ (by decide +kernel)
      (firstHalf ++ secondHalf) Tree.empty (by decide +kernel) (Screen.blank .open false) smooth
  exact ⟨⟨by decide +kernel, smooth⟩, hissued, by decide +kernel, blocks, hflatten, hnames,
    hprinted ⟨"/work"⟩ true⟩

end Matrix

end FirmwareMatrix
