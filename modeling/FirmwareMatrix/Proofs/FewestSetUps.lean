import FirmwareMatrix.Proofs.BoardOrder
import FirmwareMatrix.Proofs.Rehearsal
import Mathlib.Data.List.Perm.Subperm

/-! # The order of boards and the number of set-ups

Whatever the order, every target that occurs has to be set up once, if the directory starts out
empty. In ascending order boards of one target stand together, so once is enough: the first board
sets the directory up and each later board whose target is new switches it over. -/

namespace FirmwareMatrix

/-! ## Boards in ascending order -/

namespace Board

/-- In ascending order a target that occurred before is that of the board just before. -/
theorem mem_map_target_iff {init : List Board} {last b : Board}
    (sorted : (init ++ [last] ++ [b]).Pairwise fun a b =>
      (compare a.target b.target).isLE = true) :
    b.target ∈ (init ++ [last]).map target ↔ last.target = b.target := by
  obtain ⟨hbefore, -, hnext⟩ := List.pairwise_append.mp sorted
  have hnext : (compare last.target b.target).isLE = true := hnext last (by simp) b (by simp)
  have hlast : ∀ a ∈ init, (compare a.target last.target).isLE = true :=
    fun a ha => (List.pairwise_append.mp hbefore).2.2 a ha last (by simp)
  constructor
  · intro hmem
    obtain ⟨a, ha, htarget⟩ := List.mem_map.mp hmem
    rcases List.mem_append.mp ha with ha | ha
    · have hback := hlast a ha
      rw [htarget] at hback
      exact Std.LawfulEqCmp.eq_of_compare (Std.OrientedCmp.isLE_antisymm hnext hback)
    · rw [← htarget, List.mem_singleton.mp ha]
  · intro heq
    exact List.mem_map.mpr ⟨last, by simp, heq⟩

/-- The set-up step of a board that comes after `earlier` ones, if none of these is repeated: the
first board of all sets the directory up, and later ones switch it over if their target is new. -/
def setUpAfter (earlier : List Board) (b : Board) : Option Command :=
  if earlier.isEmpty then some (.configureFresh b.name b.target)
  else if b.target ∈ earlier.map target then none
  else some (.retarget b.name b.target)

/-- The commands of boards that come after `earlier` ones: each is built, after its set-up step. -/
def stepsAfter (earlier : List Board) : List Board → List Command
  | [] => []
  | b :: boards =>
    (setUpAfter earlier b).toList ++ .build b.name :: stepsAfter (earlier ++ [b]) boards

theorem isConfigure_setUpAfter {earlier : List Board} {b : Board} {c : Command}
    (h : setUpAfter earlier b = some c) : c.isConfigure = true := by
  unfold setUpAfter at h
  split at h
  · rw [← Option.some.inj h]
    rfl
  · split at h
    · cases h
    · rw [← Option.some.inj h]
      rfl

/-- A set-up step is for the board's own target, and there is one exactly if that is new. -/
theorem target?_setUpAfter (earlier : List Board) (b : Board) :
    (setUpAfter earlier b).toList.filterMap Command.target? =
      if b.target ∈ earlier.map target then [] else [b.target] := by
  cases earlier with
  | nil => rfl
  | cons a earlier =>
    simp only [setUpAfter, List.isEmpty_cons, Bool.false_eq_true, if_false]
    split <;> rfl

/-- Every board is built once. -/
theorem builds_stepsAfter (earlier boards : List Board) :
    (stepsAfter earlier boards).filter (fun c => !c.isConfigure) =
      boards.map fun b => .build b.name := by
  induction boards generalizing earlier with
  | nil => rfl
  | cons b boards ih =>
    have hsetUp : (setUpAfter earlier b).toList.filter (fun c => !c.isConfigure) = [] := by
      rw [List.filter_eq_nil_iff]
      intro c hc
      rw [isConfigure_setUpAfter (Option.mem_toList.mp hc)]
      simp
    rw [stepsAfter, List.filter_append, hsetUp, List.filter_cons_of_pos (by rfl), ih]
    rfl

/-- Every target is set up once, by the first board that has it. -/
theorem count_target_stepsAfter (earlier boards : List Board) (t : String) :
    ((stepsAfter earlier boards).filterMap Command.target?).count t =
      if t ∉ earlier.map target ∧ t ∈ boards.map target then 1 else 0 := by
  induction boards generalizing earlier with
  | nil => simp [stepsAfter]
  | cons b boards ih =>
    have hbuild : (Command.build b.name :: stepsAfter (earlier ++ [b]) boards).filterMap
        Command.target? = (stepsAfter (earlier ++ [b]) boards).filterMap Command.target? := rfl
    rw [stepsAfter, List.filterMap_append, hbuild, target?_setUpAfter, List.count_append, ih]
    by_cases hnew : b.target ∈ earlier.map target
    · grind
    · grind

end Board

/-! ## Plans on paper -/

namespace DryRun

/-- After boards in ascending order a board needs no set-up if one of them has its target. -/
theorem setUp_of_ascending {earlier : List Board} {b : Board} {w : Workspace}
    (hfresh : w.fresh = earlier.isEmpty)
    (hprevious : ∀ last, earlier.getLast? = some last → w.previous = some last.target)
    (sorted : (earlier ++ [b]).Pairwise fun a b => (compare a.target b.target).isLE = true) :
    (w.plan b).configure = b.setUpAfter earlier := by
  rcases List.eq_nil_or_concat' earlier with rfl | ⟨init, last, rfl⟩
  · simp [Workspace.plan, Board.setUpAfter, hfresh]
  · have hfresh : w.fresh = false := by rw [hfresh]; simp
    have hempty : (init ++ [last]).isEmpty = false := by simp
    simp only [Workspace.plan, Board.setUpAfter, Workspace.targetChanged, hfresh, hempty,
      hprevious last (by simp), Board.mem_map_target_iff sorted]
    simp

theorem plans_ascending {earlier boards : List Board} {w : Workspace}
    (hfresh : w.fresh = earlier.isEmpty)
    (hprevious : ∀ last, earlier.getLast? = some last → w.previous = some last.target)
    (sorted : (earlier ++ boards).Pairwise fun a b =>
      (compare a.target b.target).isLE = true) :
    (plans w boards).flatMap Prod.snd = Board.stepsAfter earlier boards := by
  induction boards generalizing earlier w with
  | nil => rfl
  | cons b boards ih =>
    rw [List.append_cons] at sorted
    have hsetUp := setUp_of_ascending hfresh hprevious (List.pairwise_append.mp sorted).1
    have hrest := ih (w := after w b) (by simp [after]) (by simp [after, Workspace.record]) sorted
    rw [plans, List.flatMap_cons, hrest, Board.stepsAfter, Plan.commands, hsetUp, List.append_assoc]
    rfl

/-- Every target is set up on paper, unless the directory is set up for it already. -/
theorem mem_target?_plans {w : Workspace} {boards : List Board} {b : Board} (hb : b ∈ boards) :
    b.target ∈ ((plans w boards).flatMap Prod.snd).filterMap Command.target? ∨
      w.fresh = false ∧ w.previous = some b.target := by
  induction boards generalizing w with
  | nil => cases hb
  | cons a boards ih =>
    have hfirst : a.target ∈ ((plans w (a :: boards)).flatMap Prod.snd).filterMap
        Command.target? ∨ w.fresh = false ∧ w.previous = some a.target := by
      cases hplan : (w.plan a).configure with
      | none => exact .inr (Workspace.previous_of_plan hplan)
      | some c =>
        have htarget : c.target? = some a.target := by
          rcases Workspace.step_of_plan hplan with rfl | rfl <;> rfl
        refine .inl (List.mem_filterMap.mpr ⟨c, ?_, htarget⟩)
        simp [plans, Plan.commands, hplan]
    rcases List.mem_cons.mp hb with rfl | hb
    · exact hfirst
    · rcases ih (w := after w a) hb with hmem | ⟨-, hsame⟩
      · refine .inl ?_
        rw [plans, List.flatMap_cons, List.filterMap_append]
        exact List.mem_append_right _ hmem
      · -- what is not set up again has the target of the board just done
        rw [← Option.some.inj hsame]
        exact hfirst

/-- From an empty directory every target is set up. -/
theorem targets_subset (buildDir : Path) (boards : List Board) :
    boards.map Board.target ⊆ (commands buildDir boards).filterMap Command.target? := by
  intro t ht
  obtain ⟨b, hb, rfl⟩ := List.mem_map.mp ht
  rcases mem_target?_plans (w := blank buildDir) hb with hmem | ⟨hfresh, -⟩
  · exact hmem
  · cases hfresh

end DryRun

/-! ## Runs -/

theorem Command.countP_isConfigure (cs : List Command) :
    cs.countP isConfigure = (cs.filterMap target?).length := by
  rw [List.length_filterMap_eq_countP]
  congr 1
  funext c
  cases c <;> rfl

namespace Matrix

/-- The commands handed over by a run that starts from `start`. -/
def commandsOf (tool : ScriptedTool) (layout : Layout) (boards : List Board)
    (start : Session Tree) : List Command :=
  (run Tree.fileSystem tool.tool layout boards start).2.issued.map Issued.command

/-- A run that starts without a marker, which is no output, with a tool made for the same
directory, and in which every set-up succeeds and no command hangs. -/
structure Unhindered (tool : ScriptedTool) (layout : Layout) (boards : List Board)
    (start : Session Tree) : Prop where
  fits : tool.Fits layout
  cache : layout.cache.components ∉
    layout.artifacts.toList.map (Artifact.place layout.buildDir)
  directory : start.workspace.directory = layout.buildDir
  issued : start.issued = []
  absent : start.world.contains layout.cache.components = false
  smooth : Smooth (callsOf Tree.fileSystem tool.tool layout boards start)

variable {tool : ScriptedTool} {layout : Layout} {boards : List Board} {start : Session Tree}

/-- Whatever the workspace remembers of another run, such a run goes as it does on paper. -/
theorem Unhindered.commands_eq (h : Unhindered tool layout boards start) :
    commandsOf tool layout boards start = DryRun.commands layout.buildDir boards := by
  have hviewed := run_observed Tree.fileSystem tool.tool layout boards start.watched
  rw [Session.viewed_watched] at hviewed
  obtain ⟨s₁, cs, outs, -, -, hturns, smooth, hcommands⟩ :=
    run_smooth (s := start.watched) (Prod.eta _).symm h.smooth
  have hcs : cs = (DryRun.plans ⟨layout.buildDir, true, start.workspace.previous⟩
      boards).flatMap Prod.snd :=
    hturns.rehearsed h.fits h.cache h.directory (by rw [Session.watched, h.absent]; rfl) rfl smooth
  have hsame : commandsOf tool layout boards start =
      (run Tree.fileSystem.observed tool.tool.observed layout boards
        start.watched).2.issued.map Issued.command :=
    congrArg (fun ended => ended.2.issued.map Issued.command) hviewed
  have hstart : start.watched.issued = [] := h.issued
  rw [hsame, hcommands, hcs, hstart]
  cases boards <;> rfl

/-- In ascending order every board is built once and every target is set up once, by the first
board that has it; in no other order are there fewer set-ups. -/
theorem ascending_sets_up_least (h : Unhindered tool layout boards start)
    (sorted : boards.Pairwise fun a b => (compare a b).isLE = true) :
    let issued := commandsOf tool layout boards start
    issued = Board.stepsAfter [] boards ∧
      issued.filter (fun c => !c.isConfigure) = boards.map (fun b => .build b.name) ∧
      (∀ target, (issued.filterMap Command.target?).count target =
        if target ∈ boards.map Board.target then 1 else 0) ∧
      ∀ (tool' : ScriptedTool) (layout' : Layout) (boards' : List Board) (start' : Session Tree),
        boards'.Perm boards → Unhindered tool' layout' boards' start' →
        issued.countP Command.isConfigure ≤
          (commandsOf tool' layout' boards' start').countP Command.isConfigure := by
  intro issued
  have hsteps : issued = Board.stepsAfter [] boards :=
    h.commands_eq.trans (DryRun.plans_ascending rfl (by simp) (sorted.imp Board.target_le_of_le))
  have hcount (target : String) : (issued.filterMap Command.target?).count target =
      if target ∈ boards.map Board.target then 1 else 0 := by
    rw [hsteps, Board.count_target_stepsAfter]
    simp
  refine ⟨hsteps, hsteps ▸ Board.builds_stepsAfter [] boards, hcount,
    fun tool' layout' boards' start' hperm h' => ?_⟩
  rw [Command.countP_isConfigure, Command.countP_isConfigure, h'.commands_eq]
  have hnodup : (issued.filterMap Command.target?).Nodup := by
    rw [List.nodup_iff_count]
    intro target
    rw [hcount]
    split <;> omega
  -- each target set up here occurs among the boards, in whichever order these are taken
  have hsubset : issued.filterMap Command.target? ⊆
      (DryRun.commands layout'.buildDir boards').filterMap Command.target? := by
    intro target htarget
    apply DryRun.targets_subset
    rw [(hperm.map Board.target).mem_iff]
    have hpos := List.count_pos_iff.mpr htarget
    rw [hcount] at hpos
    split at hpos
    · assumption
    · omega
  exact (hnodup.subperm hsubset).length_le

/-- The boards of both halves, with the one for another chip moved between the others. -/
def interleaved : List Board := firstHalf.take 1 ++ secondHalf.reverse ++ firstHalf.drop 1

/-- A failed build and a missing output cost no set-up; the other order costs one more. -/
theorem halves_set_up_least :
    let layout := Launch.layoutOf .default
    let start := begin Tree.fileSystem layout (Screen.blank .open false) Tree.empty
    let issued := commandsOf clumsy layout (firstHalf ++ secondHalf) start
    Unhindered clumsy layout (firstHalf ++ secondHalf) start ∧
      ((firstHalf ++ secondHalf).Pairwise fun a b => (compare a b).isLE = true) ∧
      interleaved.Perm (firstHalf ++ secondHalf) ∧
      Unhindered clumsy layout interleaved start ∧
      issued = [.configureFresh "A" "esp32c3", .build "A", .build "B", .build "C",
        .retarget "D" "esp32s3", .build "D"] ∧
      issued.countP Command.isConfigure ≤
        (commandsOf clumsy layout interleaved start).countP Command.isConfigure ∧
      (commandsOf clumsy layout interleaved start).countP Command.isConfigure = 3 := by
  have fits : clumsy.Fits (Launch.layoutOf .default) := ⟨fun _ _ _ => rfl, rfl, rfl, rfl⟩
  have hsorted : (firstHalf ++ secondHalf).Pairwise fun a b => (compare a b).isLE = true := by
    decide +kernel
  have hperm : interleaved.Perm (firstHalf ++ secondHalf) :=
    .cons _ (.trans (.swap _ _ _) (.trans (.cons _ (.swap _ _ _)) (.swap _ _ _)))
  have h : Unhindered clumsy (Launch.layoutOf .default) (firstHalf ++ secondHalf)
      (begin Tree.fileSystem (Launch.layoutOf .default) (Screen.blank .open false) Tree.empty) :=
    ⟨fits, by decide +kernel, rfl, rfl, by decide +kernel, by decide +kernel⟩
  have h' : Unhindered clumsy (Launch.layoutOf .default) interleaved
      (begin Tree.fileSystem (Launch.layoutOf .default) (Screen.blank .open false) Tree.empty) :=
    ⟨fits, by decide +kernel, rfl, rfl, by decide +kernel, by decide +kernel⟩
  have hleast := ascending_sets_up_least h hsorted
  refine ⟨h, hsorted, hperm, h', hleast.1, hleast.2.2.2 _ _ _ _ hperm h', ?_⟩
  rw [h'.commands_eq]
  rfl

end Matrix

end FirmwareMatrix
