import FirmwareMatrix.Proofs.Protocol
import FirmwareMatrix.Proofs.Scripted

/-! # Which target the build directory is set up for

The workspace remembers the target of the board before, whatever came of that board's set-up, and
the cache holds the target of the last set-up that succeeded. The two agree, and a build finds its
own target in the cache, exactly if the last set-up before it succeeded or had nothing to do. -/

namespace FirmwareMatrix

/-- The cache at a path names a target. -/
def ConfiguredFor (t : Tree) (cache : Path) (target : String) : Prop :=
  ∃ text, t.readText cache = .ok text ∧ cachedTarget? text = some target

instance (t : Tree) (cache : Path) (target : String) : Decidable (ConfiguredFor t cache target) :=
  match h : t.readText cache with
  | .ok text =>
    decidable_of_iff (cachedTarget? text = some target) (by simp [ConfiguredFor, h])
  | .error _ => .isFalse (by simp [ConfiguredFor, h])

theorem readText_eq_ok {t : Tree} {p : Path} {text : String} :
    t.readText p = .ok text ↔ ∃ bytes cs, t.file? p.components = some bytes ∧
      Text.Utf8.decode bytes = .ok cs ∧ String.ofList cs = text := by
  unfold Tree.readText Tree.file?
  cases t.lookup p.components with
  | none => simp
  | some node =>
    cases node with
    | directory names => simp
    | file bytes =>
      dsimp only
      split <;> simp_all

/-- Only the file at the path counts. -/
theorem configuredFor_congr {t t' : Tree} {cache : Path} {target : String}
    (h : t'.file? cache.components = t.file? cache.components) :
    ConfiguredFor t' cache target ↔ ConfiguredFor t cache target := by
  simp only [ConfiguredFor, readText_eq_ok, h]

/-- A cache text shows the target whole: name and target stay on their lines, and no blank at
the end is lost. -/
def Board.Legible (b : Board) : Prop :=
  '\n' ∉ b.name.toList ∧ b.target ≠ "" ∧ '\n' ∉ b.target.toList ∧
    ∀ c ∈ b.target.toList.getLast?, Text.isBlank c = false

instance (b : Board) : Decidable b.Legible :=
  decidable_of_iff ('\n' ∉ b.name.toList ∧ b.target ≠ "" ∧ '\n' ∉ b.target.toList ∧
    b.target.toList.getLast?.all (fun c => !Text.isBlank c) = true) (by simp [Board.Legible, Option.all_eq_true])

/-- The text of a set-up names the target that it was for. -/
theorem configuredFor_cacheText {t : Tree} {cache : Path} {b : Board} (hb : b.Legible)
    (h : t.file? cache.components =
      some (ScriptedTool.textBytes (ScriptedTool.cacheText b.name b.target))) :
    ConfiguredFor t cache b.target := by
  obtain ⟨hname, htarget, hnewline, hlast⟩ := hb
  have hread : t.readText cache = .ok (ScriptedTool.cacheText b.name b.target) :=
    readText_eq_ok.mpr ⟨_, (ScriptedTool.cacheText b.name b.target).toList, h,
      Text.Utf8.decode_encode _, String.ofList_toList⟩
  exact ⟨_, hread, ScriptedTool.cachedTarget?_cacheText hname htarget hnewline hlast⟩

/-- Nothing has been set up, or the last set-up succeeded or found its target in the cache. -/
def Settled (cache : Path) (target : String) (hist : List (Call Tree)) : Prop :=
  ∀ c, (hist.filter fun c => c.command.isConfigure).getLast? = some c →
    c.ending.code? = some 0 ∨ ConfiguredFor c.before cache target

section Settled

variable {cache : Path} {target : String} {hist : List (Call Tree)}

theorem settled_nil : Settled cache target [] := by
  intro c hc
  cases hc

theorem settled_append_configure {c : Call Tree} (hc : c.command.isConfigure = true) :
    Settled cache target (hist ++ [c]) ↔
      c.ending.code? = some 0 ∨ ConfiguredFor c.before cache target := by
  simp [Settled, List.filter_append, hc]

/-- Builds do not count. -/
theorem settled_append_builds {cs : List (Call Tree)}
    (hcs : ∀ c ∈ cs, c.command.isConfigure = false) :
    Settled cache target (hist ++ cs) ↔ Settled cache target hist := by
  have hnone : cs.filter (fun c => c.command.isConfigure) = [] :=
    List.filter_eq_nil_iff.mpr fun c hc => by simp [hcs c hc]
  rw [Settled, Settled, List.filter_append, hnone, List.append_nil]

end Settled

/-- The tool works where the run expects it to, with the same cache and outputs. -/
structure ScriptedTool.Fits (tool : ScriptedTool) (layout : Layout) : Prop where
  steady : tool.Steady
  buildDir : tool.buildDir = layout.buildDir
  marker : tool.marker = layout.marker
  artifacts : tool.artifacts = layout.artifacts

def Layout.cache (layout : Layout) : Path := layout.buildDir.child layout.marker

/-- The cache is no path of an output: not one that the tool writes, and not one that an output of
these boards is delivered to. -/
structure Layout.CacheApart (layout : Layout) (boards : List Board) : Prop where
  place : layout.cache.components ∉ layout.artifacts.toList.map (Artifact.place layout.buildDir)
  goal : ∀ b ∈ boards, layout.cache.components ∉
    layout.artifacts.toList.map (Artifact.goal (Matrix.destination layout b))

/-- Name and target leave no doubt in a cache text. -/
def Board.Cacheable (b : Board) : Prop :=
  '\n' ∉ b.name.toList ∧ b.target ≠ "" ∧ ∀ c ∈ b.target.toList, Text.isBlank c = false

instance (b : Board) : Decidable b.Cacheable :=
  decidable_of_iff ('\n' ∉ b.name.toList ∧ b.target ≠ "" ∧
    b.target.toList.all (fun c => !Text.isBlank c) = true) (by simp [Board.Cacheable])

theorem Board.Cacheable.legible {b : Board} (h : b.Cacheable) : b.Legible := by
  obtain ⟨hname, htarget, hblank⟩ := h
  have hnewline : Text.isBlank '\n' ≠ false := by decide
  exact ⟨hname, htarget, fun hmem => hnewline (hblank _ hmem),
    fun c hc => hblank c (List.mem_of_getLast? hc)⟩

theorem Board.isAbsolute_directoryName (b : Board) :
    (Path.mk b.directoryName).isAbsolute = false := by
  refine Path.isAbsolute_of_not_mem ?_
  unfold directoryName
  split
  · simp
  · simp only [String.toList_ofList, List.mem_map, not_exists, not_and]
    intro c _ hc
    split at hc
    · cases hc
    · next hs => exact hs (.inl hc)

namespace Layout.CacheApart

variable {layout : Layout} {boards : List Board}

/-- Where outputs are delivered under plain file names, whatever a board is called, the copies lie
in the output directory. -/
theorem of_outside
    (place : layout.cache.components ∉ layout.artifacts.toList.map (Artifact.place layout.buildDir))
    (outside : ¬ layout.outputDir.components <+: layout.cache.components)
    (hname : ∀ a ∈ layout.artifacts.toList, Path.IsName a.deliveredAs) :
    layout.CacheApart boards where
  place := place
  goal b _ hmem := by
    obtain ⟨a, ha, he⟩ := List.mem_map.mp hmem
    have hout : layout.outputDir.components ≠ [] := fun hnil => outside (hnil ▸ List.nil_prefix)
    apply outside
    rw [← he, Artifact.goal, Path.components_child (hname a ha), Matrix.destination, Path.child,
      Path.components_join (Path.isEmpty_of_components hout) b.isAbsolute_directoryName,
      List.append_assoc]
    exact List.prefix_append _ _

theorem of_subset {boards' : List Board} (h : layout.CacheApart boards) (hsub : boards' ⊆ boards) :
    layout.CacheApart boards' :=
  ⟨h.place, fun b hb => h.goal b (hsub hb)⟩

end Layout.CacheApart

/-! ## One turn -/

/-- The cache names the target that is remembered exactly if the commands so far settled it. -/
def Remembers (cache : Path) (ws : Workspace) (t : Tree) (hist : List (Call Tree)) : Prop :=
  ∀ target, ws.previous = some target → (ConfiguredFor t cache target ↔ Settled cache target hist)

namespace Matrix

variable {tool : ScriptedTool} {layout : Layout} (fits : tool.Fits layout)
  {boards : List Board} (apart : layout.CacheApart boards) {b : Board} (hmem : b ∈ boards)
  {w w' : Observed Tree} {cs : List Command} {r : Option BoardResult}

include fits apart hmem

/-- From clearing on, the cache stays as it is, and only a build is run. -/
theorem Builds.cache_eq
    (h : Builds Tree.fileSystem.observed tool.tool.observed layout b w cs r w') :
    ∃ es, w'.events = w.events ++ es ∧
      (∀ c ∈ calls es, c.command.isConfigure = false ∧
        c.before.file? layout.cache.components = w.world.file? layout.cache.components) ∧
      w'.world.file? layout.cache.components = w.world.file? layout.cache.components := by
  have hfs := Tree.fileSystem.observed_over
  have hclear {w w' : Observed Tree} {x : Except Failure Unit}
      (h : layout.artifacts.clear Tree.fileSystem.observed layout.buildDir w = (x, w')) :
      w'.world.file? layout.cache.components = w.world.file? layout.cache.components :=
    (hfs.clear_file? h _).trans (if_neg apart.place)
  have hbuild {w w' : Observed Tree} {e : Ending}
      (h : tool.tool.observed.Ends (.build b.name) w e w') :
      w'.world.file? layout.cache.components = w.world.file? layout.cache.components :=
    ScriptedTool.ends_build fits.steady h.world
      (by rw [fits.artifacts, fits.buildDir]; exact apart.place)
  cases h with
  | notCleared clear => cases (hfs.clear_view clear).1
  | hung clear ends | failed clear ends =>
    obtain ⟨es, hes, -, hq⟩ := clear_quiet clear
    refine ⟨es ++ [.ran _], by rw [ends.events, hes, List.append_assoc], ?_,
      (hbuild ends).trans (hclear clear)⟩
    rw [hq.calls_ran .nil, List.forall_mem_singleton]
    exact ⟨rfl, hclear clear⟩
  | @built w₁ e w₂ r _ clear ends code collects =>
    obtain ⟨es, hes, -, hq⟩ := clear_quiet clear
    obtain ⟨es', hes', hq'⟩ := collects.quiet
    refine ⟨es ++ .ran ⟨.build b.name, w₁.world, e, w₂.world⟩ :: es', ?_, ?_, ?_⟩
    · rw [hes', ends.events, hes, List.append_assoc, List.append_assoc]
      rfl
    · rw [hq.calls_ran hq', List.forall_mem_singleton]
      exact ⟨rfl, hclear clear⟩
    · rw [collects.file?_eq hfs (apart.goal b hmem), hbuild ends, hclear clear]

omit apart hmem in
/-- A set-up leaves the board's target in the cache or the tree as it was. -/
theorem configure_cases {ws : Workspace} {c : Command} {e : Ending} (hb : b.Legible)
    (plan : (ws.plan b).configure = some c) (ends : tool.tool.observed.Ends c w e w') :
    e.code? = some 0 ∧ ConfiguredFor w'.world layout.cache b.target ∨
      e.code? ≠ some 0 ∧ w'.world = w.world := by
  have hplace : tool.cachePlace = layout.cache.components := by
    rw [ScriptedTool.cachePlace, fits.buildDir, fits.marker]
    rfl
  obtain ⟨hconf, hname, htarget⟩ : c.isConfigure = true ∧ c.boardName = b.name ∧
      c.target? = some b.target := by
    rcases Workspace.step_of_plan plan with rfl | rfl <;> exact ⟨rfl, rfl, rfl⟩
  rcases ScriptedTool.ends_configure fits.steady hconf htarget ends.world with
    ⟨hcode, hcache⟩ | hfailed
  · rw [hplace, hname] at hcache
    exact .inl ⟨hcode, configuredFor_cacheText hb hcache⟩
  · exact .inr hfailed

/-- A turn remembers rightly what it did, and its build finds the target in the cache exactly if
the commands before it settled that. -/
theorem Turn.remembers {ws : Workspace} {hist : List (Call Tree)} (hb : b.Legible)
    (hrem : Remembers layout.cache ws w.world hist)
    (h : Turn Tree.fileSystem.observed tool.tool.observed layout ws b w cs r w') :
    ∃ es, w'.events = w.events ++ es ∧
      Remembers layout.cache (ws.record b.target) w'.world (hist ++ calls es) ∧
      ∀ c ∈ calls es, c.command.isConfigure = false →
        (ConfiguredFor c.before layout.cache b.target ↔
          Settled layout.cache b.target (hist ++ calls es)) := by
  cases h with
  | asFound plan builds =>
    obtain ⟨es, hes, hcalls, hcache⟩ := builds.cache_eq fits apart hmem
    have hkey := hrem b.target (Workspace.previous_of_plan plan).2
    have hsettled (target : String) : Settled layout.cache target (hist ++ calls es) ↔
        Settled layout.cache target hist := settled_append_builds fun c hc => (hcalls c hc).1
    refine ⟨es, hes, ?_, fun c hc _ => ?_⟩
    · rintro target ⟨⟩
      rw [configuredFor_congr hcache, hsettled, hkey]
    · rw [configuredFor_congr (hcalls c hc).2, hsettled, hkey]
  | @hung c e _ plan ends code | @notSetUp c e _ _ plan ends code =>
    have hconf := Workspace.isConfigure_of_plan plan
    refine ⟨[.ran ⟨c, w.world, e, w'.world⟩], ends.events, ?_, ?_⟩
    · rintro target ⟨⟩
      rw [calls_ran]
      refine Iff.trans ?_ (settled_append_configure hconf).symm
      rcases configure_cases fits hb plan ends with ⟨hcode, -⟩ | ⟨hcode, hworld⟩
      · simp_all
      · rw [hworld]
        exact (or_iff_right hcode).symm
    · intro c' hc' hbuild
      rw [List.mem_singleton.mp hc'] at hbuild
      exact absurd hconf (by simp [hbuild])
  | @setUp c e w₁ _ _ _ plan ends code builds =>
    have hconf := Workspace.isConfigure_of_plan plan
    obtain ⟨es, hes, hcalls, hcache⟩ := builds.cache_eq fits apart hmem
    have hfound : ConfiguredFor w₁.world layout.cache b.target := by
      rcases configure_cases fits hb plan ends with ⟨-, hfound⟩ | ⟨hcode, -⟩
      · exact hfound
      · exact absurd code hcode
    have hsettled : Settled layout.cache b.target
        (hist ++ calls (.ran ⟨c, w.world, e, w₁.world⟩ :: es)) := by
      rw [calls_ran, ← List.singleton_append, ← List.append_assoc,
        settled_append_builds fun c hc => (hcalls c hc).1, settled_append_configure hconf]
      exact .inl code
    refine ⟨.ran ⟨c, w.world, e, w₁.world⟩ :: es, ?_, ?_, fun c' hc' hbuild => ?_⟩
    · rw [hes, ends.events, List.append_assoc, List.singleton_append]
    · rintro target ⟨⟩
      exact iff_of_true ((configuredFor_congr hcache).mpr hfound) hsettled
    · rw [calls_ran] at hc'
      rcases List.mem_cons.mp hc' with rfl | hc'
      · exact absurd hconf (by simp [hbuild])
      · exact iff_of_true ((configuredFor_congr (hcalls c' hc').2).mpr hfound) hsettled

/-! ## A whole run -/

/-- The build of a block finds its target in the cache exactly if the set-ups up to it, after
`hist`, settled that. -/
def Block.FindsTarget (cache : Path) (hist : List (Call Tree)) (k : Block Tree) : Prop :=
  ∀ call, k.build = some call → (ConfiguredFor call.before cache k.board.target ↔
    Settled cache k.board.target (hist ++ k.setUp.toList))

theorem Turn.findsTarget {ws ws' : Workspace} {w₁ : Observed Tree} {hist : List (Call Tree)}
    (hb : b.Cacheable) (hdir : ws.directory = layout.buildDir)
    (hrem : Remembers layout.cache ws w.world hist)
    (look : ws.refresh Tree.fileSystem.observed layout.marker w = (ws', w₁))
    (turn : Turn Tree.fileSystem.observed tool.tool.observed layout ws' b w₁ cs r w') :
    ∃ k : Block Tree, k.board = b ∧ k.previous = ws.previous ∧ k.result = r ∧
      w'.events = w.events ++ k.events ∧ k.Sound layout.outputs layout.cache ∧
      Remembers layout.cache (ws'.record b.target) w'.world (hist ++ k.calls) ∧
      k.FindsTarget layout.cache hist := by
  obtain ⟨k, hkb, hp, hr, hevents, hsound⟩ := turn.block look
  have hcache : ws.directory.child layout.marker = layout.cache := by rw [hdir]; rfl
  rw [hcache] at hsound
  obtain ⟨hworld, hws⟩ := Tree.fileSystem.observed_over.refresh_view look
  have hrem₁ : Remembers layout.cache ws' w₁.world hist := by
    rw [hws, hworld]
    exact hrem
  obtain ⟨es, hes, hrem₂, hfinds⟩ := turn.remembers fits apart hmem hb.legible hrem₁
  have hcalls : calls es = k.calls := by
    rw [(refresh_event look).2.2, List.append_assoc, hevents] at hes
    rw [← hsound.calls_eq, List.append_cancel_left hes]
    rfl
  rw [hcalls] at hrem₂ hfinds
  refine ⟨k, hkb, hp, hr, hevents, hsound, hrem₂, fun call hcall => ?_⟩
  have hbuild : ∀ c ∈ k.build.toList, c.command.isConfigure = false := by
    intro c hc
    have hcmd := hsound.build_eq
    rw [Option.mem_toList.mp hc] at hcmd
    split at hcmd
    · rw [Option.some.inj hcmd]
      rfl
    · cases hcmd
  have hmem : call ∈ k.build.toList := Option.mem_toList.mpr hcall
  rw [hkb, hfinds call (List.mem_append_right _ hmem) (hbuild call hmem), Block.calls,
    ← List.append_assoc, settled_append_builds hbuild]

omit fits apart hmem in
theorem forall_split_cons {P : List (Block Tree) → Block Tree → Prop} {k : Block Tree}
    {blocks : List (Block Tree)} (hk : P [] k)
    (h : ∀ ks k' ks', blocks = ks ++ k' :: ks' → P (k :: ks) k') :
    ∀ ks k' ks', k :: blocks = ks ++ k' :: ks' → P ks k' := by
  intro ks k' ks' he
  cases ks with
  | nil =>
    obtain ⟨rfl, -⟩ := List.cons.inj he
    exact hk
  | cons k₀ ks =>
    obtain ⟨rfl, htail⟩ := List.cons.inj he
    exact h ks k' ks' htail

omit apart hmem in
theorem Turns.findTargets {ws ws' : Workspace} {boards : List Board}
    (apart : layout.CacheApart boards) {outs : List Outcome} {fin : Bool} {hist : List (Call Tree)}
    (hboards : ∀ b ∈ boards, b.Cacheable)
    (hdir : ws.directory = layout.buildDir) (hrem : Remembers layout.cache ws w.world hist)
    (h : Turns Tree.fileSystem.observed tool.tool.observed layout ws w boards cs outs fin ws' w') :
    ∃ events blocks, w'.events = w.events ++ events ∧
      Runs layout.outputs layout.cache ws.previous boards fin events outs blocks ∧
      ∀ ks k ks', blocks = ks ++ k :: ks' →
        k.FindsTarget layout.cache (hist ++ ks.flatMap Block.calls) := by
  induction h generalizing hist with
  | done => exact ⟨[], [], (List.append_nil _).symm, .nil _ _ _, by simp⟩
  | hung look turn =>
    obtain ⟨k, hkb, hp, hr, hevents, hsound, -, hfinds⟩ :=
      turn.findsTarget fits apart List.mem_cons_self (hboards _ List.mem_cons_self) hdir hrem look
    exact ⟨k.events, [k], hevents, hp ▸ .hang hkb hr hsound,
      forall_split_cons (by simpa using hfinds) (by simp)⟩
  | @next ws w ws₁ w₁ b boards cs r w₂ cs' outs fin ws' w' look turn rest ih =>
    obtain ⟨hb, hrest⟩ := List.forall_mem_cons.mp hboards
    obtain ⟨k, hkb, hp, hr, hevents, hsound, hrem₂, hfinds⟩ :=
      turn.findsTarget fits apart List.mem_cons_self hb hdir hrem look
    have hdir₁ : (ws₁.record b.target).directory = layout.buildDir :=
      (refresh_event look).1.trans hdir
    obtain ⟨events, blocks, hevents', hruns, hall⟩ :=
      ih (apart.of_subset (List.subset_cons_self b boards)) hrest hdir₁ hrem₂
    refine ⟨k.events ++ events, k :: blocks, by rw [hevents', hevents, List.append_assoc],
      hp ▸ .cons hkb hr hsound hruns,
      forall_split_cons (by simpa using hfinds) fun ks k' ks' he => ?_⟩
    rw [List.flatMap_cons, ← List.append_assoc]
    exact hall ks k' ks' he

end Matrix

theorem probe_tree (dir : Path) (marker : String) (t : Tree) :
    Workspace.probe Tree.fileSystem dir marker t =
      if t.contains (dir.child marker).components then
        match t.readText (dir.child marker) with
        | .ok text => (⟨dir, false, cachedTarget? text⟩, t)
        | .error _ => (⟨dir, false, none⟩, t)
      else (⟨dir, true, none⟩, t) := by
  simp only [Workspace.probe, StateM.bind_apply, Tree.fileSystem]
  cases t.contains (dir.child marker).components with
  | false => rfl
  | true =>
    simp only [if_true, StateM.bind_apply]
    cases t.readText (dir.child marker) <;> rfl

theorem directory_probe (dir : Path) (marker : String) (t : Tree) :
    (Workspace.probe Tree.fileSystem dir marker t).1.directory = dir := by
  rw [probe_tree]
  split
  · split <;> rfl
  · rfl

/-- What a session begins with is what the cache names. -/
theorem remembers_probe (dir : Path) (marker : String) (t : Tree) :
    Remembers (dir.child marker) (Workspace.probe Tree.fileSystem dir marker t).1 t [] := by
  intro target htarget
  rw [probe_tree] at htarget
  refine iff_of_true ?_ settled_nil
  split at htarget
  · split at htarget
    · next text hread => exact ⟨text, hread, htarget⟩
    · cases htarget
  · cases htarget

namespace Matrix

/-- A build finds its own target in the cache exactly if the last set-up before it, if there was
one, succeeded or found that target there: a set-up that fails is remembered as if it had not. -/
theorem run_finds_target_iff (layout : Layout) (tool : ScriptedTool) (fits : tool.Fits layout)
    (boards : List Board) (apart : layout.CacheApart boards) (hboards : ∀ b ∈ boards, b.Cacheable)
    (t : Tree) (screen : Screen) :
    let ws := (Workspace.probe Tree.fileSystem layout.buildDir layout.marker t).1
    let ended := run Tree.fileSystem.observed tool.tool.observed layout boards
      (unbegun ws t screen)
    ∃ blocks, KeepsProtocol layout.outputs layout.cache ws.previous boards ended.1 ended.2 blocks ∧
      ∀ ks k ks', blocks = ks ++ k :: ks' →
        k.FindsTarget layout.cache (ks.flatMap Block.calls) := by
  intro ws ended
  cases h : run Tree.fileSystem.observed tool.tool.observed layout boards
      (unbegun ws t screen) with
  | mk summary s =>
    have hended : ended = (summary, s) := h
    rw [hended]
    obtain ⟨s₁, hfrom, hend⟩ := run_eq h
    obtain ⟨cs, outs, hturns, houts, -⟩ := runFrom_turns hfrom
    have hrem : Remembers layout.cache ws t [] := remembers_probe _ _ t
    obtain ⟨events, blocks, hevents, hruns, hfinds⟩ := hturns.findTargets fits apart hboards
      (directory_probe _ _ t) hrem
    obtain rfl : s₁.world.events = events := hevents
    obtain rfl : s₁.outcomes = outs := houts
    refine ⟨blocks, hruns.keepsProtocol hend, fun ks k ks' he => ?_⟩
    exact hfinds ks k ks' he

/-- A tool that is in a directory set up for another chip and cannot set it up for board `A`. -/
def stubborn : ScriptedTool :=
  { ScriptedTool.willing Settings.default with
    exitCode := fun kind name => if kind = .retarget ∧ name = "A" then 1 else 0 }

/-- Two boards of one chip. -/
def twins : List Board := [⟨"A", "esp32c3", ⟨"hw_a.h"⟩⟩, ⟨"B", "esp32c3", ⟨"hw_b.h"⟩⟩]

/-- A build directory that was set up for a third board of another chip. -/
def setUpElsewhere : Tree :=
  Tree.empty.addFile (Launch.layoutOf .default).cache.components
    (ScriptedTool.textBytes (ScriptedTool.cacheText "C" "esp32s3"))

theorem twins_find_target_iff :
    let layout := Launch.layoutOf .default
    let ws := (Workspace.probe Tree.fileSystem layout.buildDir layout.marker setUpElsewhere).1
    let ended := run Tree.fileSystem.observed stubborn.tool.observed layout twins
      (unbegun ws setUpElsewhere (Screen.blank .open false))
    ∃ blocks, KeepsProtocol layout.outputs layout.cache ws.previous twins ended.1 ended.2 blocks ∧
      ∀ ks k ks', blocks = ks ++ k :: ks' →
        k.FindsTarget layout.cache (ks.flatMap Block.calls) :=
  run_finds_target_iff _ stubborn ⟨fun _ _ _ => rfl, rfl, rfl, rfl⟩ twins
    (.of_outside (by decide +kernel) (by decide +kernel)
      (Settings.default.artifacts.isName_deliveredAs))
    (by decide +kernel) setUpElsewhere _

/-- Board `B` is built in the directory that is still set up for the third board's chip. -/
theorem twin_built_for_other_target :
    let layout := Launch.layoutOf .default
    let ws := (Workspace.probe Tree.fileSystem layout.buildDir layout.marker setUpElsewhere).1
    let ended := run Tree.fileSystem.observed stubborn.tool.observed layout twins
      (unbegun ws setUpElsewhere (Screen.blank .open false))
    ∃ call ∈ calls ended.2.world.events, call.command = .build "B" ∧
      ¬ ConfiguredFor call.before layout.cache "esp32c3" := by
  decide +kernel

end Matrix

end FirmwareMatrix
