import FirmwareMatrix.Proofs.Protocol
import FirmwareMatrix.Proofs.Scripted

/-! # What is delivered

A board that succeeds finds in its directory the bytes that its own build left, and keeps them to
the end of the run. No output was there when that build started, so none of the bytes is older. -/

namespace FirmwareMatrix.Matrix

variable {τ : Type} {fs : FileSystem τ} {view : τ → Tree} {runner : Runner τ} {layout : Layout}
  {b : Board} {w w' : Observed τ}

/-- The outputs were made while `call` ran, and the copies in `t` hold what it left. -/
def Delivers (view : τ → Tree) (layout : Layout) (b : Board) (call : Call τ) (t : Tree) : Prop :=
  ∀ a ∈ layout.artifacts.toList,
    (view call.before).file? (a.place layout.buildDir) = none ∧
      ∃ bytes, (view call.after).file? (a.place layout.buildDir) = some bytes ∧
        t.file? (a.goal (destination layout b)) = some bytes

theorem Delivers.of_file?_eq {call : Call τ} {t t' : Tree} (h : Delivers view layout b call t)
    (ht : ∀ a ∈ layout.artifacts.toList, t'.file? (a.goal (destination layout b)) =
      t.file? (a.goal (destination layout b))) : Delivers view layout b call t' := by
  intro a ha
  obtain ⟨hbefore, bytes, hafter, hcopy⟩ := h a ha
  exact ⟨hbefore, bytes, hafter, (ht a ha).trans hcopy⟩

/-- The commands that build a board. -/
def buildsOf (b : Board) (events : List (Event τ)) : List (Call τ) :=
  (calls events).filter fun c => c.command = .build b.name

theorem buildsOf_append (b : Board) (es es' : List (Event τ)) :
    buildsOf b (es ++ es') = buildsOf b es ++ buildsOf b es' := by
  rw [buildsOf, calls_append, List.filter_append]
  rfl

/-- What has been done for some boards between `w` and `w'`. -/
structure Served (view : τ → Tree) (layout : Layout) (boards : List Board) (outs : List Outcome)
    (w : Observed τ) (es : List (Event τ)) (w' : Observed τ) : Prop where
  events_eq : w'.events = w.events ++ es
  boardName : ∀ c ∈ calls es, ∃ b ∈ boards, c.command.boardName = b.name
  outcome : ∀ o ∈ outs, ∃ b ∈ boards, o.board = b.name
  kept : ∀ q, layout.outputDir.components <+: q →
    (∀ b ∈ boards, q ∉ layout.artifacts.toList.map (Artifact.goal (destination layout b))) →
      (view w'.world).file? q = (view w.world).file? q
  delivers : ∀ b ∈ boards, ⟨b.name, .succeeded⟩ ∈ outs →
    ∃ call, buildsOf b es = [call] ∧ Delivers view layout b call (view w'.world)

theorem Served.buildsOf_eq_nil {boards : List Board} {outs : List Outcome} {es : List (Event τ)}
    (h : Served view layout boards outs w es w') (hb : ∀ b' ∈ boards, b.name ≠ b'.name) :
    buildsOf b es = [] := by
  refine List.filter_eq_nil_iff.mpr fun c hc hcmd => ?_
  obtain ⟨b', hb', hname⟩ := h.boardName c hc
  rw [of_decide_eq_true hcmd] at hname
  exact hb b' hb' hname

/-- What was done for other boards later takes nothing away. -/
theorem Served.append (hsep : layout.Separate) {boards boards' : List Board}
    {outs outs' : List Outcome} {es es' : List (Event τ)} {w₁ : Observed τ}
    (hboards : ∀ b ∈ boards ++ boards', b.name ≠ "")
    (hdirs : ∀ b ∈ boards, ∀ b' ∈ boards', b.directoryName ≠ b'.directoryName)
    (h : Served view layout boards outs w es w₁)
    (h' : Served view layout boards' outs' w₁ es' w') :
    Served view layout (boards ++ boards') (outs ++ outs') w (es ++ es') w' := by
  have hnames : ∀ b ∈ boards, ∀ b' ∈ boards', b.name ≠ b'.name := fun b hb b' hb' he =>
    hdirs b hb b' hb' (by simp only [Board.directoryName, he])
  refine ⟨?_, fun c hc => ?_, fun o ho => ?_, fun q hq hgoals => ?_, fun b hb hmem => ?_⟩
  · rw [h'.events_eq, h.events_eq, List.append_assoc]
  · rw [calls_append] at hc
    rcases List.mem_append.mp hc with hc | hc
    · obtain ⟨b, hb, hname⟩ := h.boardName c hc
      exact ⟨b, List.mem_append_left _ hb, hname⟩
    · obtain ⟨b, hb, hname⟩ := h'.boardName c hc
      exact ⟨b, List.mem_append_right _ hb, hname⟩
  · rcases List.mem_append.mp ho with ho | ho
    · obtain ⟨b, hb, hname⟩ := h.outcome o ho
      exact ⟨b, List.mem_append_left _ hb, hname⟩
    · obtain ⟨b, hb, hname⟩ := h'.outcome o ho
      exact ⟨b, List.mem_append_right _ hb, hname⟩
  · obtain ⟨hgoals, hgoals'⟩ := List.forall_mem_append.mp hgoals
    rw [h'.kept q hq hgoals', h.kept q hq hgoals]
  · rw [buildsOf_append]
    rcases List.mem_append.mp hb with hbin | hbin
    · have hmem : ⟨b.name, .succeeded⟩ ∈ outs := by
        rcases List.mem_append.mp hmem with hmem | hmem
        · exact hmem
        · obtain ⟨b', hb', hname⟩ := h'.outcome _ hmem
          exact absurd hname (hnames b hbin b' hb')
      obtain ⟨call, hcall, hdel⟩ := h.delivers b hbin hmem
      refine ⟨call, ?_, hdel.of_file?_eq fun a ha => ?_⟩
      · rw [hcall, h'.buildsOf_eq_nil (hnames b hbin), List.append_nil]
      · exact h'.kept _ (hsep.goal_below (hboards b hb) ha) fun b' hb' =>
          hsep.goal_not_mem (hboards b hb) ha (hboards b' (List.mem_append_right _ hb'))
            (hdirs b hbin b' hb')
    · have hmem : ⟨b.name, .succeeded⟩ ∈ outs' := by
        rcases List.mem_append.mp hmem with hmem | hmem
        · obtain ⟨b', hb', hname⟩ := h.outcome _ hmem
          exact absurd hname.symm (hnames b' hb' b hbin)
        · exact hmem
      obtain ⟨call, hcall, hdel⟩ := h'.delivers b hbin hmem
      refine ⟨call, ?_, hdel⟩
      rw [hcall, h.buildsOf_eq_nil fun b' hb' he => hnames b' hb' b hbin he.symm, List.nil_append]

/-! ## Turns -/

section Turns

variable (hfs : fs.Over view Tree.fileSystem)
  (spares : runner.Spares view layout.outputDir.components) (hsep : layout.Separate)
  (hnames : (layout.artifacts.toList.map Artifact.deliveredAs).Nodup)

include hfs hsep hnames

theorem Builds.delivers {cs : List Command} (hb : b.name ≠ "")
    (h : Builds fs.observed runner.observed layout b w cs (some .succeeded) w') :
    ∃ es call, w'.events = w.events ++ es ∧ calls es = [call] ∧ call.command = .build b.name ∧
      Delivers view layout b call (view w'.world) := by
  have hfs' : fs.observed.Over (fun w => view w.world) Tree.fileSystem :=
    fs.observed_over.trans hfs
  cases h with
  | @built w₁ e w₂ _ _ clear ends code collects =>
    obtain ⟨es, hes, -, hq⟩ := clear_quiet clear
    obtain ⟨es', hes', hq'⟩ := collects.quiet
    refine ⟨es ++ (.ran ⟨.build b.name, w₁.world, e, w₂.world⟩ :: es'),
      ⟨.build b.name, w₁.world, e, w₂.world⟩, ?_, ?_, rfl, ?_⟩
    · rw [hes', ends.events, hes, List.append_assoc, List.append_assoc]
      rfl
    · exact hq.calls_ran hq' _
    · cases collects with
      | @delivered w₃ copies _ complete deliver =>
        intro a ha
        have hmem : a.place layout.buildDir ∈
            layout.artifacts.toList.map (Artifact.place layout.buildDir) :=
          List.mem_map_of_mem ha
        have hfound := hfs'.missing?_none complete a ha
        have hcopy := ArtifactSet.deliver_tree_ok ((Artifact.goals_nodup_iff hsep.name).mpr hnames)
          (fun _ ha _ ha' => hsep.goal_ne_place hb ha ha')
          ((hfs'.deliver _ _ _).apply_eq deliver) a ha
        rw [hfs'.missing?_view complete] at hcopy
        obtain ⟨bytes, hbytes⟩ := Option.isSome_iff_exists.mp hfound
        refine ⟨?_, bytes, hbytes, hcopy.trans hbytes⟩
        exact (hfs'.clear_file? clear _).trans (if_pos hmem)

theorem Turn.delivers {ws : Workspace} {cs : List Command} (hb : b.name ≠ "")
    (h : Turn fs.observed runner.observed layout ws b w cs (some .succeeded) w') :
    ∃ es call, w'.events = w.events ++ es ∧ buildsOf b es = [call] ∧
      Delivers view layout b call (view w'.world) := by
  cases h with
  | asFound plan builds =>
    obtain ⟨es, call, hes, hcalls, hcmd, hdel⟩ := builds.delivers hfs hsep hnames hb
    exact ⟨es, call, hes, by simp [buildsOf, hcalls, hcmd], hdel⟩
  | @setUp c e w₁ _ _ _ plan ends code builds =>
    obtain ⟨es, call, hes, hcalls, hcmd, hdel⟩ := builds.delivers hfs hsep hnames hb
    have hconf : c ≠ .build b.name := by
      rintro rfl
      cases Workspace.isConfigure_of_plan plan
    refine ⟨.ran ⟨c, w.world, e, w₁.world⟩ :: es, call, ?_, ?_, hdel⟩
    · rw [hes, ends.events, List.append_assoc, List.singleton_append]
    · simp [buildsOf, hcalls, hcmd, hconf]

include spares

theorem Turn.served {ws ws' : Workspace} {cs : List Command} {r : Option BoardResult}
    {w₁ : Observed τ} (hb : b.name ≠ "")
    (look : ws.refresh fs.observed layout.marker w = (ws', w₁))
    (turn : Turn fs.observed runner.observed layout ws' b w₁ cs r w') :
    ∃ es, Served view layout [b] (r.toList.map (Outcome.mk b.name)) w es w' := by
  have hfs' : fs.observed.Over (fun w => view w.world) Tree.fileSystem :=
    fs.observed_over.trans hfs
  have spares' : runner.observed.Spares (fun w => view w.world) layout.outputDir.components :=
    fun c w e w' h => spares c w.world e w'.world h.world
  obtain ⟨k, hkb, -, -, hevents, hsound⟩ := turn.block look
  refine ⟨k.events, hevents, fun c hc => ?_, fun o ho => ?_, fun q hq hgoal => ?_,
    fun b' hb' hmem => ?_⟩
  · exact ⟨b, List.mem_singleton_self b, by rw [hsound.boardName_eq hc, hkb]⟩
  · obtain ⟨result, -, rfl⟩ := List.mem_map.mp ho
    exact ⟨b, List.mem_singleton_self b, rfl⟩
  · rw [turn.file?_eq hfs' spares' hsep hq (hgoal b (List.mem_singleton_self b)),
      (hfs'.refresh_view look).1]
  · obtain rfl := List.mem_singleton.mp hb'
    have hr : r = some .succeeded := by
      obtain ⟨result, hresult, he⟩ := List.mem_map.mp hmem
      obtain rfl : result = .succeeded := congrArg Outcome.result he
      exact Option.mem_toList.mp hresult
    subst hr
    obtain ⟨es, call, hes, hcalls, hdel⟩ := turn.delivers hfs hsep hnames hb
    rw [(refresh_event look).2.2, List.append_assoc, hevents] at hes
    refine ⟨call, ?_, hdel⟩
    rw [List.append_cancel_left hes]
    exact hcalls

theorem Turns.served {ws ws' : Workspace} {boards : List Board} {cs : List Command}
    {outs : List Outcome} {fin : Bool} (hboards : ∀ b ∈ boards, b.name ≠ "")
    (hdirs : (boards.map Board.directoryName).Nodup)
    (h : Turns fs.observed runner.observed layout ws w boards cs outs fin ws' w') :
    ∃ es, Served view layout boards outs w es w' := by
  induction h with
  | done => exact ⟨[], by simp, by simp [calls], by simp, fun _ _ _ => rfl, by simp⟩
  | hung look turn =>
    obtain ⟨es, served⟩ := turn.served hfs spares hsep hnames (hboards _ List.mem_cons_self) look
    obtain ⟨hevents, hname, -, hkept, -⟩ := served
    refine ⟨es, hevents, fun c hc => ?_, by simp, fun q hq hgoals => hkept q hq ?_, by simp⟩
    · obtain ⟨b, hb, hc⟩ := hname c hc
      exact ⟨b, List.mem_cons.mpr (.inl (List.mem_singleton.mp hb)), hc⟩
    · exact fun b hb => hgoals b (List.mem_cons.mpr (.inl (List.mem_singleton.mp hb)))
  | @next ws w ws₁ w₁ b boards cs r w₂ cs' outs fin ws' w' look turn rest ih =>
    obtain ⟨hb, hrest⟩ := List.forall_mem_cons.mp hboards
    obtain ⟨hfresh, hdistinct⟩ := List.nodup_cons.mp hdirs
    obtain ⟨es, served⟩ := turn.served hfs spares hsep hnames hb look
    obtain ⟨es', served'⟩ := ih hrest hdistinct
    refine ⟨es ++ es', served.append hsep hboards (fun b₁ hb₁ b' hb' he => ?_) served'⟩
    rw [List.mem_singleton.mp hb₁] at he
    exact hfresh (he ▸ List.mem_map_of_mem hb')

theorem run_delivers {boards : List Board} {ws : Workspace} {w : τ} {screen : Screen}
    {summary : Option Summary} {s : Session (Observed τ)} (hboards : ∀ b ∈ boards, b.name ≠ "")
    (hdirs : (boards.map Board.directoryName).Nodup)
    (h : run fs.observed runner.observed layout boards (unbegun ws w screen) = (summary, s)) :
    ∀ b ∈ boards, ⟨b.name, .succeeded⟩ ∈ s.outcomes →
      ∃ call, buildsOf b s.world.events = [call] ∧
        Delivers view layout b call (view s.world.world) := by
  intro b hb hmem
  obtain ⟨s₁, hfrom, hend⟩ := run_eq h
  obtain ⟨cs, outs, hturns, houts, -⟩ := runFrom_turns hfrom
  obtain ⟨es, served⟩ := hturns.served hfs spares hsep hnames hboards hdirs
  have hevents : s₁.world.events = es := served.events_eq
  have houts : s₁.outcomes = outs := houts
  cases summary with
  | none =>
    obtain rfl : s = s₁ := hend
    rw [hevents]
    exact served.delivers b hb (houts ▸ hmem)
  | some sum =>
    obtain ⟨-, rfl⟩ := summarize_eq hend
    obtain ⟨call, hcalls, hdel⟩ := served.delivers b hb (houts ▸ hmem)
    refine ⟨call, ?_, ?_⟩
    · show buildsOf b (s₁.world.events ++ [_]) = _
      rw [buildsOf_append, hevents, hcalls]
      rfl
    · have hview : view (fs.observed.canonicalize layout.outputDir s₁.world).2.world =
          view s₁.world.world :=
        (congrArg Prod.snd
          ((fs.observed_over.trans hfs).canonicalize layout.outputDir s₁.world)).symm
      show Delivers view layout b call
        (view (fs.observed.canonicalize layout.outputDir s₁.world).2.world)
      rw [hview]
      exact hdel

end Turns

/-- Each board that succeeds is given the bytes of its own build and keeps them, whatever the
commands do outside the output directory and whatever the tree held at first. -/
theorem run_delivers_own {ρ : Type} (settings : Settings) (runner : Runner (Tree × ρ))
    (boards : List Board) (ws : Workspace) (w : Tree × ρ) (screen : Screen)
    (hout : settings.outputDir.IsPlain)
    (hapart : Path.Apart settings.buildDir settings.outputDir)
    (hnames : ((Launch.layoutOf settings).artifacts.toList.map Artifact.deliveredAs).Nodup)
    (hboards : ∀ b ∈ boards, b.name ≠ "") (hdirs : (boards.map Board.directoryName).Nodup)
    (spares : runner.Spares Prod.fst settings.outputDir.components) :
    let s := (run (Tree.fileSystem.beside ρ).observed runner.observed (Launch.layoutOf settings)
      boards (unbegun ws w screen)).2
    ∀ b ∈ boards, ⟨b.name, .succeeded⟩ ∈ s.outcomes →
      ∃ call, buildsOf b s.world.events = [call] ∧
        Delivers Prod.fst (Launch.layoutOf settings) b call s.world.world.1 := by
  intro s
  have hsep := Launch.separate_layoutOf hout hapart
  have spares : runner.Spares Prod.fst (Launch.layoutOf settings).outputDir.components := spares
  cases h : run (Tree.fileSystem.beside ρ).observed runner.observed (Launch.layoutOf settings)
      boards (unbegun ws w screen) with
  | mk summary s' =>
    have hs : s = s' := congrArg Prod.snd h
    rw [hs]
    exact run_delivers (FileSystem.beside_over Tree.fileSystem ρ) spares hsep hnames hboards hdirs h

theorem succeeded_mem {outs : List Outcome} {name : String}
    (h : (outs.any fun o => o.board == name && o.isSuccess) = true) : ⟨name, .succeeded⟩ ∈ outs := by
  obtain ⟨⟨board, result⟩, ho, hand⟩ := List.any_eq_true.mp h
  obtain ⟨hname, hsuccess⟩ := Bool.and_eq_true_iff.mp hand
  obtain rfl : board = name := by simpa using hname
  cases result with
  | succeeded => exact ho
  | _ => cases hsuccess

/-- Two boards of different chips. -/
def pair : List Board := [⟨"A", "esp32c3", ⟨"hw_a.h"⟩⟩, ⟨"B", "esp32s3", ⟨"hw_b.h"⟩⟩]

theorem willing_spares : ((ScriptedTool.willing .default).tool.beside Unit).Spares Prod.fst
    Settings.default.outputDir.components :=
  (ScriptedTool.spares_layoutOf (s := .default) (fun _ _ _ => rfl) rfl rfl (by decide +kernel)
    (by decide +kernel)).beside Unit

/-- With the usual settings and a tool that does as it is told. -/
theorem pair_delivers_own :
    let s := (run (Tree.fileSystem.beside Unit).observed
      ((ScriptedTool.willing .default).tool.beside Unit).observed (Launch.layoutOf .default) pair
      (unbegun ⟨⟨"build"⟩, true, none⟩ (Tree.empty, ()) (Screen.blank .open false))).2
    ∃ call, buildsOf ⟨"A", "esp32c3", ⟨"hw_a.h"⟩⟩ s.world.events = [call] ∧
      Delivers Prod.fst (Launch.layoutOf .default) ⟨"A", "esp32c3", ⟨"hw_a.h"⟩⟩ call
        s.world.world.1 := by
  have h := run_delivers_own .default ((ScriptedTool.willing .default).tool.beside Unit) pair
    ⟨⟨"build"⟩, true, none⟩ (Tree.empty, ()) (Screen.blank .open false) (by decide +kernel)
    (by decide +kernel) (by decide +kernel) (by decide +kernel) (by decide +kernel)
    willing_spares ⟨"A", "esp32c3", ⟨"hw_a.h"⟩⟩ List.mem_cons_self
  refine h (succeeded_mem ?_)
  decide +kernel

end FirmwareMatrix.Matrix
