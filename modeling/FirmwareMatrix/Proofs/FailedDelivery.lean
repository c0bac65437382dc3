import FirmwareMatrix.Proofs.CompleteDelivery
import FirmwareMatrix.Proofs.Delivery
import FirmwareMatrix.Proofs.Passage
import FirmwareMatrix.Proofs.Stages

/-! # Boards that do not succeed

Delivering is all or nothing in a tree. Once every output is there and the directory for the
copies can be made, no copy fails; and the directory can be made unless a file is in its place. So
a board that does not succeed leaves the output directory as it was, at every moment of its turn. -/

namespace FirmwareMatrix

/-! ## Deliveries of a board -/

namespace Matrix

section Delivery

variable {τ : Type} {fs : FileSystem τ} {view : τ → Tree} {runner : Runner τ} {layout : Layout}
  {b : Board} (hfs : fs.Over view Tree.fileSystem) (hsep : layout.Separate) (hb : b.name ≠ "")

include hb in
theorem components_destination (layout : Layout) :
    (destination layout b).components =
      layout.outputDir.components ++ [.name b.directoryName] :=
  Path.components_child (Board.isName_directoryName hb)

include hfs hsep hb

/-- A delivery of complete outputs succeeds exactly if no file is where its directory should be. -/
theorem deliver_isOk_iff {w w₁ w' : τ} {made : Except Failure (List Path)}
    (complete : layout.artifacts.missing? fs layout.buildDir w = (none, w₁))
    (deliver : layout.artifacts.deliver fs layout.buildDir (destination layout b) w₁ =
      (made, w')) :
    (∃ copies, made = .ok copies) ↔ (view w).file? (destination layout b).components = none := by
  have hnil : (destination layout b).components ≠ [] := by
    simp [components_destination hb layout]
  have hmade := (hfs.deliver _ _ _).apply_eq deliver
  rw [hfs.missing?_view complete] at hmade
  have hok := ArtifactSet.deliver_tree_isOk_iff (t := view w) hnil hsep.name
    fun _ ha _ ha' => hsep.goal_ne_place hb ha ha'
  rw [hmade] at hok
  rw [hok, and_iff_left (hfs.missing?_none complete)]

/-- A delivery of complete outputs fails only because its directory cannot be made. -/
theorem createDirectories_of_deliver {w w₁ w' : τ} {f : Failure}
    (complete : layout.artifacts.missing? fs layout.buildDir w = (none, w₁))
    (deliver : layout.artifacts.deliver fs layout.buildDir (destination layout b) w₁ =
      (.error f, w')) :
    ∃ f', fs.createDirectories (destination layout b) w₁ = (.error f', w') := by
  have hfile : (view w).file? (destination layout b).components ≠ none := by
    rw [ne_eq, ← deliver_isOk_iff hfs hsep hb complete deliver]
    simp
  rw [ArtifactSet.deliver_eq] at deliver
  cases hmade : fs.createDirectories (destination layout b) w₁ with
  | mk made w₂ =>
    rw [hmade] at deliver
    cases made with
    | error f' =>
      obtain rfl : w₂ = w' := (Prod.mk.inj deliver).2
      exact ⟨f', rfl⟩
    | ok u =>
      have hrefused := (hfs.createDirectories _).apply_eq hmade
      rw [Tree.createDirectories_tree, hfs.missing?_view complete,
        if_pos (Option.isSome_iff_ne_none.mpr hfile)] at hrefused
      cases (Prod.mk.inj hrefused).1

/-- Copying fails exactly if all outputs are there and a file is where the board's directory
should be. -/
theorem Collects.copyFailed_iff {w w' : τ} {r : BoardResult}
    (h : Collects fs layout b w r w') :
    (∃ reason, r = .copyFailed reason) ↔
      (∀ a ∈ layout.artifacts.toList,
        ((view w).file? (a.place layout.buildDir)).isSome = true) ∧
      ((view w).file? (destination layout b).components).isSome = true := by
  cases h with
  | leftOut missing =>
    refine iff_of_false (by simp) fun hall => ?_
    have hnone := (ArtifactSet.firstMissing?_tree layout.buildDir layout.artifacts.toList
      (view w)).2.mpr hall.1
    rw [show (ArtifactSet.firstMissing? _ _ _ (view w)) = _ from
      (hfs.missing? _ _).apply_eq missing] at hnone
    cases hnone
  | notCopied complete deliver =>
    have hok := deliver_isOk_iff hfs hsep hb complete deliver
    refine iff_of_true ⟨_, rfl⟩ ⟨hfs.missing?_none complete, ?_⟩
    rw [Option.isSome_iff_ne_none, ne_eq, ← hok]
    simp
  | delivered complete deliver =>
    have hfree := (deliver_isOk_iff hfs hsep hb complete deliver).mp ⟨_, rfl⟩
    refine iff_of_false (by simp) ?_
    simp [hfree]

end Delivery

/-! ## Turns -/

section Turns

variable {τ : Type} {fs : FileSystem τ} {view : τ → Tree} {runner : Runner τ} {layout : Layout}
  {b : Board}

/-- A build of the board that exits with zero and leaves every output. -/
structure Complete (view : τ → Tree) (layout : Layout) (b : Board) (call : Call τ) : Prop where
  command : call.command = .build b.name
  code : call.ending.code? = some 0
  outputs : ∀ a ∈ layout.artifacts.toList,
    ((view call.after).file? (a.place layout.buildDir)).isSome = true

variable (hfs : fs.Over view Tree.fileSystem)
  (spares : runner.Spares view layout.outputDir.components) (hsep : layout.Separate)
  (hb : b.name ≠ "") {w w' : Observed τ} {cs : List Command} {r : BoardResult}

include hfs spares hsep hb

theorem Builds.copyFailed_iff
    (h : Builds fs.observed runner.observed layout b w cs (some r) w') :
    ∃ es, w'.events = w.events ++ es ∧ ((∃ reason, r = .copyFailed reason) ↔
      (∃ call ∈ calls es, Complete view layout b call) ∧
        ((view w.world).file? (destination layout b).components).isSome = true) := by
  have hfs' : fs.observed.Over (fun w => view w.world) Tree.fileSystem :=
    fs.observed_over.trans hfs
  cases h with
  | notCleared clear =>
    obtain ⟨es, hes, clearing, -⟩ := (clearEach_adds fs _ _).result clear
    exact ⟨es, hes, iff_of_false (by simp) (by simp [clearing.calls_eq])⟩
  | @failed w₁ e n _ clear ends code nonzero =>
    obtain ⟨es, hes, -, hq⟩ := clear_quiet clear
    refine ⟨_, by rw [ends.events, hes, List.append_assoc],
      iff_of_false (by simp) fun hall => ?_⟩
    obtain ⟨⟨call, hcall, hcomplete⟩, -⟩ := hall
    rw [hq.calls_ran .nil] at hcall
    obtain rfl := List.mem_singleton.mp hcall
    have hzero := hcomplete.code
    rw [code] at hzero
    exact nonzero (Option.some.inj hzero)
  | @built w₁ e w₂ _ _ clear ends code collects =>
    obtain ⟨es, hes, -, hq⟩ := clear_quiet clear
    obtain ⟨es', hes', hq'⟩ := collects.quiet
    refine ⟨es ++ (.ran ⟨.build b.name, w₁.world, e, w₂.world⟩ :: es'), ?_, ?_⟩
    · rw [hes', ends.events, hes, List.append_assoc, List.append_assoc]
      rfl
    · have hbelow : layout.outputDir.components <+: (destination layout b).components := by
        rw [components_destination hb]
        exact List.prefix_append _ _
      have hkept : (view w₂.world).file? (destination layout b).components =
          (view w.world).file? (destination layout b).components :=
        ((hfs'.clear_agreeBelow hsep clear).trans (spares _ _ _ _ ends.world)).file? hbelow
      rw [hq.calls_ran hq', Collects.copyFailed_iff hfs' hsep hb collects, hkept]
      refine and_congr_left fun _ => ⟨fun hall => ?_, fun ⟨call, hcall, hcomplete⟩ => ?_⟩
      · exact ⟨_, List.mem_singleton_self _, rfl, code, hall⟩
      · obtain rfl := List.mem_singleton.mp hcall
        exact hcomplete.outputs

theorem Turn.copyFailed_iff {ws : Workspace}
    (h : Turn fs.observed runner.observed layout ws b w cs (some r) w') :
    ∃ es, w'.events = w.events ++ es ∧ ((∃ reason, r = .copyFailed reason) ↔
      (∃ call ∈ calls es, Complete view layout b call) ∧
        ((view w.world).file? (destination layout b).components).isSome = true) := by
  have hconf {c : Command} (plan : (ws.plan b).configure = some c) : c ≠ .build b.name := by
    rintro rfl
    cases Workspace.isConfigure_of_plan plan
  cases h with
  | asFound plan builds => exact builds.copyFailed_iff hfs spares hsep hb
  | @notSetUp c e n _ plan ends code =>
    refine ⟨_, ends.events, iff_of_false (by simp) fun hall => ?_⟩
    obtain ⟨⟨call, hcall, hcomplete⟩, -⟩ := hall
    obtain rfl := List.mem_singleton.mp hcall
    exact hconf plan hcomplete.command
  | @setUp c e w₁ _ _ _ plan ends code builds =>
    obtain ⟨es, hes, hiff⟩ := builds.copyFailed_iff hfs spares hsep hb
    refine ⟨.ran ⟨c, w.world, e, w₁.world⟩ :: es, ?_, ?_⟩
    · rw [hes, ends.events, List.append_assoc, List.singleton_append]
    · have hbelow : layout.outputDir.components <+: (destination layout b).components := by
        rw [components_destination hb]
        exact List.prefix_append _ _
      have hnot : ¬ Complete view layout b ⟨c, w.world, e, w₁.world⟩ :=
        fun hcomplete => hconf plan hcomplete.command
      rw [hiff, (spares _ _ _ _ ends.world).file? hbelow, calls_ran]
      simp [hnot]

end Turns

/-- What a look at the marker and a turn add and leave alone, where every world is remembered. -/
theorem Turn.stays {σ : Type} {fs : FileSystem σ} {view : σ → Tree} {runner : Runner σ}
    {layout : Layout} {b : Board} {cs : List Command} {r : BoardResult}
    (hfs : fs.Over view Tree.fileSystem)
    (spares : runner.Spares view layout.outputDir.components) (hsep : layout.Separate)
    (hb : b.name ≠ "") {ws ws' : Workspace} {w w₁ w' : Observed (Traced σ)}
    (look : ws.refresh fs.traced.observed layout.marker w = (ws', w₁))
    (turn : Turn fs.traced.observed runner.traced.observed layout ws' b w₁ cs (some r) w') :
    ∃ events, w'.events = w.events ++ events ∧
      (r ≠ .succeeded → w.world.Stays
        (fun x x' => Tree.AgreeBelow layout.outputDir.components (view x) (view x')) w'.world) ∧
      ((∃ reason, r = .copyFailed reason) ↔
        (∃ call ∈ calls events, Complete (fun x => view x.world) layout b call) ∧
          ((view w.world.world).file? (destination layout b).components).isSome = true) := by
  have htraced := fs.traced_over.trans hfs
  have hobserved := fs.traced.observed_over.trans htraced
  have spares' : runner.traced.Spares (fun x => view x.world) layout.outputDir.components :=
    fun c w e w' h => spares c w.world e w'.world h.of_traced.1
  obtain ⟨es, hes, hiff⟩ := turn.copyFailed_iff htraced spares' hsep hb
  refine ⟨.isPresent (ws.directory.child layout.marker) (!ws'.fresh) :: es, ?_, fun hr => ?_, ?_⟩
  · rw [hes, (refresh_event look).2.2, List.append_assoc, List.singleton_append]
  · have harmless := harmless_traced hfs hsep spares
    have hlooked := refresh_keeps harmless.refl harmless.trans harmless.isPresent ws layout.marker
    have hturn := turn.keeps harmless
      (fun _ _ _ _ => createDirectories_of_deliver hobserved hsep hb) hr
    exact harmless.trans _ _ _ (hlooked.result look) hturn
  · rw [← (hobserved.refresh_view look).1]
    exact hiff

/-- While a board that does not succeed has its turn, everything at and below the output directory
stays as it is at every moment. Copying fails exactly if the build exits with zero and leaves every
output, and a file is where the board's directory should be. -/
theorem failed_board_delivers_nothing {ρ : Type} (settings : Settings)
    (runner : Runner (Tree × ρ)) (boards : List Board) (ws : Workspace) (w : Tree × ρ)
    (screen : Screen) (hout : settings.outputDir.IsPlain)
    (hapart : Path.Apart settings.buildDir settings.outputDir)
    (hboards : ∀ b ∈ boards, b.name ≠ "")
    (spares : runner.Spares Prod.fst settings.outputDir.components) :
    let layout := Launch.layoutOf settings
    let fs := (Tree.fileSystem.beside ρ).traced.observed
    let start := unbegun ws ⟨w, []⟩ screen
    let ended := (run fs runner.traced.observed layout boards start).2
    let after (xs : List Board) :=
      (reached fs runner.traced.observed layout boards.length xs start).world
    ∀ xs b ys, boards = xs ++ b :: ys → ∀ r, ended.outcomes[xs.length]? = some ⟨b.name, r⟩ →
      ∃ events, (after (xs ++ [b])).events = (after xs).events ++ events ∧
        (r ≠ .succeeded → (after xs).world.Stays
          (fun x x' => Tree.AgreeBelow layout.outputDir.components x.1 x'.1)
          (after (xs ++ [b])).world) ∧
        ((∃ reason, r = .copyFailed reason) ↔
          (∃ call ∈ calls events, Complete (fun x => x.world.1) layout b call) ∧
          ((after xs).world.world.1.file? (destination layout b).components).isSome = true) := by
  intro layout fs start ended after xs b ys hsplit r houtcome
  have hfrom : ended.outcomes =
      (runFrom fs runner.traced.observed layout boards.length 1 boards start).2.outcomes :=
    outcomes_of_run boards
  have hindex : start.outcomes.length + xs.length = xs.length := Nat.zero_add _
  have hrun : (runFrom fs runner.traced.observed layout boards.length 1 (xs ++ b :: ys)
      start).2.outcomes[start.outcomes.length + xs.length]? = some ⟨b.name, r⟩ := by
    rw [← hsplit, ← hfrom, hindex]
    exact houtcome
  obtain ⟨ws', w₁, cs, hlook, hturn⟩ := turn_of_outcome hrun
  have hsep : layout.Separate := Launch.separate_layoutOf hout hapart
  have hb : b.name ≠ "" := hboards b (by simp [hsplit])
  have spares' : runner.Spares Prod.fst layout.outputDir.components := spares
  have hover := FileSystem.beside_over Tree.fileSystem ρ
  have hstays := hturn.stays hover spares' hsep hb hlook
  exact hstays

/-- What holds of any result holds of a delivery that is seen to fail. -/
theorem exists_copyFailed {o : Option Outcome} {name : String} {P : BoardResult → Prop}
    (hall : ∀ r, o = some ⟨name, r⟩ → P r)
    (h : (o.any fun o => o.board == name && match o.result with
      | .copyFailed _ => true
      | _ => false) = true) :
    ∃ reason, o = some ⟨name, .copyFailed reason⟩ ∧ P (.copyFailed reason) := by
  obtain ⟨⟨board, result⟩, rfl, hand⟩ := (Option.any_eq_true _ _).mp h
  obtain ⟨hname, hfailed⟩ := Bool.and_eq_true_iff.mp hand
  obtain rfl : board = name := by simpa using hname
  cases result with
  | copyFailed reason => exact ⟨reason, rfl, hall _ rfl⟩
  | _ => cases hfailed

/-- A file where the second board of the pair is to be delivered. -/
def obstructed : Tree :=
  let b : Board := ⟨"B", "esp32s3", ⟨"hw_b.h"⟩⟩
  Tree.empty.addFile (destination (Launch.layoutOf .default) b).components []

/-- The second board of the pair is built and not delivered. -/
theorem obstructed_delivers_nothing :
    let layout := Launch.layoutOf .default
    let fs := (Tree.fileSystem.beside Unit).traced.observed
    let runner := ((ScriptedTool.willing .default).tool.beside Unit).traced.observed
    let start := unbegun ⟨⟨"build"⟩, true, none⟩ ⟨(obstructed, ()), []⟩ (Screen.blank .open false)
    let ended := (run fs runner layout pair start).2
    let after (xs : List Board) := (reached fs runner layout pair.length xs start).world
    let b : Board := ⟨"B", "esp32s3", ⟨"hw_b.h"⟩⟩
    ∃ reason, ended.outcomes[(pair.take 1).length]? = some ⟨b.name, .copyFailed reason⟩ ∧
      ∃ events, (after (pair.take 1 ++ [b])).events = (after (pair.take 1)).events ++ events ∧
        (after (pair.take 1)).world.Stays
          (fun x x' => Tree.AgreeBelow layout.outputDir.components x.1 x'.1)
          (after (pair.take 1 ++ [b])).world ∧
        (∃ call ∈ calls events, Complete (fun x => x.world.1) layout b call) ∧
        ((after (pair.take 1)).world.world.1.file? (destination layout b).components).isSome =
          true := by
  have h := failed_board_delivers_nothing .default
    ((ScriptedTool.willing .default).tool.beside Unit) pair ⟨⟨"build"⟩, true, none⟩ (obstructed, ())
    (Screen.blank .open false) (by decide +kernel) (by decide +kernel) (by decide +kernel)
    willing_spares (pair.take 1) ⟨"B", "esp32s3", ⟨"hw_b.h"⟩⟩ [] rfl
  obtain ⟨reason, houtcome, events, hevents, hstays, hiff⟩ :=
    exists_copyFailed h (by decide +kernel)
  exact ⟨reason, houtcome, events, hevents, hstays (by simp), hiff.mp ⟨reason, rfl⟩⟩

end Matrix

end FirmwareMatrix
