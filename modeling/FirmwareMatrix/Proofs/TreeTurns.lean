import FirmwareMatrix.Proofs.Observed
import FirmwareMatrix.Proofs.Separation
import FirmwareMatrix.Proofs.Turns

/-! # Turns on a tree

What a board's turn leaves in the output directory when the world holds a tree and the commands
stay out of there: files other than the board's own copies stay as they are, and before the
delivery everything does. -/

namespace FirmwareMatrix

variable {τ : Type} {fs : FileSystem τ} {view : τ → Tree} {runner : Runner τ} {layout : Layout}
  {b : Board} {w w' : τ}

/-- Every command leaves what lies at and below a place as it is. -/
def Runner.Spares (view : τ → Tree) (out : List Component) (runner : Runner τ) : Prop :=
  ∀ c w e w', runner.Ends c w e w' → Tree.AgreeBelow out (view w) (view w')

theorem Runner.Spares.beside {runner : Runner Tree} {out : List Component}
    (h : runner.Spares id out) (ρ : Type) : (runner.beside ρ).Spares Prod.fst out := by
  rintro c ⟨t, r⟩ e ⟨t', r'⟩ ⟨screen, screen', hrun⟩
  refine h c t e t' ⟨screen, screen', ?_⟩
  cases hrun
  rfl

namespace FileSystem.Over

variable (hfs : fs.Over view Tree.fileSystem)

include hfs

theorem clear_view {r : Except Failure Unit}
    (h : layout.artifacts.clear fs layout.buildDir w = (r, w')) :
    r = .ok () ∧ view w' = layout.artifacts.toList.foldl
      (fun t a => t.discard (a.place layout.buildDir)) (view w) := by
  have hc := (hfs.clear layout.buildDir layout.artifacts).apply_eq h
  rw [ArtifactSet.clear_tree] at hc
  obtain ⟨rfl, hw⟩ := Prod.mk.inj hc
  exact ⟨rfl, hw.symm⟩

theorem missing?_view {r : Option Path}
    (h : layout.artifacts.missing? fs layout.buildDir w = (r, w')) : view w' = view w :=
  ArtifactSet.missing?_tree_world ((hfs.missing? _ _).apply_eq h)

theorem missing?_none
    (h : layout.artifacts.missing? fs layout.buildDir w = (none, w')) :
    ∀ a ∈ layout.artifacts.toList, ((view w).file? (a.place layout.buildDir)).isSome = true :=
  ArtifactSet.missing?_tree_none ((hfs.missing? _ _).apply_eq h)

/-- Outputs are gone once they are cleared, and nothing else is. -/
theorem clear_file? {r : Except Failure Unit}
    (h : layout.artifacts.clear fs layout.buildDir w = (r, w')) (q : List Component) :
    (view w').file? q =
      if q ∈ layout.artifacts.toList.map (Artifact.place layout.buildDir) then none
      else (view w).file? q := by
  rw [(hfs.clear_view h).2, ArtifactSet.file?_discards]

theorem clear_agreeBelow (hsep : layout.Separate) {r : Except Failure Unit}
    (h : layout.artifacts.clear fs layout.buildDir w = (r, w')) :
    Tree.AgreeBelow layout.outputDir.components (view w) (view w') := by
  rw [(hfs.clear_view h).2]
  exact ArtifactSet.agreeBelow_discards hsep.proper hsep.place (view w)

theorem refresh_view {ws ws' : Workspace} {marker : String}
    (h : ws.refresh fs marker w = (ws', w')) :
    view w' = view w ∧
      ws' = { ws with fresh := !(view w).contains (ws.directory.child marker).components } := by
  obtain ⟨rfl, hw⟩ := Prod.mk.inj ((hfs.refresh ws marker).apply_eq h)
  exact ⟨hw.symm, rfl⟩

end FileSystem.Over

namespace Matrix

variable (hfs : fs.Over view Tree.fileSystem)
  (spares : runner.Spares view layout.outputDir.components) (hsep : layout.Separate)

include hfs

theorem Collects.file?_eq {r : BoardResult} (h : Collects fs layout b w r w') {q : List Component}
    (hq : q ∉ layout.artifacts.toList.map (Artifact.goal (destination layout b))) :
    (view w').file? q = (view w).file? q := by
  cases h with
  | leftOut missing => rw [hfs.missing?_view missing]
  | notCopied complete deliver | delivered complete deliver =>
    have hd := (hfs.deliver _ _ _).apply_eq deliver
    rw [ArtifactSet.deliver_tree_frame hd q hq, hfs.missing?_view complete]

include spares hsep

theorem Builds.file?_eq {cs : List Command} {r : Option BoardResult}
    (h : Builds fs runner layout b w cs r w') {q : List Component}
    (hout : layout.outputDir.components <+: q)
    (hq : q ∉ layout.artifacts.toList.map (Artifact.goal (destination layout b))) :
    (view w').file? q = (view w).file? q := by
  cases h with
  | notCleared clear => exact (hfs.clear_agreeBelow hsep clear).file? hout
  | hung clear ends | failed clear ends =>
    exact ((hfs.clear_agreeBelow hsep clear).trans (spares _ _ _ _ ends)).file? hout
  | built clear ends code collects =>
    rw [collects.file?_eq hfs hq]
    exact ((hfs.clear_agreeBelow hsep clear).trans (spares _ _ _ _ ends)).file? hout

/-- A turn changes no file in the output directory but the copies of its board. -/
theorem Turn.file?_eq {ws : Workspace} {cs : List Command} {r : Option BoardResult}
    (h : Turn fs runner layout ws b w cs r w') {q : List Component}
    (hout : layout.outputDir.components <+: q)
    (hq : q ∉ layout.artifacts.toList.map (Artifact.goal (destination layout b))) :
    (view w').file? q = (view w).file? q := by
  cases h with
  | asFound plan builds => exact builds.file?_eq hfs spares hsep hout hq
  | hung plan ends | notSetUp plan ends => exact (spares _ _ _ _ ends).file? hout
  | setUp plan ends code builds =>
    rw [builds.file?_eq hfs spares hsep hout hq]
    exact (spares _ _ _ _ ends).file? hout

/-- A turn that is cut short has not touched the output directory. -/
theorem Turn.agreeBelow_of_hung {ws : Workspace} {cs : List Command}
    (h : Turn fs runner layout ws b w cs none w') :
    Tree.AgreeBelow layout.outputDir.components (view w) (view w') := by
  have hbuilds {w w' : τ} {cs : List Command} (h : Builds fs runner layout b w cs none w') :
      Tree.AgreeBelow layout.outputDir.components (view w) (view w') := by
    cases h with
    | hung clear ends =>
      exact (hfs.clear_agreeBelow hsep clear).trans (spares _ _ _ _ ends)
  cases h with
  | asFound plan builds => exact hbuilds builds
  | hung plan ends => exact spares _ _ _ _ ends
  | setUp plan ends code builds => exact (spares _ _ _ _ ends).trans (hbuilds builds)

end Matrix

end FirmwareMatrix
