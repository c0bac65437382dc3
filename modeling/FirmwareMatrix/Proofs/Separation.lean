import FirmwareMatrix.Launch
import FirmwareMatrix.Proofs.PathJoin
import FirmwareMatrix.Proofs.TreeOutputs

/-! # The build tree and the delivery tree

Where neither of the build directory and the output directory lies in the other, no output of the
tool lies in the output directory. So clearing and checking leave everything there as it is, and
the copies of boards with different directory names go to different places. -/

namespace FirmwareMatrix

/-! ## Copies -/

namespace Artifact

variable {dir dest : Path} {a : Artifact}

theorem goal_eq (ha : Path.IsName a.deliveredAs) :
    a.goal dest = dest.components ++ [.name a.deliveredAs] :=
  Path.components_child ha

/-- Copies into one directory go to different places if they have different names. -/
theorem goals_nodup_iff {as : List Artifact} (hnames : ∀ a ∈ as, Path.IsName a.deliveredAs) :
    (as.map (goal dest)).Nodup ↔ (as.map deliveredAs).Nodup := by
  have hgoals : as.map (goal dest) =
      (as.map deliveredAs).map fun d => dest.components ++ [.name d] := by
    rw [List.map_map]
    exact List.map_congr_left fun a ha => goal_eq (hnames a ha)
  rw [hgoals, List.nodup_iff_pairwise_ne, List.nodup_iff_pairwise_ne, List.pairwise_map]
  simp

/-- No copy stands where the tool writes. -/
theorem goal_ne_place (hapart : Path.Apart dir dest) (hdest : dest.IsPlain)
    (ha : Path.IsName a.deliveredAs) (b : Artifact) : a.goal dest ≠ b.place dir := by
  intro he
  refine hapart.not_prefix_join hdest b.source ?_
  rw [← place, ← he, goal_eq ha]
  exact List.prefix_append _ _

/-- A copy stands two names below the output directory: the board's, then its own. -/
theorem goal_destination {layout : Layout} {b : Board} (hb : b.name ≠ "")
    (ha : Path.IsName a.deliveredAs) :
    a.goal (Matrix.destination layout b) =
      layout.outputDir.components ++ [.name b.directoryName, .name a.deliveredAs] := by
  rw [goal_eq ha, Matrix.destination, Path.components_child (Board.isName_directoryName hb),
    List.append_assoc]
  rfl

end Artifact

/-! ## Layouts -/

/-- Outputs are made outside the output directory and delivered under plain names. -/
structure Layout.Separate (layout : Layout) : Prop where
  proper : Tree.Proper layout.outputDir.components
  place : ∀ a ∈ layout.artifacts.toList, ¬ layout.outputDir.components <+: a.place layout.buildDir
  name : ∀ a ∈ layout.artifacts.toList, Path.IsName a.deliveredAs

theorem Launch.separate_layoutOf {s : Settings} (hout : s.outputDir.IsPlain)
    (hapart : Path.Apart s.buildDir s.outputDir) : (layoutOf s).Separate where
  proper := by
    refine ⟨hapart.symm.components_ne_nil, fun he => ?_⟩
    have hhere := hout .here (he ▸ List.mem_singleton_self _)
    cases hhere
  place a _ := hapart.not_prefix_join hout a.source
  name := s.artifacts.isName_deliveredAs

namespace Layout.Separate

variable {layout : Layout} {a : Artifact} {b : Board}

theorem goal_eq (h : layout.Separate) (hb : b.name ≠ "") (ha : a ∈ layout.artifacts.toList) :
    a.goal (Matrix.destination layout b) =
      layout.outputDir.components ++ [.name b.directoryName, .name a.deliveredAs] :=
  Artifact.goal_destination hb (h.name a ha)

/-- Copies lie in the output directory. -/
theorem goal_below (h : layout.Separate) (hb : b.name ≠ "") (ha : a ∈ layout.artifacts.toList) :
    layout.outputDir.components <+: a.goal (Matrix.destination layout b) := by
  rw [h.goal_eq hb ha]
  exact List.prefix_append _ _

theorem goal_ne_place (h : layout.Separate) (hb : b.name ≠ "") (ha : a ∈ layout.artifacts.toList)
    {a' : Artifact} (ha' : a' ∈ layout.artifacts.toList) :
    a.goal (Matrix.destination layout b) ≠ a'.place layout.buildDir :=
  fun he => h.place a' ha' (he ▸ h.goal_below hb ha)

/-- Boards with different directories share no copy. -/
theorem goal_not_mem (h : layout.Separate) (hb : b.name ≠ "") (ha : a ∈ layout.artifacts.toList)
    {b' : Board} (hb' : b'.name ≠ "") (hne : b.directoryName ≠ b'.directoryName) :
    a.goal (Matrix.destination layout b) ∉
      layout.artifacts.toList.map (Artifact.goal (Matrix.destination layout b')) := by
  intro hmem
  obtain ⟨a', ha', he⟩ := List.mem_map.mp hmem
  rw [h.goal_eq hb ha, h.goal_eq hb' ha'] at he
  have he := List.append_cancel_left he
  simp only [List.cons.injEq, Component.name.injEq] at he
  exact hne he.1.symm

end Layout.Separate

end FirmwareMatrix
