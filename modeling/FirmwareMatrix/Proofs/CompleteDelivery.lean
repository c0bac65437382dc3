import FirmwareMatrix.Proofs.Separation
import FirmwareMatrix.Proofs.TreeListing

/-! # Complete deliveries

A delivery into a tree succeeds exactly if all outputs are there and no file is in the place of the
directory for the copies. Then a place holds what the last output that was copied there held. The
image keeps its file name and the other two have names of their own, so the three copies are three
files, each with the bytes of its output, unless the image is called like one of the others. -/

namespace FirmwareMatrix

namespace ArtifactSet

variable {dir dest : Path} {as : List Artifact} {set : ArtifactSet} {t t' : Tree}
  {copies : List Path}

/-- Outputs that are all there are all copied into a directory. -/
theorem deliverEach_tree_complete (hnil : dest.components ≠ [])
    (hname : ∀ a ∈ as, Path.IsName a.deliveredAs) (hdest : (t.names? dest.components).isSome = true)
    (hfiles : ∀ a ∈ as, (t.file? (a.place dir)).isSome = true) :
    ∃ copies t', deliverEach Tree.fileSystem dir dest as t = (.ok copies, t') := by
  induction as generalizing t with
  | nil => exact ⟨[], t, rfl⟩
  | cons a as ih =>
    obtain ⟨hname, hnames⟩ := List.forall_mem_cons.mp hname
    obtain ⟨hfile, hfiles⟩ := List.forall_mem_cons.mp hfiles
    obtain ⟨bytes, hbytes⟩ := Option.isSome_iff_exists.mp hfile
    have hgoal : (dest.child a.deliveredAs).components =
        dest.components ++ [.name a.deliveredAs] := Path.components_child hname
    have hcopy : Tree.fileSystem.copy (dir.join a.source) (dest.child a.deliveredAs) t =
        (.ok (), t.addFile (dest.child a.deliveredAs).components bytes) := by
      rw [Tree.fileSystem_copy, Tree.change, Tree.copy,
        show t.file? (dir.join a.source).components = some bytes from hbytes, hgoal,
        Tree.above?_append_name hnil]
      simp [hdest]
    have hdest₁ : ((t.addFile (dest.child a.deliveredAs).components bytes).names?
        dest.components).isSome = true := by
      have hne : dest.components ≠ (dest.child a.deliveredAs).components := by simp [hgoal]
      exact (Tree.extends_addFile hne t bytes).isSome hdest
    have hfiles₁ : ∀ a' ∈ as, ((t.addFile (dest.child a.deliveredAs).components bytes).file?
        (a'.place dir)).isSome = true := by
      intro a' ha'
      rw [Tree.file?_addFile]
      split
      · rfl
      · exact hfiles a' ha'
    obtain ⟨copies, t', hrest⟩ := ih hnames hdest₁ hfiles₁
    refine ⟨dest.child a.deliveredAs :: copies, t', ?_⟩
    rw [deliverEach_cons, hcopy]
    simp only [hrest]

theorem deliverEach_tree_copies
    (h : deliverEach Tree.fileSystem dir dest as t = (.ok copies, t')) :
    copies = as.map fun a => dest.child a.deliveredAs := by
  induction as generalizing t copies with
  | nil => exact (Except.ok.inj (Prod.mk.inj h).1).symm
  | cons a as ih =>
    obtain ⟨bytes, rest, -, rfl, hrest⟩ := deliverEach_tree_cons_ok h
    rw [ih hrest, List.map_cons]

/-- What is copied was there before the first copy. -/
theorem deliverEach_tree_outputs (hsep : ∀ a ∈ as, ∀ b ∈ as, a.goal dest ≠ b.place dir)
    (h : deliverEach Tree.fileSystem dir dest as t = (.ok copies, t')) :
    ∀ a ∈ as, (t.file? (a.place dir)).isSome = true := by
  induction as generalizing t copies with
  | nil => simp
  | cons a as ih =>
    obtain ⟨bytes, rest, hbytes, -, hrest⟩ := deliverEach_tree_cons_ok h
    have hsep' : ∀ b ∈ as, ∀ c ∈ as, b.goal dest ≠ c.place dir := fun b hb c hc =>
      hsep b (List.mem_cons_of_mem _ hb) c (List.mem_cons_of_mem _ hc)
    intro b hb
    rcases List.mem_cons.mp hb with rfl | hb
    · rw [hbytes, Option.isSome_some]
    · have hne : b.place dir ≠ a.goal dest :=
        (hsep a List.mem_cons_self b (List.mem_cons_of_mem _ hb)).symm
      have houtput := ih hsep' hrest b hb
      rwa [Tree.file?_addFile, if_neg hne] at houtput

/-- A delivery succeeds exactly if its directory can be made and all outputs are there. -/
theorem deliver_tree_isOk_iff (hnil : dest.components ≠ [])
    (hname : ∀ a ∈ set.toList, Path.IsName a.deliveredAs)
    (hsep : ∀ a ∈ set.toList, ∀ b ∈ set.toList, a.goal dest ≠ b.place dir) :
    (∃ copies, (set.deliver Tree.fileSystem dir dest t).1 = .ok copies) ↔
      t.file? dest.components = none ∧
        ∀ a ∈ set.toList, (t.file? (a.place dir)).isSome = true := by
  constructor
  · rintro ⟨copies, hcopies⟩
    have h : set.deliver Tree.fileSystem dir dest t = (.ok copies, _) := Prod.ext hcopies rfl
    rcases deliver_tree_cases h with ⟨-, -, f, hf⟩ | ⟨hfree, hmade⟩
    · cases hf
    · refine ⟨hfree, fun a ha => ?_⟩
      rw [← Tree.file?_addDirectory t dest.components]
      exact deliverEach_tree_outputs hsep hmade a ha
  · rintro ⟨hfree, houtputs⟩
    have houtputs' : ∀ a ∈ set.toList,
        ((t.addDirectory dest.components).file? (a.place dir)).isSome = true := by
      intro a ha
      rw [Tree.file?_addDirectory]
      exact houtputs a ha
    obtain ⟨copies, t', hcopies⟩ := deliverEach_tree_complete hnil hname
      (Tree.names?_addDirectory hfree) houtputs'
    refine ⟨copies, ?_⟩
    rw [deliver_eq, Tree.createDirectories_tree, hfree]
    exact congrArg Prod.fst hcopies

/-- What a delivery that succeeds names and leaves. -/
theorem deliver_tree_file? (hsep : ∀ a ∈ set.toList, ∀ b ∈ set.toList, a.goal dest ≠ b.place dir)
    (h : set.deliver Tree.fileSystem dir dest t = (.ok copies, t')) :
    (copies = set.toList.map fun a => dest.child a.deliveredAs) ∧
      ∀ q, t'.file? q = (set.toList.reverse.find? fun a => a.goal dest = q).elim (t.file? q)
        fun a => t.file? (a.place dir) := by
  rcases deliver_tree_cases h with ⟨-, -, f, hf⟩ | ⟨-, hmade⟩
  · cases hf
  · refine ⟨deliverEach_tree_copies hmade, fun q => ?_⟩
    rw [deliverEach_tree_file? hsep hmade]
    simp only [Tree.file?_addDirectory]

end ArtifactSet

namespace ArtifactPaths

theorem deliveredAs_eq (paths : ArtifactPaths) :
    paths.artifacts.toList.map Artifact.deliveredAs =
      [paths.image.fileName.getD "app.bin", "bootloader.bin", "partition_table.bin"] := rfl

/-- The names of copies differ unless the image is called like one of the other two. -/
theorem deliveredAs_nodup_iff (paths : ArtifactPaths) :
    (paths.artifacts.toList.map Artifact.deliveredAs).Nodup ↔
      paths.image.fileName ∉ [some "bootloader.bin", some "partition_table.bin"] := by
  rw [deliveredAs_eq]
  cases paths.image.fileName with
  | none => decide
  | some d => simp

/-- A delivery into a directory that lies apart from the outputs succeeds exactly if nothing is in
its way. A place then holds what the last output copied there held, and the copies are three files
that hold what their outputs held exactly if the image has a name of its own. -/
theorem deliver_three_iff (paths : ArtifactPaths) {build dest : Path} (hdest : dest.IsPlain)
    (hapart : Path.Apart build dest) (t : Tree) :
    let outputs := paths.artifacts.toList
    let ended := paths.artifacts.deliver Tree.fileSystem build dest t
    ((∃ copies, ended.1 = .ok copies) ↔ t.file? dest.components = none ∧
      ∀ a ∈ outputs, (t.file? (a.place build)).isSome = true) ∧
    ∀ copies, ended.1 = .ok copies →
      (copies = outputs.map fun a => dest.child a.deliveredAs) ∧
      (∀ q, ended.2.file? q = (outputs.reverse.find? fun a => a.goal dest = q).elim (t.file? q)
        fun a => t.file? (a.place build)) ∧
      ((∀ a ∈ outputs, ended.2.file? (a.goal dest) = t.file? (a.place build)) ∧
          (copies.Pairwise fun p q => p.components ≠ q.components) ↔
        paths.image.fileName ∉ [some "bootloader.bin", some "partition_table.bin"]) := by
  intro outputs ended
  have hname := paths.isName_deliveredAs
  have hsep : ∀ a ∈ outputs, ∀ b ∈ outputs, a.goal dest ≠ b.place build := fun a ha b _ =>
    Artifact.goal_ne_place hapart hdest (hname a ha) b
  refine ⟨ArtifactSet.deliver_tree_isOk_iff hapart.symm.components_ne_nil hname hsep,
    fun copies hcopies => ?_⟩
  have h : paths.artifacts.deliver Tree.fileSystem build dest t = (.ok copies, ended.2) :=
    Prod.ext hcopies rfl
  obtain ⟨hpaths, hfiles⟩ := ArtifactSet.deliver_tree_file? hsep h
  have hdistinct : (copies.Pairwise fun p q => p.components ≠ q.components) ↔
      (outputs.map (Artifact.goal dest)).Nodup := by
    rw [hpaths, List.nodup_iff_pairwise_ne, List.pairwise_map, List.pairwise_map]
    rfl
  refine ⟨hpaths, hfiles, ?_⟩
  rw [hdistinct, and_iff_right_of_imp fun hnodup => ArtifactSet.deliver_tree_ok hnodup hsep h,
    Artifact.goals_nodup_iff hname, deliveredAs_nodup_iff]

/-- A build directory in which each output holds a byte of its own. -/
def built (paths : ArtifactPaths) : Tree :=
  [(paths.image, 1), (paths.bootloader, 2), (paths.partitionTable, 3)].foldl
    (fun t (output, byte) => t.addFile ((Path.mk "build").join output).components [byte]) .empty

/-- The usual outputs are delivered as three files. -/
theorem default_deliver_three :
    let outputs := default.artifacts.toList
    let ended := default.artifacts.deliver Tree.fileSystem ⟨"build"⟩ ⟨"out/A"⟩ default.built
    ∃ copies, ended.1 = .ok copies ∧
      (∀ a ∈ outputs, ended.2.file? (a.goal ⟨"out/A"⟩) = default.built.file? (a.place ⟨"build"⟩)) ∧
      copies.Pairwise fun p q => p.components ≠ q.components := by
  have hdest : Path.IsPlain ⟨"out/A"⟩ := by decide +kernel
  have hapart : Path.Apart ⟨"build"⟩ ⟨"out/A"⟩ := by decide +kernel
  obtain ⟨hok, hcopies⟩ := deliver_three_iff default hdest hapart default.built
  obtain ⟨copies, h⟩ := hok.mpr ⟨by decide +kernel, by decide +kernel⟩
  obtain ⟨-, -, hiff⟩ := hcopies copies h
  exact ⟨copies, h, hiff.mpr (by decide +kernel)⟩

/-- Outputs of which the image is called like the copy of the bootloader. -/
def loaderNamed : ArtifactPaths := { default with image := ⟨"bootloader.bin"⟩ }

/-- Settings with these outputs hold together, and a delivery of all three reports three copies:
the first two are one file, which no longer holds the image. -/
theorem loaderNamed_overwritten :
    let settings := { Settings.default with artifacts := loaderNamed }
    let image := loaderNamed.artifacts.image
    let ended := loaderNamed.artifacts.deliver Tree.fileSystem ⟨"build"⟩ ⟨"out/A"⟩ loaderNamed.built
    settings.validate = .ok settings ∧
      (Path.mk "build").IsPlain ∧ (Path.mk "out/A").IsPlain ∧
      Path.Apart ⟨"build"⟩ ⟨"out/A"⟩ ∧
      ended.1.toOption.map (·.map Path.text) =
        some ["out/A/bootloader.bin", "out/A/bootloader.bin", "out/A/partition_table.bin"] ∧
      loaderNamed.built.file? (image.place ⟨"build"⟩) = some [1] ∧
      ended.2.file? (image.goal ⟨"out/A"⟩) = some [2] :=
  ⟨rfl, by decide +kernel, by decide +kernel, by decide +kernel, by decide +kernel,
    by decide +kernel, by decide +kernel⟩

end ArtifactPaths

end FirmwareMatrix
