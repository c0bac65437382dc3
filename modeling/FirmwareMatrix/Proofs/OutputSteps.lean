import FirmwareMatrix.Artifact

/-! # Handling outputs, one operation at a time

What the walks over the outputs do at their first output, on any file system: which operation they
ask for and how they go on from its answer. -/

namespace FirmwareMatrix

theorem StateM.bind_apply {σ α β : Type} (m : StateM σ α) (f : α → StateM σ β) (w : σ) :
    (m >>= f) w = f (m w).1 (m w).2 := rfl

theorem StateM.pure_apply {σ α : Type} (a : α) (w : σ) : (pure a : StateM σ α) w = (a, w) := rfl

theorem StateM.get_apply {σ : Type} (w : σ) : (get : StateM σ σ) w = (w, w) := rfl

theorem StateM.modify_apply {σ : Type} (f : σ → σ) (w : σ) :
    (modify f : StateM σ Unit) w = ((), f w) := rfl

namespace ArtifactSet

variable {σ : Type} (fs : FileSystem σ) (dir dest : Path) (a : Artifact) (as : List Artifact)

theorem clearEach_cons (w : σ) :
    clearEach fs dir (a :: as) w =
      match fs.isFile (dir.join a.source) w with
      | (true, w) =>
        match fs.removeFile (dir.join a.source) w with
        | (.ok _, w) => clearEach fs dir as w
        | (.error f, w) => (.error (f.during (.clearingArtifact a.label)), w)
      | (false, w) => clearEach fs dir as w := by
  simp only [clearEach, StateM.bind_apply]
  rcases fs.isFile (dir.join a.source) w with ⟨_ | _, w⟩
  · rfl
  · simp only [if_true, StateM.bind_apply]
    rcases fs.removeFile (dir.join a.source) w with ⟨_ | _, w⟩ <;> rfl

theorem firstMissing?_cons (w : σ) :
    firstMissing? fs dir (a :: as) w =
      match fs.isFile (dir.join a.source) w with
      | (true, w) => firstMissing? fs dir as w
      | (false, w) => (some (dir.join a.source), w) := by
  simp only [firstMissing?, StateM.bind_apply]
  rcases fs.isFile (dir.join a.source) w with ⟨_ | _, w⟩ <;> rfl

theorem deliverEach_cons (w : σ) :
    deliverEach fs dir dest (a :: as) w =
      match fs.copy (dir.join a.source) (dest.child a.deliveredAs) w with
      | (.error f, w) => (.error (f.during (.copyingArtifact a.label)), w)
      | (.ok _, w) =>
        match deliverEach fs dir dest as w with
        | (.error f, w) => (.error f, w)
        | (.ok paths, w) => (.ok (dest.child a.deliveredAs :: paths), w) := by
  simp only [deliverEach, StateM.bind_apply]
  rcases fs.copy (dir.join a.source) (dest.child a.deliveredAs) w with ⟨_ | _, w⟩
  · rfl
  · simp only [StateM.bind_apply]
    rcases deliverEach fs dir dest as w with ⟨_ | _, w⟩ <;> rfl

theorem deliver_eq (set : ArtifactSet) (w : σ) :
    set.deliver fs dir dest w =
      match fs.createDirectories dest w with
      | (.error f, w) => (.error (f.during (.creatingOutput dest)), w)
      | (.ok _, w) => deliverEach fs dir dest set.toList w := by
  simp only [deliver, StateM.bind_apply]
  rcases fs.createDirectories dest w with ⟨_ | _, w⟩ <;> rfl

end ArtifactSet

end FirmwareMatrix
