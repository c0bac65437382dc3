import FirmwareMatrix.Proofs.OutputSteps
import FirmwareMatrix.Proofs.TreeLookup

/-! # Outputs in a tree in memory

Clearing never fails there and takes exactly the outputs away. Delivering touches no file but the
copies. When it succeeds, a place holds what the last output that was copied there held before; so
copies that go to different places all hold what their outputs held. -/

namespace FirmwareMatrix

/-- Where the tool writes an output. -/
def Artifact.place (dir : Path) (a : Artifact) : List Component := (dir.join a.source).components

/-- Where an output is delivered to. -/
def Artifact.goal (dest : Path) (a : Artifact) : List Component :=
  (dest.child a.deliveredAs).components

namespace Tree

theorem fileSystem_isFile (t : Tree) (p : Path) :
    fileSystem.isFile p t = ((t.file? p.components).isSome, t) := rfl

theorem fileSystem_copy (t : Tree) (source dest : Path) :
    fileSystem.copy source dest t = change (·.copy source dest) t := rfl

theorem fileSystem_createDirectories (t : Tree) (p : Path) :
    fileSystem.createDirectories p t = change (·.createDirectories p) t := rfl

/-- Removing a file that is there does not fail. -/
theorem fileSystem_removeFile {t : Tree} {p : Path} (h : (t.file? p.components).isSome = true) :
    fileSystem.removeFile p t = (.ok (), t.discard p.components) := by
  obtain ⟨bytes, hb⟩ := Option.isSome_iff_exists.mp h
  have hl : t.lookup p.components = some (.file bytes) := by
    unfold file? at hb
    split at hb
    · next heq => rw [heq, Option.some.inj hb]
    · cases hb
  show change (·.removeFile p) t = _
  simp only [change, removeFile, hl, discard, h, if_true]

theorem discard_of_not_isSome {t : Tree} {p : List Component} (h : (t.file? p).isSome = false) :
    t.discard p = t := by
  simp [discard, h]

theorem change_ok {f : Tree → Except Failure Tree} {t t' : Tree}
    (h : change f t = (.ok (), t')) : f t = .ok t' := by
  unfold change at h
  split at h
  · next heq => rw [heq, (Prod.mk.inj h).2]
  · cases (Prod.mk.inj h).1

theorem change_error {f : Tree → Except Failure Tree} {t t' : Tree} {e : Failure}
    (h : change f t = (.error e, t')) : t' = t := by
  unfold change at h
  split at h
  · cases (Prod.mk.inj h).1
  · exact (Prod.mk.inj h).2.symm

theorem copy_ok {t t' : Tree} {source dest : Path} (h : t.copy source dest = .ok t') :
    ∃ bytes, t.file? source.components = some bytes ∧ t' = t.addFile dest.components bytes := by
  unfold copy at h
  split at h
  · cases h
  · next bytes hb =>
    dsimp only at h
    split at h
    · exact ⟨bytes, hb, (Except.ok.inj h).symm⟩
    · cases h

theorem createDirectories_ok {t t' : Tree} {p : Path} (h : t.createDirectories p = .ok t') :
    t' = t.addDirectory p.components := by
  unfold createDirectories at h
  split at h
  · cases h
  · exact (Except.ok.inj h).symm

theorem createDirectories_tree (t : Tree) (p : Path) :
    fileSystem.createDirectories p t =
      if (t.file? p.components).isSome then (.error (.ofCause (.fileInPlace p)), t)
      else (.ok (), t.addDirectory p.components) := by
  rw [fileSystem_createDirectories]
  by_cases h : (t.file? p.components).isSome = true <;> simp [change, createDirectories, h]

end Tree

namespace ArtifactSet

/-! ## Clearing -/

theorem clearEach_tree (dir : Path) (as : List Artifact) (t : Tree) :
    clearEach Tree.fileSystem dir as t =
      (.ok (), as.foldl (fun t a => t.discard (a.place dir)) t) := by
  induction as generalizing t with
  | nil => rfl
  | cons a as ih =>
    rw [clearEach_cons, Tree.fileSystem_isFile, List.foldl_cons]
    cases hf : (t.file? (dir.join a.source).components).isSome with
    | true =>
      dsimp only
      rw [Tree.fileSystem_removeFile hf]
      exact ih _
    | false =>
      rw [Artifact.place, Tree.discard_of_not_isSome hf]
      exact ih t

theorem clear_tree (dir : Path) (set : ArtifactSet) (t : Tree) :
    set.clear Tree.fileSystem dir t =
      (.ok (), set.toList.foldl (fun t a => t.discard (a.place dir)) t) :=
  clearEach_tree dir set.toList t

theorem file?_discards (dir : Path) (as : List Artifact) (t : Tree) (q : List Component) :
    (as.foldl (fun t a => t.discard (a.place dir)) t).file? q =
      if q ∈ as.map (Artifact.place dir) then none else t.file? q := by
  induction as generalizing t with
  | nil => simp
  | cons a as ih =>
    rw [List.foldl_cons, ih, Tree.file?_discard]
    by_cases hq : q = a.place dir <;> simp [hq]

theorem agreeBelow_discards {out : List Component} (hout : Tree.Proper out) {dir : Path}
    {as : List Artifact} (h : ∀ a ∈ as, ¬ out <+: a.place dir) (t : Tree) :
    Tree.AgreeBelow out t (as.foldl (fun t a => t.discard (a.place dir)) t) := by
  induction as generalizing t with
  | nil => exact .refl out t
  | cons a as ih =>
    exact (Tree.agreeBelow_discard hout (h a List.mem_cons_self)).trans
      (ih (fun b hb => h b (List.mem_cons_of_mem _ hb)) _)

/-! ## Checking -/

theorem firstMissing?_tree (dir : Path) (as : List Artifact) (t : Tree) :
    (firstMissing? Tree.fileSystem dir as t).2 = t ∧
      ((firstMissing? Tree.fileSystem dir as t).1 = none ↔
        ∀ a ∈ as, (t.file? (a.place dir)).isSome = true) := by
  induction as with
  | nil => exact ⟨rfl, by simp [firstMissing?, StateM.pure_apply]⟩
  | cons a as ih =>
    rw [firstMissing?_cons, Tree.fileSystem_isFile, List.forall_mem_cons, Artifact.place]
    cases hf : (t.file? (dir.join a.source).components).isSome with
    | true => simpa using ih
    | false => simp

theorem missing?_tree_world {dir : Path} {set : ArtifactSet} {t t' : Tree} {r : Option Path}
    (h : set.missing? Tree.fileSystem dir t = (r, t')) : t' = t := by
  have hw := (firstMissing?_tree dir set.toList t).1
  rw [show firstMissing? Tree.fileSystem dir set.toList t = (r, t') from h] at hw
  exact hw

theorem missing?_tree_none {dir : Path} {set : ArtifactSet} {t t' : Tree}
    (h : set.missing? Tree.fileSystem dir t = (none, t')) :
    ∀ a ∈ set.toList, (t.file? (a.place dir)).isSome = true := by
  have hn := (firstMissing?_tree dir set.toList t).2
  rw [show firstMissing? Tree.fileSystem dir set.toList t = (none, t') from h] at hn
  exact hn.mp rfl

/-! ## Delivering -/

section Delivering

variable {dir dest : Path} {a : Artifact} {as : List Artifact} {set : ArtifactSet} {t t' : Tree}
  {r : Except Failure (List Path)} {copies : List Path}

/-- A delivery stops at its first output or goes on from the copy of that. -/
theorem deliverEach_tree_cons (h : deliverEach Tree.fileSystem dir dest (a :: as) t = (r, t')) :
    (t' = t ∧ ∃ f, r = .error f) ∨
      ∃ bytes r', t.file? (a.place dir) = some bytes ∧ r = r'.map (dest.child a.deliveredAs :: ·) ∧
        deliverEach Tree.fileSystem dir dest as (t.addFile (a.goal dest) bytes) = (r', t') := by
  rw [deliverEach_cons, Tree.fileSystem_copy] at h
  cases hc : Tree.change (·.copy (dir.join a.source) (dest.child a.deliveredAs)) t with
  | mk c t₁ =>
    rw [hc] at h
    cases c with
    | error e =>
      obtain rfl := Tree.change_error hc
      obtain ⟨hr, ht⟩ := Prod.mk.inj h
      exact .inl ⟨ht.symm, _, hr.symm⟩
    | ok u =>
      obtain ⟨bytes, hbytes, rfl⟩ := Tree.copy_ok (Tree.change_ok hc)
      cases hrest : deliverEach Tree.fileSystem dir dest as
        (t.addFile (dest.child a.deliveredAs).components bytes) with
      | mk r' t₂ =>
        dsimp only at h
        rw [hrest] at h
        refine .inr ⟨bytes, r', hbytes, ?_⟩
        cases r' with
        | error f | ok rest =>
          obtain ⟨rfl, rfl⟩ := Prod.mk.inj h
          exact ⟨rfl, hrest⟩

theorem deliverEach_tree_cons_ok
    (h : deliverEach Tree.fileSystem dir dest (a :: as) t = (.ok copies, t')) :
    ∃ bytes rest, t.file? (a.place dir) = some bytes ∧
      copies = dest.child a.deliveredAs :: rest ∧
        deliverEach Tree.fileSystem dir dest as (t.addFile (a.goal dest) bytes) =
          (.ok rest, t') := by
  rcases deliverEach_tree_cons h with ⟨-, f, hf⟩ | ⟨bytes, r', hbytes, hcopies, hrest⟩
  · cases hf
  · cases r' with
    | error f => cases hcopies
    | ok rest => exact ⟨bytes, rest, hbytes, Except.ok.inj hcopies, hrest⟩

/-- Only the copies are touched, whether or not all of them are made. -/
theorem deliverEach_tree_frame (h : deliverEach Tree.fileSystem dir dest as t = (r, t')) :
    ∀ q, q ∉ as.map (Artifact.goal dest) → t'.file? q = t.file? q := by
  induction as generalizing t r with
  | nil =>
    obtain rfl : t = t' := (Prod.mk.inj h).2
    exact fun _ _ => rfl
  | cons a as ih =>
    intro q hq
    obtain ⟨hqa, hqas⟩ := not_or.mp (mt List.mem_cons.mpr hq)
    rcases deliverEach_tree_cons h with ⟨rfl, -⟩ | ⟨bytes, r', -, -, hrest⟩
    · rfl
    · rw [ih hrest q hqas, Tree.file?_addFile, if_neg hqa]

/-- A place holds what the last output that is copied there held, or what it held before. -/
theorem deliverEach_tree_file? (hsep : ∀ a ∈ as, ∀ b ∈ as, a.goal dest ≠ b.place dir)
    (h : deliverEach Tree.fileSystem dir dest as t = (.ok copies, t')) (q : List Component) :
    t'.file? q = (as.reverse.find? fun a => a.goal dest = q).elim (t.file? q)
      fun a => t.file? (a.place dir) := by
  induction as generalizing t copies with
  | nil =>
    obtain rfl : t = t' := (Prod.mk.inj h).2
    rfl
  | cons a as ih =>
    obtain ⟨bytes, rest, hbytes, -, hrest⟩ := deliverEach_tree_cons_ok h
    have hsep' : ∀ b ∈ as, ∀ c ∈ as, b.goal dest ≠ c.place dir := fun b hb c hc =>
      hsep b (List.mem_cons_of_mem _ hb) c (List.mem_cons_of_mem _ hc)
    rw [ih hsep' hrest, List.reverse_cons, List.find?_append]
    cases hlast : as.reverse.find? fun a => a.goal dest = q with
    | some b =>
      have hb : b ∈ as := List.mem_reverse.mp (List.mem_of_find?_eq_some hlast)
      have hne : b.place dir ≠ a.goal dest :=
        (hsep a List.mem_cons_self b (List.mem_cons_of_mem _ hb)).symm
      exact (Tree.file?_addFile t _ _ bytes).trans (if_neg hne)
    | none =>
      by_cases hq : a.goal dest = q
      · simp [hq, hbytes]
      · simp [hq, Ne.symm hq]

/-- Each copy holds what its output held. -/
theorem deliverEach_tree_ok (hnodup : (as.map (Artifact.goal dest)).Nodup)
    (hsep : ∀ a ∈ as, ∀ b ∈ as, a.goal dest ≠ b.place dir)
    (h : deliverEach Tree.fileSystem dir dest as t = (.ok copies, t')) :
    ∀ a ∈ as, t'.file? (a.goal dest) = t.file? (a.place dir) := by
  intro a ha
  obtain ⟨before, after, rfl⟩ := List.append_of_mem ha
  have hlast : (before ++ a :: after).reverse.find? (fun b => b.goal dest = a.goal dest) =
      some a := by
    rw [List.find?_eq_some_iff_append]
    refine ⟨by simp, after.reverse, before.reverse, by simp, fun b hb => ?_⟩
    rw [List.map_append, List.map_cons] at hnodup
    have hfresh := (List.nodup_cons.mp (List.nodup_append.mp hnodup).2.1).1
    have hne : b.goal dest ≠ a.goal dest := fun he =>
      hfresh (he ▸ List.mem_map_of_mem (List.mem_reverse.mp hb))
    simp [hne]
  rw [deliverEach_tree_file? hsep h, hlast]
  rfl

/-- A delivery is refused at once or made into a directory that is there. -/
theorem deliver_tree_cases (h : set.deliver Tree.fileSystem dir dest t = (r, t')) :
    ((t.file? dest.components).isSome = true ∧ t' = t ∧ ∃ f, r = .error f) ∨
      (t.file? dest.components = none ∧
        deliverEach Tree.fileSystem dir dest set.toList (t.addDirectory dest.components) =
          (r, t')) := by
  rw [deliver_eq, Tree.createDirectories_tree] at h
  by_cases hfile : (t.file? dest.components).isSome = true
  · rw [if_pos hfile] at h
    obtain ⟨hr, ht⟩ := Prod.mk.inj h
    exact .inl ⟨hfile, ht.symm, _, hr.symm⟩
  · rw [if_neg hfile] at h
    exact .inr ⟨by simpa using hfile, h⟩

theorem deliver_tree_frame (h : set.deliver Tree.fileSystem dir dest t = (r, t')) :
    ∀ q, q ∉ set.toList.map (Artifact.goal dest) → t'.file? q = t.file? q := by
  intro q hq
  rcases deliver_tree_cases h with ⟨-, rfl, -⟩ | ⟨-, hcopies⟩
  · rfl
  · rw [deliverEach_tree_frame hcopies q hq, Tree.file?_addDirectory]

theorem deliver_tree_ok (hnodup : (set.toList.map (Artifact.goal dest)).Nodup)
    (hsep : ∀ a ∈ set.toList, ∀ b ∈ set.toList, a.goal dest ≠ b.place dir)
    (h : set.deliver Tree.fileSystem dir dest t = (.ok copies, t')) :
    ∀ a ∈ set.toList, t'.file? (a.goal dest) = t.file? (a.place dir) := by
  intro a ha
  rcases deliver_tree_cases h with ⟨-, -, f, hf⟩ | ⟨-, hcopies⟩
  · cases hf
  · rw [deliverEach_tree_ok hnodup hsep hcopies a ha, Tree.file?_addDirectory]

end Delivering

end ArtifactSet

end FirmwareMatrix
