import FirmwareMatrix.Proofs.Clearing
import FirmwareMatrix.Proofs.TreeListing

/-! # Operations on a tree in memory

Whatever is asked of a tree, it is left alone, or a file is put at a place, or a directory is made,
or a file is taken away. What an operation leaves alone is read off these four cases: a failed one
leaves the whole tree, and the others touch the file that they are about and listings. -/

namespace FirmwareMatrix.Tree

/-- What can be asked of a tree that changes it. -/
inductive Operation where
  | addFile (path : Path) (bytes : List UInt8)
  | addDirectory (path : Path)
  | write (path : Path) (bytes : List UInt8)
  | createDirectories (path : Path)
  | copy (source dest : Path)
  | removeFile (path : Path)

namespace Operation

def perform : Operation → StateM Tree (Except Failure Unit)
  | addFile path bytes => fun t => (.ok (), t.addFile path.components bytes)
  | addDirectory path => fun t => (.ok (), t.addDirectory path.components)
  | write path bytes => fileSystem.write path bytes
  | createDirectories path => fileSystem.createDirectories path
  | copy source dest => fileSystem.copy source dest
  | removeFile path => fileSystem.removeFile path

/-- Where an operation puts a file, and what the file holds then. -/
def puts? (t : Tree) : Operation → Option (Path × List UInt8)
  | addFile path bytes => some (path, bytes)
  | write path bytes => some (path, bytes)
  | copy source dest => (t.contents? source).map fun bytes => (dest, bytes)
  | _ => none

/-- The directory that an operation makes. -/
def makes? : Operation → Option Path
  | addDirectory path => some path
  | createDirectories path => some path
  | _ => none

theorem puts?_of_makes? {t : Tree} {op : Operation} {path : Path} (h : op.makes? = some path) :
    op.puts? t = none := by
  cases op with
  | addDirectory | createDirectories => rfl
  | addFile | write | copy | removeFile => cases h

/-- What an operation needs in order not to fail. -/
def Possible (t : Tree) : Operation → Prop
  | createDirectories path => t.file? path.components = none
  | copy source dest => (t.file? source.components).isSome = true ∧
      (t.names? ((above? dest.components).getD [.here])).isSome = true
  | removeFile path => (t.file? path.components).isSome = true
  | _ => True

/-- How an operation can end, and the tree that it leaves. -/
inductive Ends (t : Tree) : Operation → Except Failure Unit → Tree → Prop
  | failed {op : Operation} (e : Failure) (impossible : ¬ op.Possible t) : Ends t op (.error e) t
  | put {op : Operation} {path : Path} {bytes : List UInt8} (possible : op.Possible t)
    (puts : op.puts? t = some (path, bytes)) : Ends t op (.ok ()) (t.addFile path.components bytes)
  | made {op : Operation} {path : Path} (possible : op.Possible t) (makes : op.makes? = some path) :
    Ends t op (.ok ()) (t.addDirectory path.components)
  | taken {path : Path} (possible : (removeFile path).Possible t) :
    Ends t (removeFile path) (.ok ()) (t.discard path.components)

theorem ends_copy (t : Tree) (source dest : Path) :
    Ends t (copy source dest) (fileSystem.copy source dest t).1
      (fileSystem.copy source dest t).2 := by
  rw [fileSystem_copy]
  cases hsource : t.file? source.components with
  | none =>
    simp only [change, Tree.copy, hsource]
    exact .failed _ fun h => by simp [Possible, hsource] at h
  | some bytes =>
    simp only [change, Tree.copy, hsource]
    by_cases hdir : (t.names? ((above? dest.components).getD [.here])).isSome = true
    · simp only [hdir, if_true]
      exact .put ⟨by simp [hsource], hdir⟩ (by simp [puts?, contents?, hsource])
    · simp only [if_neg hdir]
      exact .failed _ fun h => hdir h.2

theorem ends_removeFile (t : Tree) (path : Path) :
    Ends t (removeFile path) (fileSystem.removeFile path t).1
      (fileSystem.removeFile path t).2 := by
  cases hfile : (t.file? path.components).isSome with
  | true =>
    rw [fileSystem_removeFile hfile]
    exact .taken hfile
  | false =>
    have himpossible : ¬ (removeFile path).Possible t := fun h => by simp [Possible, hfile] at h
    show Ends t _ (change (·.removeFile path) t).1 (change (·.removeFile path) t).2
    cases hnode : t.lookup path.components with
    | none =>
      simp only [change, Tree.removeFile, hnode]
      exact .failed _ himpossible
    | some node =>
      cases node with
      | file bytes => simp [file?, hnode] at hfile
      | directory names =>
        simp only [change, Tree.removeFile, hnode]
        exact .failed _ himpossible

theorem ends (op : Operation) (t : Tree) : Ends t op (op.perform t).1 (op.perform t).2 := by
  cases op with
  | addFile path bytes => exact .put trivial rfl
  | addDirectory path => exact .made trivial rfl
  | write path bytes => exact .put trivial rfl
  | createDirectories path =>
    rw [perform, createDirectories_tree]
    cases hfile : t.file? path.components with
    | none => exact .made hfile rfl
    | some bytes => exact .failed _ fun h => by simp [Possible, hfile] at h
  | copy source dest => exact ends_copy t source dest
  | removeFile path => exact ends_removeFile t path

end Operation

/-- From one tree to the other a file with the bytes was put at a place: whatever else is a file or
a directory stays one, and other files stay as they are. -/
structure PutAt (p : List Component) (bytes : List UInt8) (t t' : Tree) : Prop where
  written : t'.file? p = some bytes
  others : ∀ q, q ≠ p → t'.file? q = t.file? q
  present : ∀ q, t.contains q = true → t'.contains q = true
  files : ∀ q, q ≠ p → (t.file? q).isSome = true → t'.names? q = none
  directories : ∀ q, q ≠ p → (t.names? q).isSome = true → (t'.names? q).isSome = true

theorem putAt_addFile (t : Tree) (p : List Component) (bytes : List UInt8) :
    PutAt p bytes t (t.addFile p bytes) where
  written := by rw [file?_addFile, if_pos rfl]
  others q hq := by rw [file?_addFile, if_neg hq]
  present q hq := contains_addFile p bytes (.inr hq)
  files q hq hfile := names?_eq_none_of_file (by rwa [file?_addFile, if_neg hq])
  directories _ hq hdir := (extends_addFile hq t bytes).isSome hdir

/-- From one tree to the other the place was emptied, and others hold what they held. -/
structure TakenAt (p : List Component) (t t' : Tree) : Prop where
  gone : t'.contains p = false
  present : ∀ q, q ≠ p → t'.contains q = t.contains q
  others : ∀ q, q ≠ p → t'.file? q = t.file? q

theorem TakenAt.contains_iff {t t' : Tree} {p : List Component} (h : TakenAt p t t')
    (q : List Component) : t'.contains q = true ↔ t.contains q = true ∧ q ≠ p := by
  by_cases hq : q = p
  · simp [hq, h.gone]
  · simp [hq, h.present q hq]

theorem takenAt_discard {t : Tree} {p : List Component} (h : (t.file? p).isSome = true) :
    TakenAt p t (t.discard p) where
  gone := by
    rw [contains, lookup_discard, if_pos ⟨h, rfl⟩]
    rfl
  present q hq := by
    rw [contains, lookup_discard, if_neg fun hp => hq hp.2, Option.isSome_map]
    rfl
  others q hq := by rw [file?_discard, if_neg hq]

/-- In every tree an operation fails exactly where something that it needs is missing, and it
leaves the whole tree alone then. Otherwise what puts a file touches no other file and takes
nothing away, what makes directories touches no file, and what removes a file takes away nothing
else. Reading never changes anything. -/
theorem Operation.perform_frame (op : Operation) (t : Tree) :
    ((op.perform t).1 = .ok () ↔ op.Possible t) ∧
    (∀ e, (op.perform t).1 = .error e → (op.perform t).2 = t) ∧
    (∀ path bytes, op.puts? t = some (path, bytes) → (op.perform t).1 = .ok () →
      PutAt path.components bytes t (op.perform t).2) ∧
    (∀ path, op.makes? = some path → ∀ q, (op.perform t).2.file? q = t.file? q) ∧
    (∀ path, op = removeFile path → (op.perform t).1 = .ok () →
      TakenAt path.components t (op.perform t).2) ∧
    (∀ path, (fileSystem.readText path t).2 = t ∧ (fileSystem.readDirectory path t).2 = t) := by
  have hends := op.ends t
  -- only how the operation ended is needed from here on
  generalize (op.perform t).1 = r at hends ⊢
  generalize (op.perform t).2 = t' at hends ⊢
  refine ⟨?_, ?_, ?_, ?_, ?_, fun _ => ⟨rfl, rfl⟩⟩
  · cases hends with
    | failed e impossible => simp [impossible]
    | put possible | made possible | taken possible => simp [possible]
  · rintro e rfl
    cases hends
    rfl
  · rintro path bytes hputs rfl
    cases hends with
    | put _ puts =>
      obtain ⟨rfl, rfl⟩ := Prod.mk.inj (Option.some.inj (puts.symm.trans hputs))
      exact putAt_addFile t _ _
    | made _ makes => simp [puts?_of_makes? makes] at hputs
    | taken => simp [puts?] at hputs
  · intro path hmakes q
    cases hends with
    | failed => rfl
    | put _ puts => simp [puts?_of_makes? hmakes] at puts
    | made => rw [file?_addDirectory]
    | taken => simp [makes?] at hmakes
  · rintro path rfl rfl
    cases hends with
    | put _ puts => simp [puts?] at puts
    | made _ makes => simp [makes?] at makes
    | taken possible => exact takenAt_discard possible

/-! ## Trees that operations lead to -/

/-- The tree after some operations, whether they fail or not. -/
def performAll (ops : List Operation) (t : Tree) : Tree :=
  ops.foldl (fun t op => (op.perform t).2) t

/-- The tree that operations lead to from the one with the current directory alone. -/
def ofOperations (ops : List Operation) : Tree := performAll ops empty

/-- What the three changes keep holds whatever operations lead to the tree. -/
theorem kept_ofOperations {good : Tree → Prop} (hempty : good empty)
    (hput : ∀ t (path : Path) bytes, good t → good (t.addFile path.components bytes))
    (hmake : ∀ t (path : Path), good t → good (t.addDirectory path.components))
    (htake : ∀ t (path : Path), good t → good (t.discard path.components))
    (ops : List Operation) : good (ofOperations ops) := by
  unfold ofOperations performAll
  -- by induction on the operations, from any tree that it holds for
  generalize empty = t at hempty ⊢
  induction ops generalizing t with
  | nil => exact hempty
  | cons op ops ih =>
    have hends := op.ends t
    rw [List.foldl_cons]
    generalize (op.perform t).1 = r at hends
    generalize (op.perform t).2 = t' at hends ⊢
    refine ih t' ?_
    cases hends with
    | failed => exact hempty
    | put => exact hput t _ _ hempty
    | made => exact hmake t _ hempty
    | taken => exact htake t _ hempty

end FirmwareMatrix.Tree
