import FirmwareMatrix.Proofs.TreeOutputs

/-! # Clearing outputs in a tree in memory

Clearing walks over the outputs and takes away those that are files. Taking a file away empties its
place and strikes its name from one listing; what stands at another place stays, and so does its
kind, also where outputs coincide, lie in one another or are directories. The whole walk is told by
one equation for each place, and everything else is read off it. -/

namespace FirmwareMatrix

namespace Tree

/-! ## Taking one file away -/

/-- Where the directory of a place is, it lists the place under this name. -/
def listsAs (p a : List Component) (name : String) : Bool :=
  (above? p).getD [.here] = a ∧ nameOf? p = some name

/-- An entry without some of the names that it lists, if it is a directory. -/
def Node.without (gone : String → Bool) : Node → Node
  | .file bytes => .file bytes
  | .directory names => .directory (names.filter fun name => !gone name)

@[simp] theorem Node.without_none : Node.without (fun _ => false) = id := by
  funext n
  cases n <;> simp [Node.without]

@[simp] theorem Node.without_without (gone gone' : String → Bool) (n : Node) :
    (n.without gone).without gone' = n.without fun name => gone name || gone' name := by
  cases n with
  | file bytes => rfl
  | directory names =>
    simp only [Node.without, List.filter_filter]
    congr 2
    funext name
    cases gone name <;> cases gone' name <;> rfl

/-- An entry that lists fewer names is a file with the same bytes, or a directory, as before. -/
theorem views_of_without {t t' : Tree} {q : List Component} {gone : String → Bool}
    (h : t'.lookup q = (t.lookup q).map (Node.without gone)) :
    t'.file? q = t.file? q ∧
      t'.names? q = (t.names? q).map (List.filter fun name => !gone name) := by
  simp only [file?, names?, h]
  cases t.lookup q with
  | none => exact ⟨rfl, rfl⟩
  | some node => cases node <;> exact ⟨rfl, rfl⟩

theorem names?_eq_none_of_file {t : Tree} {q : List Component} (h : (t.file? q).isSome = true) :
    t.names? q = none := by
  unfold file? at h
  unfold names?
  split at h
  · next hnode => rw [hnode]
  · cases h

theorem listsAs_of_ne {p a : List Component} (h : (above? p).getD [.here] ≠ a) :
    listsAs p a = fun _ => false := by
  funext name
  simp [listsAs, h]

theorem lookup_unlink (t : Tree) (p q : List Component) :
    (t.unlink p).lookup q = (t.lookup q).map (Node.without (listsAs p q)) := by
  unfold unlink
  cases hname : nameOf? p with
  | none =>
    have hnone : listsAs p q = fun _ => false := by
      funext name
      simp [listsAs, hname]
    simp [hnone]
  | some name =>
    dsimp only
    by_cases hq : (above? p).getD [.here] = q
    · -- the listing that the name is struck from
      rw [hq]
      have hgone : listsAs p q = fun n => name == n := by
        funext n
        simp [listsAs, hq, hname, Bool.beq_eq_decide_eq]
      cases hnode : t.lookup q with
      | none => simp [hnode]
      | some node =>
        cases node with
        | file bytes => simp [hnode, Node.without]
        | directory names =>
          simp only [lookup_insert, if_true, Option.map_some, hgone, Node.without]
          congr 3
          funext n
          rw [bne, BEq.comm]
    · have hsame : (t.lookup q).map (Node.without (listsAs p q)) = t.lookup q := by
        simp [listsAs_of_ne hq]
      rw [hsame]
      cases hnode : t.lookup ((above? p).getD [.here]) with
      | none => rfl
      | some node =>
        cases node with
        | file bytes => rfl
        | directory names => simp [Ne.symm hq]

/-- A file that is taken away leaves its place and the listing of its directory. -/
theorem lookup_discard (t : Tree) (p q : List Component) :
    (t.discard p).lookup q =
      if (t.file? p).isSome ∧ q = p then none
      else (t.lookup q).map (Node.without fun name => (t.file? p).isSome && listsAs p q name) := by
  unfold discard
  by_cases hfile : (t.file? p).isSome = true
  · rw [if_pos hfile, lookup_unlink, lookup_erase]
    by_cases hq : q = p
    · simp [hfile, hq]
    · simp [hfile, hq]
  · rw [if_neg hfile]
    simp [hfile]

end Tree

namespace ArtifactSet

variable {dir : Path} {as : List Artifact} {t : Tree}

/-! ## Taking away all that are there -/

/-- The places of outputs at which a file is. -/
def stale (dir : Path) (as : List Artifact) (t : Tree) : List (List Component) :=
  (as.map (Artifact.place dir)).filter fun p => (t.file? p).isSome

theorem mem_stale {p : List Component} :
    p ∈ stale dir as t ↔ p ∈ as.map (Artifact.place dir) ∧ (t.file? p).isSome = true :=
  List.mem_filter

/-- Of the outputs, the first that is taken away is not stale any more. -/
theorem mem_stale_discard {p q : List Component} :
    q ∈ stale dir as (t.discard p) ↔ q ∈ stale dir as t ∧ q ≠ p := by
  simp only [mem_stale, Tree.file?_discard]
  by_cases hq : q = p <;> simp [hq]

theorem mem_stale_cons {a : Artifact} {q : List Component} :
    q ∈ stale dir (a :: as) t ↔
      (q = a.place dir ∧ (t.file? (a.place dir)).isSome = true) ∨
        q ∈ stale dir as (t.discard (a.place dir)) := by
  rw [mem_stale_discard, mem_stale, mem_stale, List.map_cons, List.mem_cons]
  by_cases hq : q = a.place dir
  · simp [hq]
  · simp [hq]

/-- What each place holds when all stale outputs are gone. -/
theorem lookup_discards (dir : Path) (as : List Artifact) (t : Tree) (q : List Component) :
    (as.foldl (fun t a => t.discard (a.place dir)) t).lookup q =
      if q ∈ stale dir as t then none
      else (t.lookup q).map
        (Tree.Node.without fun name => (stale dir as t).any fun p => Tree.listsAs p q name) := by
  induction as generalizing t with
  | nil => simp [stale]
  | cons a as ih =>
    have hgone (name : String) :
        ((stale dir (a :: as) t).any fun p => Tree.listsAs p q name) =
          (((t.file? (a.place dir)).isSome && Tree.listsAs (a.place dir) q name) ||
            (stale dir as (t.discard (a.place dir))).any fun p => Tree.listsAs p q name) := by
      rw [Bool.eq_iff_iff]
      simp only [List.any_eq_true, mem_stale_cons, Bool.or_eq_true, Bool.and_eq_true]
      constructor
      · rintro ⟨p, ⟨rfl, hfile⟩ | hp, hlists⟩
        · exact .inl ⟨hfile, hlists⟩
        · exact .inr ⟨p, hp, hlists⟩
      · rintro (⟨hfile, hlists⟩ | ⟨p, hp, hlists⟩)
        · exact ⟨_, .inl ⟨rfl, hfile⟩, hlists⟩
        · exact ⟨p, .inr hp, hlists⟩
    rw [List.foldl_cons, ih, Tree.lookup_discard]
    simp only [mem_stale_cons, hgone]
    by_cases hrest : q ∈ stale dir as (t.discard (a.place dir))
    · simp [hrest]
    · by_cases hfirst : q = a.place dir ∧ (t.file? (a.place dir)).isSome = true
      · simp [hfirst]
      · have hkept : ¬ ((t.file? (a.place dir)).isSome = true ∧ q = a.place dir) :=
          fun h => hfirst ⟨h.2, h.1⟩
        simp [hrest, hfirst, hkept, Option.map_map, Function.comp_def]

/-- Where no output is a file, nothing is taken away. -/
theorem discards_of_none (h : ∀ a ∈ as, t.file? (a.place dir) = none) :
    as.foldl (fun t a => t.discard (a.place dir)) t = t := by
  induction as with
  | nil => rfl
  | cons a as ih =>
    obtain ⟨ha, has⟩ := List.forall_mem_cons.mp h
    rw [List.foldl_cons, Tree.discard_of_not_isSome (by simp [ha]), ih has]

/-- A check reports the first output if that is no file. -/
theorem missing?_tree_some {set : ArtifactSet} (h : t.file? (set.image.place dir) = none) :
    set.missing? Tree.fileSystem dir t = (some (dir.join set.image.source), t) := by
  have hfile : (t.file? (dir.join set.image.source).components).isSome = false := by
    rw [← Artifact.place, h, Option.isSome_none]
  rw [missing?, toList, firstMissing?_cons, Tree.fileSystem_isFile, hfile]

/-- Clearing never fails, and takes away the outputs that are files. No output is a file then, and a
check misses the image first. Every other place is as it was: it is there or not, a file with its
bytes or a directory, and a directory lists what it listed, but for the names of files that were
taken out of it. Clearing once more changes nothing. -/
theorem clear_takes_stale (dir : Path) (set : ArtifactSet) (t : Tree) :
    let gone := stale dir set.toList t
    let ended := set.clear Tree.fileSystem dir t
    ended.1 = .ok () ∧
    (∀ a ∈ set.toList, ended.2.file? (a.place dir) = none) ∧
    set.missing? Tree.fileSystem dir ended.2 = (some (dir.join set.image.source), ended.2) ∧
    (∀ q, ended.2.contains q = (t.contains q && !decide (q ∈ gone))) ∧
    (∀ q, q ∉ gone → ended.2.file? q = t.file? q) ∧
    (∀ q, ended.2.names? q = (t.names? q).map
      (List.filter fun name => !gone.any fun p => Tree.listsAs p q name)) ∧
    set.clear Tree.fileSystem dir ended.2 = (.ok (), ended.2) := by
  intro gone ended
  have hok : ended.1 = .ok () := congrArg Prod.fst (clear_tree dir set t)
  have hafter : ended.2 = set.toList.foldl (fun t a => t.discard (a.place dir)) t :=
    congrArg Prod.snd (clear_tree dir set t)
  have hlookup (q : List Component) : ended.2.lookup q =
      if q ∈ gone then none
      else (t.lookup q).map
        (Tree.Node.without fun name => gone.any fun p => Tree.listsAs p q name) := by
    rw [hafter]
    exact lookup_discards dir set.toList t q
  have hnone : ∀ a ∈ set.toList, ended.2.file? (a.place dir) = none := by
    intro a ha
    rw [hafter, file?_discards, if_pos (List.mem_map_of_mem ha)]
  refine ⟨hok, hnone, missing?_tree_some (hnone _ List.mem_cons_self), fun q => ?_,
    fun q hq => ?_, fun q => ?_, ?_⟩
  · by_cases hq : q ∈ gone <;> simp [Tree.contains, hlookup, hq]
  · have hkept := hlookup q
    rw [if_neg hq] at hkept
    exact (Tree.views_of_without hkept).1
  · have hkept := hlookup q
    by_cases hq : q ∈ gone
    · -- a file was there, which lists nothing
      rw [if_pos hq] at hkept
      rw [Tree.names?_eq_none_of_file (mem_stale.mp hq).2, Tree.names?, hkept]
      rfl
    · rw [if_neg hq] at hkept
      exact (Tree.views_of_without hkept).2
  · rw [clear_tree, discards_of_none hnone]

end ArtifactSet

end FirmwareMatrix
