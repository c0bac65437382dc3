import FirmwareMatrix.Proofs.GenuineListings
import FirmwareMatrix.Proofs.WholeWalk

/-! # The end of a walk

A search keeps no record of where it has been. In every tree that operations lead to it ends all the
same and goes nowhere twice, since listings lead straight down and list no name twice, whatever was
put over or below what. Only the root can be what is no directory, and then it is the first thing
that the walk cannot read. -/

namespace FirmwareMatrix.Discovery

variable {t : Tree} {root : Path} {accepts : String → Bool}

/-- A walk from what is no directory fails at once. -/
theorem walks_unlistable (h : t.names? root.components = none) :
    Walks Tree.fileSystem root accepts [root] ⟨[], []⟩ t [root]
      (.error (.ofCause (.notListable root))) t := by
  have hread : Tree.fileSystem.readDirectory root t =
      (.error (.ofCause (.notListable root)), t) := by
    show (t.readDirectory root, t) = _
    rw [Tree.readDirectory, h]
  have hroot : (root == root) = true := Path.beq_iff.mpr rfl
  refine .failed ?_
  simp only [visit, StateM.bind_apply, hread, hroot, if_true]
  rfl

/-- How a walk ends that goes to no place twice: within a turn for each entry and one more, with an
error exactly if its root is no directory. -/
structure EndsOnce (t : Tree) (root : Path) (dirs : List Path) (answer : Except Failure Found) :
    Prop where
  once : (dirs.map Path.components).Nodup
  bounded : dirs.length ≤ t.entries.length + 1
  failed_iff : (∃ f, answer = .error f) ↔ t.names? root.components = none

theorem exists_walks (hnamed : t.Named) (honce : t.ListsOnce) (root : Path)
    (accepts : String → Bool) :
    ∃ dirs answer, Walks Tree.fileSystem root accepts [root] ⟨[], []⟩ t dirs answer t ∧
      EndsOnce t root dirs answer := by
  cases hroot : t.names? root.components with
  | none =>
    refine ⟨[root], _, walks_unlistable hroot, ?_⟩
    exact {
      once := List.nodup_singleton _
      bounded := by simp
      failed_iff := by simp [hroot] }
  | some names =>
    have hdir : (t.names? root.components).isSome := by rw [hroot, Option.isSome_some]
    obtain ⟨dirs, hwalks, hall⟩ := walks_root hnamed honce hdir accepts
    refine ⟨dirs, _, hwalks, ?_⟩
    exact {
      once := by simpa using hall.nodup_places hnamed
      bounded := hall.turns_le hnamed
      failed_iff := by simp [hroot] }

theorem pairwise_beq_of_nodup {dirs : List Path} (h : (dirs.map Path.components).Nodup) :
    dirs.Pairwise fun p q => (p == q) = false := by
  refine (List.pairwise_map.mp h).imp fun hne => ?_
  rwa [Bool.eq_false_iff, ne_eq, Path.beq_iff]

/-- Whatever was done before, on whatever paths: from every root a walk without a bound ends, goes
to no directory twice, and gives the answer of the search. The files that a search finds are in path
order, no two of them equal, and it fails exactly if its root is no directory. -/
theorem walk_ends_without_repeats (ops : List Tree.Operation) (root : Path)
    (accepts : String → Bool) :
    let t := Tree.ofOperations ops
    let answer := (collect Tree.fileSystem root accepts t).1
    (∃ dirs result, Walks Tree.fileSystem root accepts [root] ⟨[], []⟩ t dirs result t) ∧
    (∀ dirs result t', Walks Tree.fileSystem root accepts [root] ⟨[], []⟩ t dirs result t' →
      (dirs.Pairwise fun p q => (p == q) = false) ∧ answer = result.map Found.ascending) ∧
    (∀ found, answer = .ok found →
      found.files.Pairwise fun p q => (p == q) = false ∧ compare p q = .lt) ∧
    ((∃ f, answer = .error f) ↔ (t.names? root.components).isSome = false) := by
  intro t answer
  have hnamed : t.Named := Tree.named_ofOperations ops
  have honce : t.ListsOnce := Tree.listsOnce_ofOperations ops
  obtain ⟨dirs, result, hwalks, hends⟩ := exists_walks hnamed honce root accepts
  have hanswer : answer = result.map Found.ascending :=
    congrArg Prod.fst (hwalks.collect_eq hends.bounded)
  have hfailed : (∃ f, answer = .error f) ↔ (t.names? root.components).isSome = false := by
    rw [Option.isSome_eq_false_iff, Option.isNone_iff_eq_none, ← hends.failed_iff, hanswer]
    cases result <;> simp [Except.map]
  refine ⟨⟨dirs, result, hwalks⟩, fun dirs' result' t' h' => ?_, fun found hfound => ?_, hfailed⟩
  · obtain ⟨rfl, rfl, -⟩ := hwalks.unique h'
    exact ⟨pairwise_beq_of_nodup hends.once, hanswer⟩
  · have hroot : (t.names? root.components).isSome = true := by
      by_contra hnone
      obtain ⟨f, hf⟩ := hfailed.mpr (Bool.eq_false_iff.mpr hnone)
      cases hf.symm.trans hfound
    obtain ⟨files, hcollect, hascending, -⟩ := collect_findable hnamed honce hroot accepts
    obtain rfl : found = ⟨files, []⟩ :=
      Except.ok.inj (hfound.symm.trans (congrArg Prod.fst hcollect))
    refine hascending.imp fun {p q} hlt => ⟨?_, hlt⟩
    rw [Bool.eq_false_iff, ne_eq, ← Std.compare_eq_iff_beq, hlt]
    nofun

end FirmwareMatrix.Discovery
