import FirmwareMatrix.Discovery
import FirmwareMatrix.Proofs.OutputSteps

/-! # What discovery keeps

A search that succeeds found its boards in the headers that it collected. It keeps one board of
each name, and none without a name. -/

namespace FirmwareMatrix

variable {σ : Type}

namespace Declarations

theorem read_name_ne {text : String} {d : Declarations} (h : read text = some d) : d.name ≠ "" :=
  (value?_eq_some.mp (read_eq_some.mp h).1).1

end Declarations

namespace Discovery

/-- Boards whose names are all there, all different and not among those taken before. -/
structure Fresh (seen : List String) (boards : List Board) : Prop where
  named : ∀ b ∈ boards, b.name ≠ ""
  unseen : ∀ b ∈ boards, b.name ∉ seen
  different : boards.Pairwise fun b b' => b.name ≠ b'.name

theorem Fresh.nil (seen : List String) : Fresh seen [] := ⟨by simp, by simp, .nil⟩

theorem Fresh.cons {seen : List String} {b : Board} {boards : List Board} (hname : b.name ≠ "")
    (hb : b.name ∉ seen) (h : Fresh (b.name :: seen) boards) : Fresh seen (b :: boards) where
  named := List.forall_mem_cons.mpr ⟨hname, h.named⟩
  unseen := List.forall_mem_cons.mpr
    ⟨hb, fun b' hb' hmem => h.unseen b' hb' (List.mem_cons_of_mem _ hmem)⟩
  different := by
    refine List.pairwise_cons.mpr ⟨fun b' hb' he => ?_, h.different⟩
    exact h.unseen b' hb' (he ▸ List.mem_cons_self)

theorem Fresh.sort {seen : List String} {boards : List Board} (h : Fresh seen boards) :
    Fresh seen (Board.sort boards) := by
  have hperm : (Board.sort boards).Perm boards := List.mergeSort_perm _ _
  refine ⟨fun b hb => h.named b (hperm.mem_iff.mp hb), fun b hb => h.unseen b (hperm.mem_iff.mp hb),
    ?_⟩
  exact (hperm.pairwise_iff fun hne => hne.symm).mpr h.different

/-- Reading takes every name once. -/
theorem readBoards_fresh (fs : FileSystem σ) (seen : List String) (files : List Path) (w : σ) :
    Fresh seen (readBoards fs seen files w).1.1 := by
  induction files generalizing seen w with
  | nil => exact .nil seen
  | cons file files ih =>
    simp only [readBoards, StateM.bind_apply]
    cases hread : fs.readText file w with
    | mk answer w₁ =>
      cases answer with
      | error f => exact ih seen w₁
      | ok text =>
        dsimp only
        cases hd : Declarations.read text with
        | none => exact ih seen w₁
        | some d =>
          dsimp only
          split
          · exact ih seen w₁
          · next hseen =>
            have hunseen : d.name ∉ seen := by simpa using hseen
            exact .cons (Declarations.read_name_ne hd) hunseen (ih (d.name :: seen) w₁)

variable [Extent σ] {compiler : Glob.Compiler} {fs : FileSystem σ} {root : Path} {pattern : String}
  {w : σ} {boards : List Board}

/-- A search that succeeds found a directory, understood the pattern, and returns what the headers
that it collected describe. -/
theorem search_ok (h : (search compiler fs root pattern w).1.1 = .ok boards) :
    (fs.isDirectory root w).1 = true ∧ ∃ glob found w₁, compile compiler pattern = .ok glob ∧
      collect fs root (compiler.accepts glob) (fs.isDirectory root w).2 = (.ok found, w₁) ∧
        boards = Board.sort (readBoards fs [] found.files w₁).1.1 := by
  simp only [search, StateM.bind_apply] at h
  split at h
  · cases h
  next hdir =>
  refine ⟨by simpa using hdir, ?_⟩
  cases hpattern : compile compiler pattern with
  | error e =>
    rw [hpattern] at h
    cases h
  | ok glob =>
    rw [hpattern] at h
    simp only [StateM.bind_apply] at h
    cases hcollect : collect fs root (compiler.accepts glob) (fs.isDirectory root w).2 with
    | mk answer w₁ =>
      rw [hcollect] at h
      cases answer with
      | error f => cases h
      | ok found => exact ⟨glob, found, w₁, rfl, hcollect, (Except.ok.inj h).symm⟩

/-- The boards of a search that succeeds have names, all of them different. -/
theorem search_fresh (h : (search compiler fs root pattern w).1.1 = .ok boards) :
    Fresh [] boards := by
  obtain ⟨-, glob, found, w₁, -, -, rfl⟩ := search_ok h
  exact (readBoards_fresh fs [] found.files w₁).sort

/-- The walk that a search from `w` makes. -/
def headerWalk (fs : FileSystem σ) (root : Path) (accepts : String → Bool) (w : σ) :
    Except Failure Found × σ :=
  let w := (fs.isDirectory root w).2
  walk fs root accepts (Extent.extent w + 1) [root] ⟨[], []⟩ w

/-- Where files and boards are found in order, sorting leaves them as they are. -/
theorem search_of_sorted {glob : Glob} {found : Found} (hdir : (fs.isDirectory root w).1 = true)
    (hpattern : compile compiler pattern = .ok glob)
    (hwalk : (headerWalk fs root (compiler.accepts glob) w).1 = .ok found)
    (hread : (readBoards fs [] found.files
      (headerWalk fs root (compiler.accepts glob) w).2).1.1 = boards)
    (hfiles : found.files.Pairwise fun a b => (compare a b).isLE = true)
    (hboards : boards.Pairwise fun a b => (compare a b).isLE = true) :
    (search compiler fs root pattern w).1.1 = .ok boards := by
  have hcollect : collect fs root (compiler.accepts glob) (fs.isDirectory root w).2 =
      (.ok found, (headerWalk fs root (compiler.accepts glob) w).2) := by
    rw [collect_apply]
    show ((headerWalk fs root (compiler.accepts glob) w).1.map Found.ascending, _) = _
    rw [hwalk, Except.map, Found.ascending, List.mergeSort_of_pairwise hfiles]
    rfl
  simp only [search, StateM.bind_apply, hdir, hpattern, Bool.not_true, Bool.false_eq_true,
    if_false, hcollect]
  show Except.ok (Board.sort (readBoards fs [] found.files
    (headerWalk fs root (compiler.accepts glob) w).2).1.1) = _
  rw [hread, Board.sort, List.mergeSort_of_pairwise hboards]

end Discovery

end FirmwareMatrix
