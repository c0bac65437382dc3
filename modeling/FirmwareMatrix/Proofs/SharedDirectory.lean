import FirmwareMatrix.Proofs.Discovered
import FirmwareMatrix.Proofs.Scripted

/-! # Boards that share a directory

Discovery keeps one board of each name. A directory name is made from a name by writing underscores
for what would lead elsewhere, so two names are made into one exactly if they differ in such
characters alone. Boards of that kind are both kept, are delivered to one directory, and what the
first is given there the second overwrites. -/

namespace FirmwareMatrix

variable {σ : Type}

/-! ## Directory names -/

namespace Board

/-- The character that stands for `c` in the name of a directory. -/
def blur (c : Char) : Char := if c = '/' ∨ c = '\\' then '_' else c

/-- Two characters that a directory name does not tell apart. -/
def Confusable (c c' : Char) : Prop :=
  c = c' ∨ (c ∈ ['/', '\\', '_'] ∧ c' ∈ ['/', '\\', '_'])

instance (c c' : Char) : Decidable (Confusable c c') := inferInstanceAs (Decidable (_ ∨ _))

theorem blur_eq_underscore {c : Char} : blur c = '_' ↔ c ∈ ['/', '\\', '_'] := by
  unfold blur
  split
  · next hc => rcases hc with rfl | rfl <;> simp
  · next hc =>
    obtain ⟨h1, h2⟩ := not_or.mp hc
    simp [h1, h2]

theorem blur_of_ne_underscore {c : Char} (h : blur c ≠ '_') : blur c = c := by
  unfold blur at h ⊢
  split at h
  · exact absurd rfl h
  · next hc => rw [if_neg hc]

theorem blur_eq_iff {c c' : Char} : blur c = blur c' ↔ Confusable c c' := by
  constructor
  · intro h
    by_cases hc : blur c = '_'
    · exact .inr ⟨blur_eq_underscore.mp hc, blur_eq_underscore.mp (h ▸ hc)⟩
    · have hc' : blur c' ≠ '_' := h ▸ hc
      rw [blur_of_ne_underscore hc, blur_of_ne_underscore hc'] at h
      exact .inl h
  · rintro (rfl | ⟨hc, hc'⟩)
    · rfl
    · rw [blur_eq_underscore.mpr hc, blur_eq_underscore.mpr hc']

/-- The name, with underscores for the dots that alone stand for a directory or its parent. -/
def undotted (b : Board) : List Char :=
  if b.name = "." ∨ b.name = ".." then b.name.toList.map fun _ => '_' else b.name.toList

/-- The names differ, if at all, in characters that a directory name does not tell apart. -/
def Alike (b b' : Board) : Prop :=
  b.undotted.length = b'.undotted.length ∧ ∀ p ∈ b.undotted.zip b'.undotted, Confusable p.1 p.2

instance (b b' : Board) : Decidable (b.Alike b') :=
  decidable_of_iff (b.undotted.length = b'.undotted.length ∧
    (b.undotted.zip b'.undotted).all (fun p => Confusable p.1 p.2) = true) (by simp [Alike])

theorem directoryName_eq_blur (b : Board) :
    b.directoryName = String.ofList (b.undotted.map blur) := by
  unfold directoryName undotted
  split
  · rw [List.map_map]
    rfl
  · rfl

theorem map_eq_map_iff_zip {α β : Type} (f : α → β) (xs ys : List α) :
    xs.map f = ys.map f ↔ xs.length = ys.length ∧ ∀ p ∈ xs.zip ys, f p.1 = f p.2 := by
  induction xs generalizing ys with
  | nil => cases ys <;> simp
  | cons x xs ih =>
    cases ys with
    | nil => simp
    | cons y ys =>
      rw [List.map_cons, List.map_cons, List.cons.injEq, ih, List.zip_cons_cons,
        List.forall_mem_cons]
      simp only [List.length_cons, Nat.add_right_cancel_iff]
      exact and_left_comm

/-- Exactly alike names make one directory name. -/
theorem directoryName_eq_iff {b b' : Board} :
    b.directoryName = b'.directoryName ↔ b.Alike b' := by
  rw [directoryName_eq_blur, directoryName_eq_blur, String.ofList_inj, map_eq_map_iff_zip]
  exact and_congr_right fun _ => forall₂_congr fun _ _ => blur_eq_iff

end Board

/-! ## Deliveries of two boards -/

/-- Two boards share the place of a copy if their names are alike and the copies are called the
same. -/
theorem Artifact.goal_eq_iff {layout : Layout} {b b' : Board} (hb : b.name ≠ "")
    (hb' : b'.name ≠ "") {a d : Artifact} (ha : Path.IsName a.deliveredAs)
    (hd : Path.IsName d.deliveredAs) :
    a.goal (Matrix.destination layout b) = d.goal (Matrix.destination layout b') ↔
      b.Alike b' ∧ a.deliveredAs = d.deliveredAs := by
  rw [goal_destination hb ha, goal_destination hb' hd, List.append_cancel_left_eq]
  simp only [List.cons.injEq, Component.name.injEq, and_true]
  exact and_congr_left fun _ => Board.directoryName_eq_iff

namespace Discovery

/-- Boards found together have different names. They share a directory exactly if the names are
alike, and then alone is anything that one of them delivers overwritten by the other. -/
theorem discover_shares_iff [Extent σ] (fs : FileSystem σ) {root : Path} {pattern : String} {w : σ}
    {boards : List Board} (h : (discover fs root pattern w).1.1 = .ok boards) :
    boards.Pairwise fun b b' =>
      b.name ≠ b'.name ∧ (b.directoryName = b'.directoryName ↔ b.Alike b') ∧
        ∀ s : Settings, ∀ a ∈ s.artifacts.artifacts.toList, ∀ d ∈ s.artifacts.artifacts.toList,
          (a.goal (Matrix.destination (Launch.layoutOf s) b) =
              d.goal (Matrix.destination (Launch.layoutOf s) b') ↔
            b.Alike b' ∧ a.deliveredAs = d.deliveredAs) := by
  have hfresh := search_fresh h
  refine hfresh.different.imp_of_mem fun {b b'} hb hb' hne => ⟨hne, Board.directoryName_eq_iff, ?_⟩
  intro s a ha d hd
  have hnames := s.artifacts.isName_deliveredAs
  exact Artifact.goal_eq_iff (hfresh.named b hb) (hfresh.named b' hb') (hnames a ha) (hnames d hd)

/-- Headers of two boards whose names are alike. -/
def alikeHeaders : Tree :=
  [("main/hwconf/hw_a.h", "a/b"), ("main/hwconf/hw_b.h", "a_b")].foldl (fun t (file, name) =>
    t.addFile (Path.mk file).components
      (ScriptedTool.textBytes (Declarations.header ⟨name, "esp32c3"⟩))) Tree.empty

def alikeBoards : List Board :=
  [⟨"a/b", "esp32c3", ⟨"main/hwconf/hw_a.h"⟩⟩, ⟨"a_b", "esp32c3", ⟨"main/hwconf/hw_b.h"⟩⟩]

/-- The walk through those headers. -/
def alikeWalk : Except Failure Found × Tree :=
  headerWalk Tree.fileSystem ⟨"main/hwconf"⟩ (Glob.matches ⟨"**", [.leading]⟩) alikeHeaders

theorem walk_alikeHeaders :
    ∃ found, alikeWalk.1 = .ok found ∧ found.files = alikeBoards.map Board.source := by
  generalize hwalk : alikeWalk.1 = walked
  have hwritten : walked.toOption.map (fun found => found.files.map Path.native) =
      some (alikeBoards.map fun b => b.source.native) := by
    rw [← hwalk]
    decide +kernel
  cases walked with
  | error f => cases hwritten
  | ok found =>
    have hfiles := congrArg (List.map Path.ofNative) (Option.some.inj hwritten)
    exact ⟨found, rfl, by simpa [Function.comp_def] using hfiles⟩

theorem readBoards_alikeHeaders :
    (readBoards Tree.fileSystem [] (alikeBoards.map Board.source) alikeWalk.2).1.1 =
      alikeBoards := by
  generalize hread :
    (readBoards Tree.fileSystem [] (alikeBoards.map Board.source) alikeWalk.2).1.1 = boards
  have hparts : boards.map (fun b => (b.name, b.target, b.source.native)) =
      alikeBoards.map fun b => (b.name, b.target, b.source.native) := by
    rw [← hread]
    decide +kernel
  have hboards := congrArg (List.map fun (name, target, file) => Board.mk name target ⟨file⟩) hparts
  simpa [Function.comp_def] using hboards

theorem discover_alikeHeaders :
    (discover Tree.fileSystem ⟨"main/hwconf"⟩ "**" alikeHeaders).1.1 = .ok alikeBoards := by
  obtain ⟨found, hwalk, hfiles⟩ := walk_alikeHeaders
  have hdir : (Tree.fileSystem.isDirectory ⟨"main/hwconf"⟩ alikeHeaders).1 = true := by
    decide +kernel
  have hpattern : compile .nesting "**" = .ok ⟨"**", [.leading]⟩ := rfl
  refine search_of_sorted hdir hpattern hwalk ?_ ?_ (by decide +kernel)
  · rw [hfiles]
    exact readBoards_alikeHeaders
  · rw [hfiles]
    decide +kernel

theorem alikeBoards_share_iff :
    alikeBoards.Pairwise fun b b' =>
      b.name ≠ b'.name ∧ (b.directoryName = b'.directoryName ↔ b.Alike b') :=
  (discover_shares_iff Tree.fileSystem discover_alikeHeaders).imp fun h => ⟨h.1, h.2.1⟩

/-- Both boards are found, both are reported as built, and both are left with the image of the
second. -/
theorem alikeBoards_overwritten :
    let layout := Launch.layoutOf .default
    let image := layout.artifacts.image
    let start := Matrix.begin Tree.fileSystem layout (Screen.blank .open false) Tree.empty
    let ended := Matrix.run Tree.fileSystem (ScriptedTool.willing .default).tool layout alikeBoards
      start
    (discover Tree.fileSystem ⟨"main/hwconf"⟩ "**" alikeHeaders).1.1 = .ok alikeBoards ∧
      (∃ b ∈ alikeBoards, ∃ b' ∈ alikeBoards,
        b.name ≠ b'.name ∧ b.directoryName = b'.directoryName) ∧
      (ended.2.outcomes.map fun o => (o.board, o.isSuccess)) = [("a/b", true), ("a_b", true)] ∧
      ∀ b ∈ alikeBoards, ended.2.world.file? (image.goal (Matrix.destination layout b)) =
        some (ScriptedTool.outputBytes "a_b" image) :=
  ⟨discover_alikeHeaders, by decide +kernel, by decide +kernel, by decide +kernel⟩

end Discovery

end FirmwareMatrix
