import FirmwareMatrix.Disk
import FirmwareMatrix.Launch
import FirmwareMatrix.Proofs.Passage

/-! # What a run looks at before it starts

The settings and the boards are found with the operations that look: reading a file or a directory
and asking what a path names. What holds of each of these operations, and goes on holding along a
run, so holds of the whole search. -/

namespace FirmwareMatrix

variable {σ σ' α β : Type}

/-- `m'` is `m` on a larger world, and what it leaves stands in `Q` to what it found. -/
structure Follows (view : σ' → σ) (Q : σ' → σ' → Prop) (m' : StateM σ' α) (m : StateM σ α) :
    Prop where
  mirrors : Mirrors view m' m
  keeps : Keeps Q m'

/-- The looking operations of a larger world are those of its view, and keep to `Q`. Its extent is
that of its view. -/
structure FileSystem.Looks [Extent σ] [Extent σ'] (view : σ' → σ) (Q : σ' → σ' → Prop)
    (fs' : FileSystem σ') (fs : FileSystem σ) : Prop where
  refl w : Q w w
  trans u v w : Q u v → Q v w → Q u w
  readText p : Follows view Q (fs'.readText p) (fs.readText p)
  isFile p : Follows view Q (fs'.isFile p) (fs.isFile p)
  isDirectory p : Follows view Q (fs'.isDirectory p) (fs.isDirectory p)
  readDirectory p : Follows view Q (fs'.readDirectory p) (fs.readDirectory p)
  extent (w : σ') : Extent.extent w = Extent.extent (view w)

/-- A file system on which looking changes nothing. -/
structure FileSystem.LooksInPlace (fs : FileSystem σ) : Prop where
  readText p : Keeps Eq (fs.readText p)
  isFile p : Keeps Eq (fs.isFile p)
  isDirectory p : Keeps Eq (fs.isDirectory p)
  readDirectory p : Keeps Eq (fs.readDirectory p)

theorem Tree.fileSystem_looksInPlace : Tree.fileSystem.LooksInPlace := by
  constructor <;> intros <;> exact fun _ => rfl

theorem Disk.fileSystem_looksInPlace (here : Disk.Place) :
    (Disk.fileSystem here).LooksInPlace := by
  constructor <;> intros <;> exact fun _ => rfl

namespace FileSystem.Looks

variable [Extent σ] [Extent σ'] {view : σ' → σ} {Q : σ' → σ' → Prop} {fs' : FileSystem σ'}
  {fs : FileSystem σ}

theorem pure (h : fs'.Looks view Q fs) (a : α) :
    Follows view Q (Pure.pure a : StateM σ' α) (Pure.pure a) :=
  ⟨.pure view a, .pure h.refl a⟩

theorem bind (h : fs'.Looks view Q fs) {m' : StateM σ' α} {m : StateM σ α}
    {f' : α → StateM σ' β} {f : α → StateM σ β} (hm : Follows view Q m' m)
    (hf : ∀ a, Follows view Q (f' a) (f a)) : Follows view Q (m' >>= f') (m >>= f) :=
  ⟨hm.mirrors.bind fun a => (hf a).mirrors, hm.keeps.bind h.trans fun a => (hf a).keeps⟩

/-! ## The settings -/

theorem load (h : fs'.Looks view Q fs) (p : Path) :
    Follows view Q (ProjectFile.load fs' p) (ProjectFile.load fs p) := by
  refine h.bind (h.readText p) fun text => ?_
  cases text <;> exact h.pure _

theorem find (h : fs'.Looks view Q fs) (o : Options) :
    Follows view Q (ProjectFile.find fs' o) (ProjectFile.find fs o) := by
  unfold ProjectFile.find
  cases o.config with
  | none =>
    refine h.bind (h.isFile _) fun present => ?_
    cases present with
    | false => exact h.pure _
    | true => exact h.load _
  | some p =>
    refine h.bind (h.isFile _) fun present => ?_
    cases present with
    | false => exact h.pure _
    | true => exact h.load _

theorem resolve (h : fs'.Looks view Q fs) (o : Options) :
    Follows view Q (Settings.resolve fs' o) (Settings.resolve fs o) := by
  refine h.bind (h.find o) fun raw => ?_
  cases raw <;> exact h.pure _

/-! ## The boards -/

variable {root : Path} {accepts : String → Bool}

theorem sortEntries (h : fs'.Looks view Q fs) (entries : List Path) :
    Follows view Q (Discovery.sortEntries fs' root accepts entries)
      (Discovery.sortEntries fs root accepts entries) := by
  induction entries with
  | nil => exact h.pure _
  | cons entry entries ih =>
    refine h.bind (h.isDirectory entry) fun isDirectory => ?_
    cases isDirectory with
    | true => exact h.bind ih fun _ => h.pure _
    | false =>
      refine h.bind (h.isFile entry) fun isFile => ?_
      cases isFile with
      | true => exact h.bind ih fun _ => h.pure _
      | false => exact ih

theorem walk (h : fs'.Looks view Q fs) (fuel : Nat) (waiting : List Path)
    (found : Discovery.Found) :
    Follows view Q (Discovery.walk fs' root accepts fuel waiting found)
      (Discovery.walk fs root accepts fuel waiting found) := by
  induction fuel generalizing waiting found with
  | zero => cases waiting <;> exact h.pure _
  | succ fuel ih =>
    cases waiting with
    | nil => exact h.pure _
    | cons dir waiting =>
      refine h.bind (h.readDirectory dir) fun listed => ?_
      cases listed with
      | error f =>
        by_cases hroot : (dir == root) = true
        · simp only [if_pos hroot]
          exact h.pure _
        · simp only [if_neg hroot]
          exact ih _ _
      | ok entries => exact h.bind (h.sortEntries entries) fun _ => ih _ _

theorem collect (h : fs'.Looks view Q fs) (accepts : String → Bool) :
    Follows view Q (Discovery.collect fs' root accepts) (Discovery.collect fs root accepts) := by
  have hbound : Follows view Q (Extent.extent <$> get : StateM σ' Nat) (Extent.extent <$> get) :=
    ⟨fun w => congrArg (·, view w) (h.extent w).symm, h.refl⟩
  exact h.bind hbound fun bound => h.bind (h.walk _ _ _) fun found => h.pure _

theorem readBoards (h : fs'.Looks view Q fs) (seen : List String) (files : List Path) :
    Follows view Q (Discovery.readBoards fs' seen files) (Discovery.readBoards fs seen files) := by
  induction files generalizing seen with
  | nil => exact h.pure _
  | cons file files ih =>
    refine h.bind (h.readText file) fun text => ?_
    cases text with
    | error f => exact h.bind (ih seen) fun _ => h.pure _
    | ok text =>
      dsimp only
      cases Declarations.read text with
      | none => exact ih seen
      | some d =>
        dsimp only
        by_cases hseen : seen.contains d.name = true
        · simp only [if_pos hseen]
          exact h.bind (ih seen) fun _ => h.pure _
        · simp only [if_neg hseen]
          exact h.bind (ih _) fun _ => h.pure _

theorem search (h : fs'.Looks view Q fs) (compiler : Glob.Compiler) (pattern : String) :
    Follows view Q (Discovery.search compiler fs' root pattern)
      (Discovery.search compiler fs root pattern) := by
  refine h.bind (h.isDirectory root) fun present => ?_
  cases present with
  | false => exact h.pure _
  | true =>
    dsimp only
    cases Discovery.compile compiler pattern with
    | error e => exact h.pure _
    | ok glob =>
      refine h.bind (h.collect _) fun found => ?_
      cases found with
      | error f => exact h.pure _
      | ok found => exact h.bind (h.readBoards _ _) fun _ => h.pure _

/-- The settings and the boards are found by looking. -/
theorem survey (h : fs'.Looks view Q fs) (o : Options) :
    Follows view Q (Launch.survey fs' o) (Launch.survey fs o) := by
  refine h.bind (h.resolve o) fun settings => ?_
  cases settings with
  | error e => exact h.pure _
  | ok s =>
    refine h.bind (h.isDirectory s.root) fun present => ?_
    cases present with
    | false => exact h.pure _
    | true =>
      refine h.bind (h.search .nesting s.pattern) fun found => ?_
      obtain ⟨found, log⟩ := found
      cases found <;> exact h.pure _

end FileSystem.Looks

theorem FileSystem.LooksInPlace.looks [Extent σ] {fs : FileSystem σ} (h : fs.LooksInPlace) :
    fs.Looks id Eq fs where
  refl _ := rfl
  trans _ _ _ := Eq.trans
  readText p := ⟨fun _ => rfl, h.readText p⟩
  isFile p := ⟨fun _ => rfl, h.isFile p⟩
  isDirectory p := ⟨fun _ => rfl, h.isDirectory p⟩
  readDirectory p := ⟨fun _ => rfl, h.readDirectory p⟩
  extent _ := rfl

end FirmwareMatrix
