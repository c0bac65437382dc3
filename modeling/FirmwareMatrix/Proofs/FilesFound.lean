import FirmwareMatrix.Proofs.TreeGrowth
import FirmwareMatrix.Proofs.WholeWalk

/-! # The files that match are found

In a tree made of consistent entries listings lead from a directory to every file below it. So a
search collects the files that lie below its root and match, in path order, and nothing of it
depends on the order in which the entries were added or are listed. -/

namespace FirmwareMatrix

namespace Tree

/-- A tree that differs from another at most in the order in which directories list their names. -/
structure Reordered (t t' : Tree) : Prop where
  files : ∀ q, t'.file? q = t.file? q
  names : ∀ q, Option.Rel List.Perm (t.names? q) (t'.names? q)

variable {t t' : Tree} {q : List Component} {names : List String}

theorem Reordered.refl (t : Tree) : Reordered t t where
  files _ := rfl
  names q := by
    cases t.names? q with
    | none => exact .none
    | some names => exact .some (.refl names)

theorem Reordered.symm (h : Reordered t t') : Reordered t' t where
  files q := (h.files q).symm
  names q := by
    have hrel := h.names q
    generalize t.names? q = names at hrel ⊢
    generalize t'.names? q = names' at hrel ⊢
    cases hrel with
    | none => exact .none
    | some hperm => exact .some hperm.symm

theorem Reordered.perm (h : Reordered t t') (hnames : t.names? q = some names) :
    ∃ names', t'.names? q = some names' ∧ names.Perm names' := by
  have hrel := h.names q
  rw [hnames] at hrel
  generalize t'.names? q = names' at hrel ⊢
  cases hrel with
  | some hperm => exact ⟨_, rfl, hperm⟩

theorem Reordered.isSome (h : Reordered t t') (hdir : (t.names? q).isSome) :
    (t'.names? q).isSome := by
  obtain ⟨names, hnames⟩ := Option.isSome_iff_exists.mp hdir
  obtain ⟨names', hnames', -⟩ := h.perm hnames
  rw [hnames', Option.isSome_some]

theorem Reordered.contains (h : Reordered t t') (hthere : t.contains q = true) :
    t'.contains q = true := by
  rw [contains_iff, h.files]
  exact (contains_iff.mp hthere).imp_left h.isSome

/-! ## Nothing hangs on the order -/

variable {entries entries' : List Entry}

theorem Grown.perm (h : Grown entries t) (hperm : entries'.Perm entries) : Grown entries' t where
  files q := by simp only [h.files, hperm.mem_iff]
  present e he := h.present e (hperm.mem_iff.mp he)
  places q hq := by simpa only [hperm.mem_iff] using h.places q hq
  grounded := h.grounded
  linked := h.linked
  named := h.named
  once := h.once

end Tree

namespace Discovery

variable {t : Tree} {root p : Path} {accepts : String → Bool} {entries : List Tree.Entry}

/-- How a pattern sees the file that names lead to: the names joined by separators, backslashes
read as separators. -/
def seen (names : List String) : String :=
  String.ofList ((String.intercalate "/" names).toList.map fun c => if c = '\\' then '/' else c)

/-- A file of `entries` below `root` that is accepted by what is seen of it from there, which is a
text only where all names on the way to it are. -/
def Matching (entries : List Tree.Entry) (root : Path) (accepts : String → Bool) (p : Path) :
    Prop :=
  ∃ names : List String, names ≠ [] ∧ p = names.foldl Path.child root ∧
    p.components = root.components ++ names.map .name ∧
    (∃ e ∈ entries, e.isFile = true ∧ e.place = p.components) ∧ accepts (seen names) = true

theorem wanted_of_components {names : List String}
    (h : p.components = root.components ++ names.map .name) :
    wanted root accepts p = accepts (seen names) := by
  rw [wanted, Path.relativeTo_of_components h]
  rfl

/-- Where all is linked, listings lead to what is there. -/
theorem listed_foldl (hlinked : t.Linked []) (hroot : root.components ≠ []) {names : List String}
    (hnames : ∀ d ∈ names, Path.IsName d)
    (hthere : t.contains (root.components ++ names.map .name) = true) :
    Listed t root (names.foldl Path.child root) := by
  induction names using List.reverseRecOn with
  | nil => exact .root
  | append_singleton names d ih =>
    have hnames' : ∀ d ∈ names, Path.IsName d := fun d hd => hnames d (List.mem_append_left _ hd)
    rw [List.map_append, ← List.append_assoc] at hthere
    have habove := Tree.above?_append_name
      (show root.components ++ names.map .name ≠ [] by simp [hroot]) d
    have hshows := hlinked _ _ (.name d) hthere List.not_mem_nil habove (Tree.endsIn_append _ rfl)
    obtain ⟨listing, hlisting, hmem⟩ := hshows.isListed
    have hdir : t.contains (root.components ++ names.map .name) = true :=
      Tree.contains_iff.mpr (.inl (by rw [hlisting, Option.isSome_some]))
    rw [List.foldl_append, List.foldl_cons, List.foldl_nil]
    refine .child (ih hnames' hdir) ?_ hmem
    rw [Path.components_foldl_child hnames', hlisting]

theorem findable_iff (h : Tree.Grown entries t) (hroot : root.components ≠ [])
    (hdir : (t.names? root.components).isSome) :
    Findable t root accepts p ↔ Matching entries root accepts p := by
  constructor
  · rintro ⟨hlisted, hfile, hwanted⟩
    obtain ⟨names, rfl, hcomponents⟩ := hlisted.eq_foldl h.named
    refine ⟨names, ?_, rfl, hcomponents, (h.files _).mp hfile,
      (wanted_of_components hcomponents).symm.trans hwanted⟩
    rintro rfl
    rw [Tree.contents?, List.foldl_nil, (Tree.names?_isSome_iff.mp hdir).2] at hfile
    cases hfile
  · rintro ⟨names, -, rfl, hcomponents, ⟨e, he, hfile, hplace⟩, haccepts⟩
    have hnames : ∀ d ∈ names, Path.IsName d := fun d hd => by
      refine Path.isName_of_mem_components (p := e.path) ?_
      rw [← Tree.Entry.place, hplace, hcomponents]
      exact List.mem_append_right _ (List.mem_map_of_mem hd)
    have hthere := h.present e he
    rw [hplace, hcomponents] at hthere
    exact {
      listed := listed_foldl h.linked hroot hnames hthere
      isFile := (h.files _).mpr ⟨e, he, hfile, hplace⟩
      isWanted := by rw [wanted_of_components hcomponents, haccepts] }

end Discovery

end FirmwareMatrix
