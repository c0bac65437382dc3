import FirmwareMatrix.Proofs.TreeGrowth
import FirmwareMatrix.Proofs.TreeOperations

/-! # Names that stand for entries

Operations may come in any order and on any paths, with files put over directories and entries
below files. Listings stay behind what is there: a name is listed only while an entry right below
the directory bears it. The entry is found by going down by the name, except in the current
directory, which also lists what stands without a directory in front. -/

namespace FirmwareMatrix.Tree

variable {t t' : Tree} {a p : List Component} {name : String}

/-! ## What taking a file away leaves of the listings -/

/-- A listing loses the name of a file that is taken away, and no other. -/
theorem names?_discard (t : Tree) (p a : List Component) :
    (t.discard p).names? a =
      (t.names? a).map (List.filter fun name => !((t.file? p).isSome && listsAs p a name)) := by
  by_cases ha : (t.file? p).isSome ∧ a = p
  · obtain ⟨hfile, rfl⟩ := ha
    rw [names?_eq_none_of_file hfile, names?, lookup_discard, if_pos ⟨hfile, rfl⟩]
    rfl
  · exact (views_of_without (by rw [lookup_discard, if_neg ha])).2

theorem Listings.discard {good : List String → Prop} (h : Listings good t)
    (hfilter : ∀ names kept, good names → good (names.filter kept)) (p : List Component) :
    Listings good (t.discard p) := by
  intro a names hnames
  rw [names?_discard, Option.map_eq_some_iff] at hnames
  obtain ⟨names, hnames, rfl⟩ := hnames
  exact hfilter names _ (h a names hnames)

theorem named_ofOperations (ops : List Operation) : Named (ofOperations ops) :=
  kept_ofOperations named_empty
    (fun _ path bytes h => h.addFile (legit_components path) bytes)
    (fun _ path h => h.addDirectory (legit_components path))
    (fun _ path h => Listings.discard h
      (fun _ _ hnames name hname => hnames name (List.mem_filter.mp hname).1) path.components) ops

theorem listsOnce_ofOperations (ops : List Operation) : ListsOnce (ofOperations ops) :=
  kept_ofOperations listsOnce_empty
    (fun _ path bytes h => h.addFile path.components bytes)
    (fun _ path h => h.addDirectory path.components)
    (fun _ path h => Listings.discard h (fun _ _ hnames => hnames.filter _) path.components) ops

/-! ## Listed names -/

/-- An entry right below the place bears the name. -/
def IsEntry (t : Tree) (a : List Component) (name : String) : Prop :=
  ∃ p, above? p = some a ∧ nameOf? p = some name ∧ t.contains p = true

theorem IsEntry.mono (hthere : ∀ p, t.contains p = true → t'.contains p = true)
    (h : t.IsEntry a name) : t'.IsEntry a name := by
  obtain ⟨p, habove, hname, hp⟩ := h
  exact ⟨p, habove, hname, hthere p hp⟩

/-- Each listed name is borne by an entry. -/
def Genuine (t : Tree) : Prop := ∀ a name, t.IsListed a name → t.IsEntry a name

theorem genuine_empty : Genuine empty := by
  have hnil : Listings (· = []) empty := listings_empty rfl
  rintro a name ⟨names, hnames, hname⟩
  rw [hnil a names hnames] at hname
  cases hname

/-- An entry that lists nothing brings no name. -/
theorem Genuine.insert (h : Genuine t) (p : List Component) {n : Node}
    (hn : ∀ names, n = .directory names → names = []) : Genuine (t.insert p n) := by
  rintro a name ⟨names, hnames, hname⟩
  by_cases ha : a = p
  · subst ha
    have hnode := lookup_of_names? hnames
    rw [lookup_insert, if_pos rfl] at hnode
    rw [hn names (Option.some.inj hnode)] at hname
    cases hname
  · rw [names?_insert_of_ne ha] at hnames
    exact (h a name ⟨names, hnames, hname⟩).mono fun q hq => by simp [hq]

/-- What is there may be listed. -/
theorem Genuine.link (h : Genuine t) (hp : t.contains p = true) : Genuine (t.link p) := by
  rintro a name ⟨names, hnames, hname⟩
  have hmono : ∀ q, t.contains q = true → (t.link p).contains q = true :=
    fun q hq => by rwa [contains_link]
  rcases link_cases t p with heq | ⟨above, own, old, habove, hown, hold, -, heq⟩
  · rw [heq] at hnames ⊢
    exact h a name ⟨names, hnames, hname⟩
  · rw [heq, names?_insert_directory] at hnames
    split at hnames
    · next ha =>
      subst ha
      obtain rfl := Option.some.inj hnames
      rcases List.mem_append.mp hname with hname | hname
      · exact (h a name ⟨old, hold, hname⟩).mono hmono
      · obtain rfl := List.mem_singleton.mp hname
        exact ⟨p, habove, hown, hmono p hp⟩
    · exact (h a name ⟨names, hnames, hname⟩).mono hmono

theorem Genuine.addDirectory (h : Genuine t) (p : List Component) :
    Genuine (t.addDirectory p) := by
  unfold Tree.addDirectory
  induction (lineage p).takeWhile fun r => !t.contains r with
  | nil => exact h
  | cons r rs ih => exact (ih.insert r (by simp)).link (by simp)

theorem Genuine.addFile (h : Genuine t) (p : List Component) (bytes : List UInt8) :
    Genuine (t.addFile p bytes) := by
  have hput := h.insert p (n := .file bytes) (by simp)
  unfold Tree.addFile
  cases above? p with
  | none => exact hput
  | some above =>
    exact (hput.addDirectory above).link (contains_addDirectory above (by simp))

/-- The name of a file that is taken away is not listed any more where it was borne, so every name
that is still listed is borne by another entry. -/
theorem Genuine.discard (h : Genuine t) (p : List Component) : Genuine (t.discard p) := by
  cases hfile : (t.file? p).isSome with
  | false =>
    rw [Tree.discard, if_neg (by simp [hfile])]
    exact h
  | true =>
    rintro a name ⟨names, hnames, hname⟩
    rw [names?_discard, hfile, Option.map_eq_some_iff] at hnames
    obtain ⟨names, hnames, rfl⟩ := hnames
    obtain ⟨hname, hkept⟩ := List.mem_filter.mp hname
    obtain ⟨q, habove, hq, hthere⟩ := h a name ⟨names, hnames, hname⟩
    have hne : q ≠ p := by
      rintro rfl
      simp [listsAs, habove, hq] at hkept
    exact ⟨q, habove, hq, ((takenAt_discard hfile).present q hne).trans hthere⟩

theorem genuine_ofOperations (ops : List Operation) : Genuine (ofOperations ops) :=
  kept_ofOperations genuine_empty (fun _ path bytes h => h.addFile path.components bytes)
    (fun _ path h => h.addDirectory path.components)
    (fun _ path h => h.discard path.components) ops

/-- Away from the current directory an entry is found by its name. -/
theorem IsEntry.contains_append (h : t.IsEntry a name) (ha : a ≠ [.here]) :
    t.contains (a ++ [.name name]) = true := by
  obtain ⟨p, habove, hname, hp⟩ := h
  rcases eq_of_above habove (nameOf?_eq_some_iff.mp hname) with ⟨-, rfl⟩ | ⟨-, rfl⟩
  · exact absurd rfl ha
  · exact hp

/-- Whatever was done before, on whatever paths: no directory lists a name twice, and what a
directory other than the current one lists is there, also when it is asked for its entries. -/
theorem listings_genuine (ops : List Operation) :
    (∀ dir names, (ofOperations ops).names? dir = some names → names.Nodup) ∧
    (∀ dir : Path, dir.components ≠ [.here] →
      ∀ names, (ofOperations ops).names? dir.components = some names →
        ∀ name ∈ names, (ofOperations ops).contains (dir.child name).components = true) ∧
    (∀ dir : Path, dir.components ≠ [.here] →
      ∀ entries, (ofOperations ops).readDirectory dir = .ok entries →
        ∀ path ∈ entries, (ofOperations ops).contains path.components = true) := by
  have hthere : ∀ dir : Path, dir.components ≠ [.here] →
      ∀ names, (ofOperations ops).names? dir.components = some names →
        ∀ name ∈ names, (ofOperations ops).contains (dir.child name).components = true := by
    intro dir hdir names hnames name hname
    rw [Path.components_child (named_ofOperations ops _ _ hnames name hname)]
    exact (genuine_ofOperations ops _ _ ⟨names, hnames, hname⟩).contains_append hdir
  refine ⟨listsOnce_ofOperations ops, hthere, fun dir hdir entries hentries path hpath => ?_⟩
  unfold readDirectory at hentries
  split at hentries
  · next names hnames =>
    obtain rfl := Except.ok.inj hentries
    obtain ⟨name, hname, rfl⟩ := List.mem_map.mp hpath
    exact hthere dir hdir names hnames name hname
  · cases hentries

/-- What the current directory lists stands without a dot in front. -/
example : (ofOperations [.addFile ⟨"a"⟩ []]).names? [.here] = some ["a"] ∧
    (ofOperations [.addFile ⟨"a"⟩ []]).contains (Path.child ⟨"."⟩ "a").components = false := by
  decide +kernel

end FirmwareMatrix.Tree
