import FirmwareMatrix.Proofs.BoardOrder
import FirmwareMatrix.Proofs.TreeListing
import FirmwareMatrix.Proofs.UnboundedWalk

/-! # Walking a tree in memory

A walk over a tree in memory only goes to directories, so it reports nothing, and it leaves the
tree as it is. What it finds are wanted files that listings lead to from the root. -/

namespace FirmwareMatrix.Discovery

variable {t : Tree} {root : Path} {accepts : String → Bool}

/-- The paths that listings lead to from `root`. -/
inductive Listed (t : Tree) (root : Path) : Path → Prop
  | root : Listed t root root
  | child {dir : Path} {names : List String} {name : String} (above : Listed t root dir)
    (hdir : t.names? dir.components = some names) (hname : name ∈ names) :
    Listed t root (dir.child name)

/-- In a tree that lists nothing but names, listings lead straight down. -/
theorem Listed.eq_foldl {p : Path} (h : Listed t root p) (hnamed : t.Named) :
    ∃ names : List String, p = names.foldl Path.child root ∧
      p.components = root.components ++ names.map .name := by
  induction h with
  | root => exact ⟨[], rfl, by simp⟩
  | @child dir listing name above hdir hname ih =>
    obtain ⟨names, rfl, hcomponents⟩ := ih
    refine ⟨names ++ [name], by simp, ?_⟩
    rw [Path.components_child (hnamed _ _ hdir _ hname), hcomponents]
    simp

/-- What is listed right below the root is written as the root's child. -/
theorem Listed.eq_child {p : Path} {name : String} (h : Listed t root p) (hnamed : t.Named)
    (hp : p.components = root.components ++ [.name name]) : p = root.child name := by
  obtain ⟨names, rfl, hcomponents⟩ := h.eq_foldl hnamed
  rw [hp, List.append_cancel_left_eq] at hcomponents
  cases names with
  | nil => cases hcomponents
  | cons d names =>
    obtain ⟨hd, hnil⟩ := List.cons.inj hcomponents
    obtain rfl := Component.name.inj hd
    obtain rfl := List.map_eq_nil_iff.mp hnil.symm
    rfl

/-- A directory that the walk goes to. -/
structure Visitable (t : Tree) (root dir : Path) : Prop where
  listed : Listed t root dir
  isDirectory : (t.names? dir.components).isSome

/-- A file that the walk collects. -/
structure Findable (t : Tree) (root : Path) (accepts : String → Bool) (file : Path) : Prop where
  listed : Listed t root file
  isFile : (t.contents? file).isSome
  isWanted : wanted root accepts file = true

theorem sortEntries_tree (entries : List Path) :
    sortEntries Tree.fileSystem root accepts entries t =
      ((entries.filter fun p => (t.names? p.components).isSome,
        entries.filter fun p => (t.contents? p).isSome && wanted root accepts p), t) := by
  induction entries with
  | nil => rfl
  | cons p entries ih =>
    have hdirectory : Tree.fileSystem.isDirectory p t = ((t.names? p.components).isSome, t) := rfl
    have hfile : Tree.fileSystem.isFile p t = ((t.contents? p).isSome, t) := rfl
    simp only [sortEntries, StateM.bind_apply, hdirectory]
    cases hnames : t.names? p.components with
    | some names =>
      have hcontents : t.contents? p = none :=
        Tree.file?_eq_none_of_directory (Tree.lookup_of_names? hnames)
      simp [StateM.bind_apply, StateM.pure_apply, ih, hnames, hcontents]
    | none =>
      simp only [Option.isSome_none, Bool.false_eq_true, if_false, StateM.bind_apply, hfile]
      cases hcontents : t.contents? p with
      | none => simp [ih, hnames, hcontents]
      | some bytes =>
        by_cases hwanted : wanted root accepts p = true <;>
          simp [StateM.bind_apply, StateM.pure_apply, ih, hnames, hcontents, hwanted]

/-- The directories among the entries of `dir`. -/
def directoriesIn (t : Tree) (dir : Path) (names : List String) : List Path :=
  (names.map dir.child).filter fun p => (t.names? p.components).isSome

/-- The wanted files among the entries of `dir`. -/
def filesIn (t : Tree) (root : Path) (accepts : String → Bool) (dir : Path)
    (names : List String) : List Path :=
  (names.map dir.child).filter fun p => (t.contents? p).isSome && wanted root accepts p

section Entries

variable {dir : Path} {names : List String}

theorem visitable_of_mem (h : Listed t root dir) (hdir : t.names? dir.components = some names)
    {p : Path} (hp : p ∈ directoriesIn t dir names) : Visitable t root p := by
  obtain ⟨hmem, hsome⟩ := List.mem_filter.mp hp
  obtain ⟨name, hname, rfl⟩ := List.mem_map.mp hmem
  exact ⟨.child h hdir hname, hsome⟩

theorem findable_of_mem (h : Listed t root dir) (hdir : t.names? dir.components = some names)
    {p : Path} (hp : p ∈ filesIn t root accepts dir names) : Findable t root accepts p := by
  obtain ⟨hmem, hp⟩ := List.mem_filter.mp hp
  rw [Bool.and_eq_true] at hp
  obtain ⟨name, hname, rfl⟩ := List.mem_map.mp hmem
  exact ⟨.child h hdir hname, hp.1, hp.2⟩

/-- One directory: the directories that it lists are visited next, and the wanted files that it
lists are collected. -/
theorem visit_directory (hdir : t.names? dir.components = some names) (waiting : List Path)
    (found : Found) :
    visit Tree.fileSystem root accepts dir waiting found t =
      (.ok ((directoriesIn t dir names).reverse ++ waiting,
        { found with files := found.files ++ filesIn t root accepts dir names }), t) := by
  have hread : Tree.fileSystem.readDirectory dir t = (.ok (names.map dir.child), t) := by
    show (t.readDirectory dir, t) = _
    rw [Tree.readDirectory, hdir]
  simp only [visit, StateM.bind_apply, hread, sortEntries_tree, directoriesIn, filesIn]
  rfl

theorem walk_directory (hdir : t.names? dir.components = some names) (fuel : Nat)
    (waiting : List Path) (found : Found) :
    walk Tree.fileSystem root accepts (fuel + 1) (dir :: waiting) found t =
      walk Tree.fileSystem root accepts fuel ((directoriesIn t dir names).reverse ++ waiting)
        { found with files := found.files ++ filesIn t root accepts dir names } t := by
  rw [walk_cons, visit_directory hdir]

end Entries

/-- Every step goes on with directories that listings lead to. -/
theorem walk_tree {waiting : List Path} (hwaiting : ∀ dir ∈ waiting, Visitable t root dir)
    (fuel : Nat) (found : Found) :
    ∃ more, walk Tree.fileSystem root accepts fuel waiting found t =
        (.ok { found with files := found.files ++ more }, t) ∧
      ∀ p ∈ more, Findable t root accepts p := by
  induction fuel generalizing waiting found with
  | zero => cases waiting <;> exact ⟨[], by simp [walk, StateM.pure_apply], by simp⟩
  | succ fuel ih =>
    cases waiting with
    | nil => exact ⟨[], by simp [walk, StateM.pure_apply], by simp⟩
    | cons dir waiting =>
      obtain ⟨hlisted, hsome⟩ := hwaiting dir List.mem_cons_self
      obtain ⟨names, hnames⟩ := Option.isSome_iff_exists.mp hsome
      have hnext : ∀ d ∈ (directoriesIn t dir names).reverse ++ waiting, Visitable t root d := by
        intro d hd
        rcases List.mem_append.mp hd with hd | hd
        · exact visitable_of_mem hlisted hnames (List.mem_reverse.mp hd)
        · exact hwaiting d (List.mem_cons_of_mem _ hd)
      obtain ⟨more, hmore, hfindable⟩ :=
        ih hnext { found with files := found.files ++ filesIn t root accepts dir names }
      refine ⟨filesIn t root accepts dir names ++ more, ?_, fun p hp => ?_⟩
      · rw [walk_directory hnames, hmore, List.append_assoc]
      · rcases List.mem_append.mp hp with hp | hp
        · exact findable_of_mem hlisted hnames hp
        · exact hfindable p hp

/-- The candidates of a search, in path order; among them is every wanted file that the root
itself lists. -/
structure Candidates (t : Tree) (root : Path) (accepts : String → Bool) (files : List Path) :
    Prop where
  ascending : files.Pairwise fun p q => (compare p q).isLE = true
  findable : ∀ p ∈ files, Findable t root accepts p
  direct : ∀ names, t.names? root.components = some names →
    ∀ p ∈ filesIn t root accepts root names, p ∈ files

theorem collect_tree (hroot : (t.names? root.components).isSome) (accepts : String → Bool) :
    ∃ files, collect Tree.fileSystem root accepts t = (.ok ⟨files, []⟩, t) ∧
      Candidates t root accepts files := by
  obtain ⟨names, hnames⟩ := Option.isSome_iff_exists.mp hroot
  have hnext : ∀ d ∈ (directoriesIn t root names).reverse ++ [], Visitable t root d := by
    rw [List.append_nil]
    exact fun d hd => visitable_of_mem .root hnames (List.mem_reverse.mp hd)
  obtain ⟨more, hmore, hfindable⟩ := walk_tree hnext t.entries.length
    ⟨[] ++ filesIn t root accepts root names, []⟩
  have hwalk : walk Tree.fileSystem root accepts (t.entries.length + 1) [root] ⟨[], []⟩ t =
      (.ok ⟨filesIn t root accepts root names ++ more, []⟩, t) :=
    (walk_directory hnames t.entries.length [] ⟨[], []⟩).trans hmore
  refine ⟨(filesIn t root accepts root names ++ more).mergeSort fun p q => (compare p q).isLE,
    ?_, mergeSort_ascending _, fun p hp => ?_, fun names' hnames' p hp => ?_⟩
  · rw [collect_apply]
    exact congrArg (fun ended => (ended.1.map Found.ascending, ended.2)) hwalk
  · rcases List.mem_append.mp (List.mem_mergeSort.mp hp) with hp | hp
    · exact findable_of_mem .root hnames hp
    · exact hfindable p hp
  · obtain rfl : names = names' := Option.some.inj (hnames.symm.trans hnames')
    exact List.mem_mergeSort.mpr (List.mem_append_left _ hp)

end FirmwareMatrix.Discovery
