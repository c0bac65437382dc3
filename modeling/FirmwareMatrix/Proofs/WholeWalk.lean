import FirmwareMatrix.Proofs.TreeWalk
import Mathlib.Data.List.Nodup
import Mathlib.Data.List.Perm.Subperm

/-! # Walking a whole tree

A walk over a tree in memory goes to each directory that listings lead to once. The directories
that it goes to have entries of their own, so it comes to an end without a bound on its turns, and
the bound that a search sets, which exceeds the number of entries, does not cut it short. So it
collects every wanted file, each once. -/

namespace FirmwareMatrix.Discovery

variable {t : Tree} {root : Path} {accepts : String → Bool}

/-- What a path shows of its place is all there is to a path that listings lead to. -/
theorem Listed.ext (hnamed : t.Named) {p q : Path} (hp : Listed t root p) (hq : Listed t root q)
    (h : p.components = q.components) : p = q := by
  obtain ⟨names, rfl, hnames⟩ := hp.eq_foldl hnamed
  obtain ⟨names', rfl, hnames'⟩ := hq.eq_foldl hnamed
  rw [hnames, hnames', List.append_cancel_left_eq] at h
  obtain rfl := List.map_injective_iff.mpr (fun _ _ => Component.name.inj) h
  rfl

/-! ## The directories of a walk -/

/-- What a place lists; nothing, where no directory is. -/
def namesAt (t : Tree) (dir : Path) : List String := (t.names? dir.components).getD []

/-- The entries of a directory. -/
def children (t : Tree) (dir : Path) : List Path := (namesAt t dir).map dir.child

theorem names?_of_mem_namesAt {dir : Path} {d : String} (h : d ∈ namesAt t dir) :
    t.names? dir.components = some (namesAt t dir) := by
  unfold namesAt at h ⊢
  cases hdir : t.names? dir.components with
  | none => simp [hdir] at h
  | some names => rfl

/-- An entry tells the directory and the name that it is listed by. -/
theorem child_inj (hnamed : t.Named) {dir dir' : Path} {d d' : String} (hd : d ∈ namesAt t dir)
    (hd' : d' ∈ namesAt t dir') (h : dir.child d = dir'.child d') :
    dir.components = dir'.components ∧ d = d' := by
  have hcomponents := congrArg Path.components h
  rw [Path.components_child (hnamed _ _ (names?_of_mem_namesAt hd) _ hd),
    Path.components_child (hnamed _ _ (names?_of_mem_namesAt hd') _ hd')] at hcomponents
  obtain ⟨habove, hlast⟩ := List.append_inj' hcomponents rfl
  exact ⟨habove, Component.name.inj (List.singleton_inj.mp hlast)⟩

theorem nodup_children (hnamed : t.Named) (honce : t.ListsOnce) (dir : Path) :
    (children t dir).Nodup := by
  refine List.Nodup.map_on (fun d hd d' hd' h => (child_inj hnamed hd hd' h).2) ?_
  cases hdir : t.names? dir.components with
  | none => simp [namesAt, hdir]
  | some names => simpa [namesAt, hdir] using honce _ _ hdir

/-- Two directories that listings lead to have no entry in common. -/
theorem eq_of_mem_children (hnamed : t.Named) {above above' p : Path}
    (ha : Listed t root above) (ha' : Listed t root above') (hp : p ∈ children t above)
    (hp' : p ∈ children t above') : above = above' := by
  obtain ⟨d, hd, rfl⟩ := List.mem_map.mp hp
  obtain ⟨d', hd', heq⟩ := List.mem_map.mp hp'
  exact ha.ext hnamed ha' (child_inj hnamed hd hd' heq.symm).1

/-- The root is no entry of what listings lead to. -/
theorem root_not_mem_children (hnamed : t.Named) {dir : Path} (h : Listed t root dir) :
    root ∉ children t dir := by
  intro hroot
  obtain ⟨d, hd, heq⟩ := List.mem_map.mp hroot
  obtain ⟨steps, -, hsteps⟩ := h.eq_foldl hnamed
  have hcomponents := congrArg Path.components heq
  rw [Path.components_child (hnamed _ _ (names?_of_mem_namesAt hd) _ hd), hsteps] at hcomponents
  simp at hcomponents

/-- How far a walk has come. All directories that it has visited or that wait are different, and
each of them is the root or listed by one that it has visited; it has visited none whose own
directories are not among them. -/
structure Progress (t : Tree) (root : Path) (visited waiting : List Path) : Prop where
  once : (visited ++ waiting).Nodup
  visitable : ∀ dir ∈ visited ++ waiting, Visitable t root dir
  origin : ∀ dir ∈ visited ++ waiting,
    dir = root ∨ ∃ above ∈ visited, dir ∈ directoriesIn t above (namesAt t above)
  rooted : root ∈ visited ++ waiting
  closed : ∀ above ∈ visited, ∀ dir ∈ directoriesIn t above (namesAt t above),
    dir ∈ visited ++ waiting

variable {visited waiting : List Path}

theorem progress_root (hroot : (t.names? root.components).isSome) : Progress t root [] [root] where
  once := List.nodup_singleton root
  visitable dir hdir := by
    obtain rfl := List.mem_singleton.mp hdir
    exact ⟨.root, hroot⟩
  origin dir hdir := .inl (List.mem_singleton.mp hdir)
  rooted := List.mem_singleton_self root
  closed _ hdir := absurd hdir List.not_mem_nil

/-- Visiting a directory adds what it lists to the directories known, and nothing else. -/
theorem perm_visited (visited waiting : List Path) (dir : Path) (listed : List Path) :
    ((visited ++ [dir]) ++ (listed.reverse ++ waiting)).Perm
      (listed ++ (visited ++ dir :: waiting)) := by
  have hlisted : (dir :: (listed.reverse ++ waiting)).Perm (listed ++ dir :: waiting) :=
    (((List.reverse_perm listed).append_right waiting).cons dir).trans List.perm_middle.symm
  rw [List.append_assoc]
  exact (hlisted.append_left visited).trans (List.perm_append_comm_assoc visited listed _)

/-- What the next directory lists is new: it is not the root, and nothing else lists it. -/
theorem Progress.fresh (hnamed : t.Named) {dir p : Path}
    (h : Progress t root visited (dir :: waiting))
    (hp : p ∈ directoriesIn t dir (namesAt t dir)) : p ∉ visited ++ dir :: waiting := by
  intro hknown
  have hlisted : Listed t root dir := (h.visitable dir (by simp)).listed
  have hdir : dir ∉ visited := fun hv =>
    (List.nodup_append.mp h.once).2.2 dir hv dir List.mem_cons_self rfl
  rcases h.origin p hknown with rfl | ⟨above, habove, hp'⟩
  · exact root_not_mem_children hnamed hlisted (List.mem_filter.mp hp).1
  · have hlisted' := (h.visitable above (List.mem_append_left _ habove)).listed
    have heq := eq_of_mem_children hnamed hlisted hlisted' (List.mem_filter.mp hp).1
      (List.mem_filter.mp hp').1
    exact hdir (heq ▸ habove)

/-- One directory is visited, and those that it lists are visited next. -/
theorem Progress.step (hnamed : t.Named) (honce : t.ListsOnce) {dir : Path}
    (h : Progress t root visited (dir :: waiting)) :
    Progress t root (visited ++ [dir])
      ((directoriesIn t dir (namesAt t dir)).reverse ++ waiting) := by
  have hperm := perm_visited visited waiting dir (directoriesIn t dir (namesAt t dir))
  have hlisted : Listed t root dir := (h.visitable dir (by simp)).listed
  have hknown : ∀ p, p ∈ (visited ++ [dir]) ++ ((directoriesIn t dir (namesAt t dir)).reverse ++
      waiting) → p ∈ directoriesIn t dir (namesAt t dir) ∨ p ∈ visited ++ dir :: waiting :=
    fun p hp => List.mem_append.mp (hperm.mem_iff.mp hp)
  exact {
    once := by
      have hnodup : (directoriesIn t dir (namesAt t dir)).Nodup :=
        (nodup_children hnamed honce dir).filter _
      refine hperm.nodup_iff.mpr (List.nodup_append.mpr ⟨hnodup, h.once, fun p hp q hq heq => ?_⟩)
      exact h.fresh hnamed hp (heq ▸ hq)
    visitable := fun p hp => by
      rcases hknown p hp with hp | hp
      · obtain ⟨d, hd, -⟩ := List.mem_map.mp (List.mem_filter.mp hp).1
        exact visitable_of_mem hlisted (names?_of_mem_namesAt hd) hp
      · exact h.visitable p hp
    origin := fun p hp => by
      rcases hknown p hp with hp | hp
      · exact .inr ⟨dir, by simp, hp⟩
      · exact (h.origin p hp).imp_right fun ⟨above, habove, hp⟩ =>
          ⟨above, List.mem_append_left _ habove, hp⟩
    rooted := hperm.mem_iff.mpr (List.mem_append_right _ h.rooted)
    closed := fun above habove p hp => by
      refine hperm.mem_iff.mpr (List.mem_append.mpr ?_)
      rcases List.mem_append.mp habove with habove | habove
      · exact .inr (h.closed above habove p hp)
      · obtain rfl := List.mem_singleton.mp habove
        exact .inl hp }

/-- No two of the directories are at one place. -/
theorem Progress.nodup_places (hnamed : t.Named) (h : Progress t root visited waiting) :
    ((visited ++ waiting).map Path.components).Nodup :=
  h.once.map_on fun p hp q hq heq =>
    (h.visitable p hp).listed.ext hnamed (h.visitable q hq).listed heq

/-- Directories have entries of their own. -/
theorem Progress.length_le (hnamed : t.Named) (h : Progress t root visited waiting) :
    (visited ++ waiting).length ≤ t.entries.length := by
  have hsub : (visited ++ waiting).map Path.components ⊆ t.entries.map Prod.fst := by
    intro place hplace
    obtain ⟨dir, hdir, rfl⟩ := List.mem_map.mp hplace
    obtain ⟨names, hnames⟩ := Option.isSome_iff_exists.mp (h.visitable dir hdir).isDirectory
    have hlookup : (t.entries.lookup dir.components).isSome := by
      rw [show t.entries.lookup dir.components = some (.directory names) from
        Tree.lookup_of_names? hnames, Option.isSome_some]
    obtain ⟨e, he, heq⟩ := List.lookup_isSome_iff.mp hlookup
    exact List.mem_map.mpr ⟨e, he, (eq_of_beq heq).symm⟩
  simpa using ((h.nodup_places hnamed).subperm hsub).length_le

/-- The bound that a search sets is enough. -/
theorem Progress.turns_le (hnamed : t.Named) (h : Progress t root visited []) :
    visited.length ≤ t.entries.length + 1 := by
  have hle := h.length_le hnamed
  rw [List.append_nil] at hle
  omega

/-- When nothing waits, every directory that listings lead to has been visited. -/
theorem Progress.mem_visited (h : Progress t root visited []) {dir : Path}
    (hdir : Visitable t root dir) : dir ∈ visited := by
  have hdone : visited ++ [] = visited := List.append_nil visited
  obtain ⟨hlisted, hsome⟩ := hdir
  induction hlisted with
  | root => exact hdone ▸ h.rooted
  | @child above names d hlisted habove hd ih =>
    have hvisited : above ∈ visited := ih (by rw [habove, Option.isSome_some])
    rw [← hdone]
    refine h.closed above hvisited _ (List.mem_filter.mpr ⟨List.mem_map_of_mem ?_, hsome⟩)
    rwa [namesAt, habove]

/-! ## The files of a walk -/

/-- The wanted files that the directories list. -/
def filesOf (t : Tree) (root : Path) (accepts : String → Bool) (dirs : List Path) : List Path :=
  dirs.flatMap fun dir => filesIn t root accepts dir (namesAt t dir)

/-- A walk goes on to its end: the more it has visited, the fewer entries are left to visit. -/
theorem Progress.walks {visited waiting : List Path} (hnamed : t.Named) (honce : t.ListsOnce)
    (h : Progress t root visited waiting) (accepts : String → Bool) (log : List LogEntry) :
    ∃ dirs, Walks Tree.fileSystem root accepts waiting ⟨filesOf t root accepts visited, log⟩ t dirs
        (.ok ⟨filesOf t root accepts (visited ++ dirs), log⟩) t ∧
      Progress t root (visited ++ dirs) [] := by
  match waiting with
  | [] => exact ⟨[], by rw [List.append_nil]; exact .done _ t, by rwa [List.append_nil]⟩
  | dir :: waiting =>
    have hleft : visited.length < t.entries.length := by
      have hle := h.length_le hnamed
      simp only [List.length_append, List.length_cons] at hle
      omega
    obtain ⟨names, hnames⟩ :=
      Option.isSome_iff_exists.mp (h.visitable dir (by simp)).isDirectory
    obtain rfl : namesAt t dir = names := by rw [namesAt, hnames, Option.getD_some]
    obtain ⟨dirs, hwalks, hdone⟩ := (h.step hnamed honce).walks hnamed honce accepts log
    refine ⟨dir :: dirs, .next (visit_directory hnames waiting _) ?_, by simpa using hdone⟩
    simpa [filesOf] using hwalks
termination_by t.entries.length - visited.length
decreasing_by
  rw [List.length_append, List.length_singleton]
  omega

/-- From a directory a walk takes up all directories below it and finds their wanted files. -/
theorem walks_root (hnamed : t.Named) (honce : t.ListsOnce)
    (hroot : (t.names? root.components).isSome) (accepts : String → Bool) :
    ∃ dirs, Walks Tree.fileSystem root accepts [root] ⟨[], []⟩ t dirs
        (.ok ⟨filesOf t root accepts dirs, []⟩) t ∧ Progress t root dirs [] :=
  (progress_root hroot).walks hnamed honce accepts []

theorem Progress.mem_filesOf (h : Progress t root visited []) {p : Path} :
    p ∈ filesOf t root accepts visited ↔ Findable t root accepts p := by
  constructor
  · intro hp
    obtain ⟨dir, hdir, hp⟩ := List.mem_flatMap.mp hp
    obtain ⟨d, hd, -⟩ := List.mem_map.mp (List.mem_filter.mp hp).1
    exact findable_of_mem (h.visitable dir (List.mem_append_left _ hdir)).listed
      (names?_of_mem_namesAt hd) hp
  · rintro ⟨hlisted, hfile, hwanted⟩
    cases hlisted with
    | root =>
      obtain ⟨names, hnames⟩ :=
        Option.isSome_iff_exists.mp (h.visitable root h.rooted).isDirectory
      rw [Tree.contents?, Tree.file?_eq_none_of_directory (Tree.lookup_of_names? hnames)] at hfile
      cases hfile
    | @child dir names d hlisted hdir hd =>
      have hvisited : dir ∈ visited := h.mem_visited ⟨hlisted, by rw [hdir, Option.isSome_some]⟩
      refine List.mem_flatMap.mpr ⟨dir, hvisited, List.mem_filter.mpr ⟨List.mem_map_of_mem ?_, ?_⟩⟩
      · rwa [namesAt, hdir]
      · rw [hfile, hwanted, Bool.and_self]

theorem Progress.nodup_filesOf (hnamed : t.Named) (honce : t.ListsOnce)
    (h : Progress t root visited []) : (filesOf t root accepts visited).Nodup := by
  have hlisted : ∀ dir ∈ visited, Listed t root dir := fun dir hdir =>
    (h.visitable dir (List.mem_append_left _ hdir)).listed
  have honce' : visited.Nodup := List.append_nil visited ▸ h.once
  refine List.nodup_flatMap.mpr ⟨fun dir _ => (nodup_children hnamed honce dir).filter _, ?_⟩
  refine honce'.imp_of_mem fun {dir dir'} hdir hdir' hne p hp hp' => hne ?_
  exact eq_of_mem_children hnamed (hlisted dir hdir) (hlisted dir' hdir')
    (List.mem_filter.mp hp).1 (List.mem_filter.mp hp').1

/-- All wanted files that listings lead to are collected, each once and in path order. -/
theorem collect_findable (hnamed : t.Named) (honce : t.ListsOnce)
    (hroot : (t.names? root.components).isSome) (accepts : String → Bool) :
    ∃ files, collect Tree.fileSystem root accepts t = (.ok ⟨files, []⟩, t) ∧
      (files.Pairwise fun p q => compare p q = .lt) ∧
      ∀ p, p ∈ files ↔ Findable t root accepts p := by
  obtain ⟨dirs, hwalks, hall⟩ := walks_root hnamed honce hroot accepts
  have hmem : ∀ p, p ∈ (filesOf t root accepts dirs).mergeSort (fun p q => (compare p q).isLE) ↔
      Findable t root accepts p := fun p => List.mem_mergeSort.trans hall.mem_filesOf
  refine ⟨(filesOf t root accepts dirs).mergeSort fun p q => (compare p q).isLE,
    hwalks.collect_eq (hall.turns_le hnamed), ?_, hmem⟩
  have hnodup : ((filesOf t root accepts dirs).mergeSort fun p q => (compare p q).isLE).Nodup :=
    (List.mergeSort_perm _ _).nodup_iff.mpr (hall.nodup_filesOf hnamed honce)
  refine ((mergeSort_ascending _).and hnodup).imp_of_mem fun {p q} hp hq h => ?_
  obtain ⟨hle, hne⟩ := h
  have hdifferent : compare p q ≠ .eq := fun heq =>
    hne (((hmem p).mp hp).listed.ext hnamed ((hmem q).mp hq).listed (Path.compare_eq_eq.mp heq))
  cases hcompare : compare p q with
  | lt => rfl
  | eq => exact absurd hcompare hdifferent
  | gt => simp [hcompare] at hle

end FirmwareMatrix.Discovery
