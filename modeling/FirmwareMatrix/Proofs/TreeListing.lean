import FirmwareMatrix.Proofs.PathJoin
import FirmwareMatrix.Proofs.TreeLookup

/-! # What directories list

Making entries only adds to listings: a directory stays one, its names stay in their order, and
the directory above a new entry lists it from then on. Whatever is listed is a name, since listings
are made from the components of paths, and it is listed once. -/

namespace FirmwareMatrix.Tree

variable {t t' t'' : Tree} {a p : List Component}

theorem names?_insert_of_ne (h : a ≠ p) (t : Tree) (n : Node) :
    (t.insert p n).names? a = t.names? a := by
  simp only [names?, lookup_insert, if_neg h]

theorem names?_insert_directory (t : Tree) (p a : List Component) (names : List String) :
    (t.insert p (.directory names)).names? a = if a = p then some names else t.names? a := by
  by_cases h : a = p <;> simp [names?, h]

theorem lookup_of_names? {names : List String} (h : t.names? a = some names) :
    t.lookup a = some (.directory names) := by
  unfold names? at h
  split at h
  · next hnode => rw [hnode, Option.some.inj h]
  · cases h

/-! ## Listings grow -/

/-- A listing at `a` is kept and at most added to. -/
def Extends (a : List Component) (t t' : Tree) : Prop :=
  ∀ names, t.names? a = some names → ∃ more, t'.names? a = some (names ++ more)

theorem Extends.refl (a : List Component) (t : Tree) : Extends a t t :=
  fun names h => ⟨[], by rw [h, List.append_nil]⟩

theorem Extends.trans (h : Extends a t t') (h' : Extends a t' t'') : Extends a t t'' := by
  intro names hnames
  obtain ⟨more, hmore⟩ := h names hnames
  obtain ⟨more', hmore'⟩ := h' _ hmore
  exact ⟨more ++ more', by rw [hmore', List.append_assoc]⟩

/-- A directory stays one. -/
theorem Extends.isSome (h : Extends a t t') (ha : (t.names? a).isSome = true) :
    (t'.names? a).isSome = true := by
  obtain ⟨names, hnames⟩ := Option.isSome_iff_exists.mp ha
  obtain ⟨more, hmore⟩ := h names hnames
  rw [hmore, Option.isSome_some]

theorem Extends.of_eq (h : t'.names? a = t.names? a) : Extends a t t' :=
  fun names hnames => ⟨[], by rw [h, hnames, List.append_nil]⟩

theorem extends_insert (h : a ≠ p) (t : Tree) (n : Node) : Extends a t (t.insert p n) :=
  .of_eq (names?_insert_of_ne h t n)

/-- Listing a place changes nothing, or adds its name to the directory above it. -/
theorem link_cases (t : Tree) (p : List Component) :
    t.link p = t ∨ ∃ above name names, above? p = some above ∧ nameOf? p = some name ∧
      t.names? above = some names ∧ name ∉ names ∧
      t.link p = t.insert above (.directory (names ++ [name])) := by
  unfold link
  split
  · next above name habove hname =>
    split
    · next names hnode =>
      split
      · exact .inl rfl
      · next hmem =>
        exact .inr ⟨above, name, names, habove, hname, by simp [names?, hnode], by simpa using hmem,
          rfl⟩
    · exact .inl rfl
  · exact .inl rfl

theorem extends_link (a : List Component) (t : Tree) (p : List Component) :
    Extends a t (t.link p) := by
  rcases link_cases t p with h | ⟨above, name, names, -, -, hnames, -, h⟩
  · rw [h]
    exact .refl a t
  · rw [h]
    by_cases ha : a = above
    · subst ha
      intro names' hnames'
      obtain rfl := Option.some.inj (hnames.symm.trans hnames')
      exact ⟨[name], by rw [names?_insert_directory, if_pos rfl]⟩
    · exact extends_insert ha t _

theorem extends_addDirectory (a : List Component) (t : Tree) (p : List Component) :
    Extends a t (t.addDirectory p) := by
  have free : ∀ r ∈ (lineage p).takeWhile (fun r => !t.contains r), t.contains r = false := by
    intro r hr
    simpa using (List.all_eq_true.mp List.all_takeWhile) r hr
  by_cases ha : t.contains a = true
  · unfold addDirectory
    generalize (lineage p).takeWhile (fun r => !t.contains r) = places at free ⊢
    induction places with
    | nil => exact .refl a t
    | cons r rs ih =>
      have ih := ih fun r hr => free r (List.mem_cons_of_mem _ hr)
      have hne : a ≠ r := by
        rintro rfl
        rw [free a List.mem_cons_self] at ha
        cases ha
      exact (ih.trans (extends_insert hne _ _)).trans (extends_link a _ r)
  · intro names hnames
    exact absurd (contains_of_lookup (lookup_of_names? hnames)) ha

theorem extends_addFile (h : a ≠ p) (t : Tree) (bytes : List UInt8) :
    Extends a t (t.addFile p bytes) := by
  unfold addFile
  cases above? p with
  | none => exact extends_insert h t _
  | some above =>
    exact ((extends_insert h t _).trans (extends_addDirectory a _ above)).trans
      (extends_link a _ p)

/-! ## New entries -/

theorem mem_names?_link {names : List String} {name : String} (habove : above? p = some a)
    (hname : nameOf? p = some name) (hnames : t.names? a = some names) :
    ∃ names', (t.link p).names? a = some names' ∧ name ∈ names' := by
  unfold link
  rw [habove, hname]
  simp only [lookup_of_names? hnames]
  split
  · next hmem => exact ⟨names, hnames, by simpa using hmem⟩
  · exact ⟨names ++ [name], by rw [names?_insert_directory, if_pos rfl], by simp⟩

/-- A new file is listed by the directory above it. -/
theorem mem_names?_addFile {name : String} (habove : above? p = some a)
    (hname : nameOf? p = some name) (hne : a ≠ p) (hdir : (t.names? a).isSome)
    (bytes : List UInt8) :
    ∃ names, (t.addFile p bytes).names? a = some names ∧ name ∈ names := by
  obtain ⟨names, hnames⟩ := Option.isSome_iff_exists.mp hdir
  obtain ⟨more, hmore⟩ := ((extends_insert hne t (.file bytes)).trans
    (extends_addDirectory a _ a)) names hnames
  simp only [addFile, habove]
  exact mem_names?_link habove hname hmore

theorem above?_append (h : a ≠ []) (c : Component) : above? (a ++ [c]) = some a := by
  unfold above?
  split
  · next heq => simp at heq
  · next heq => simp [List.append_eq_cons_iff, h] at heq
  · next heq => simp [List.append_eq_cons_iff, h] at heq
  · rw [List.dropLast_concat]

theorem above?_append_name (h : a ≠ []) (name : String) : above? (a ++ [.name name]) = some a :=
  above?_append h (.name name)

theorem nameOf?_append_name (a : List Component) (name : String) :
    nameOf? (a ++ [.name name]) = some name := by
  simp [nameOf?]

theorem lineage_eq_cons (p : List Component) : ∃ rest, lineage p = p :: rest := by
  have own {p : List Component} (hp : p ≠ []) :
      ∃ rest, (List.range p.length).map (fun i => p.take (p.length - i)) = p :: rest := by
    obtain ⟨n, hn⟩ := Nat.exists_eq_succ_of_ne_zero (mt List.length_eq_zero_iff.mp hp)
    rw [hn, List.range_succ_eq_map, List.map_cons, ← hn]
    exact ⟨_, by rw [Nat.sub_zero, List.take_length]⟩
  unfold lineage
  dsimp only
  split
  · exact ⟨[], rfl⟩
  · exact own (List.cons_ne_nil _ _)
  · exact own (List.cons_ne_nil _ _)
  · next hnil _ _ =>
    obtain ⟨rest, hrest⟩ := own hnil
    exact ⟨rest ++ [[.here]], by rw [hrest]; rfl⟩

/-- A directory that is made is there, unless something else was. -/
theorem names?_addDirectory_self (h : t.contains p = false) :
    ((t.addDirectory p).names? p).isSome := by
  obtain ⟨rest, hlineage⟩ := lineage_eq_cons p
  unfold addDirectory
  rw [hlineage, List.takeWhile_cons_of_pos (by simp [h]), List.foldr_cons]
  generalize (List.takeWhile _ rest).foldr _ t = below
  refine (extends_link p (below.insert p (.directory [])) p).isSome ?_
  rw [names?_insert_directory, if_pos rfl, Option.isSome_some]

/-- A directory can be made wherever no file is. -/
theorem names?_addDirectory (h : t.file? p = none) : ((t.addDirectory p).names? p).isSome := by
  cases hc : t.contains p with
  | false => exact names?_addDirectory_self hc
  | true =>
    obtain ⟨node, hnode⟩ := Option.isSome_iff_exists.mp hc
    cases node with
    | file bytes => simp [file?, hnode] at h
    | directory names => exact (extends_addDirectory p t p).isSome (by simp [names?, hnode])

theorem lookup_empty (a : List Component) :
    empty.lookup a = if a = [.here] then some (.directory []) else none := by
  by_cases h : a = [.here]
  · subst h
    rfl
  · simp [lookup, empty, List.lookup_cons, beq_eq_false_iff_ne.mpr h, h]

theorem file?_empty (a : List Component) : empty.file? a = none := by
  rw [file?, lookup_empty]
  split
  · next hnode =>
    split at hnode <;> cases hnode
  · rfl

/-- Every directory can be made in the tree that holds the current directory alone. -/
theorem names?_addDirectory_empty (p : List Component) :
    ((empty.addDirectory p).names? p).isSome :=
  names?_addDirectory (file?_empty p)

/-! ## Every listing

What holds of an empty listing and is kept when a new name is added holds of all listings. -/

def Listings (good : List String → Prop) (t : Tree) : Prop :=
  ∀ a names, t.names? a = some names → good names

/-- Listings stay good when the directory above `p` lists it. -/
def Admits (good : List String → Prop) (p : List Component) : Prop :=
  ∀ name names, nameOf? p = some name → good names → name ∉ names → good (names ++ [name])

section Listings

variable {good : List String → Prop}

theorem listings_empty (hnil : good []) : Listings good empty := by
  intro a names hnames
  have hnode := lookup_of_names? hnames
  rw [lookup_empty] at hnode
  split at hnode
  · obtain rfl : [] = names := Node.directory.inj (Option.some.inj hnode)
    exact hnil
  · cases hnode

theorem Listings.insert_file (h : Listings good t) (p : List Component) (bytes : List UInt8) :
    Listings good (t.insert p (.file bytes)) := by
  intro a names hnames
  have hne : a ≠ p := by
    rintro rfl
    simp [names?] at hnames
  rw [names?_insert_of_ne hne] at hnames
  exact h a names hnames

theorem Listings.insert_directory (h : Listings good t) {names : List String} (hnames : good names)
    (p : List Component) : Listings good (t.insert p (.directory names)) := by
  intro a names' hnames'
  rw [names?_insert_directory] at hnames'
  split at hnames'
  · obtain rfl := Option.some.inj hnames'
    exact hnames
  · exact h a names' hnames'

theorem Listings.link (h : Listings good t) (hp : Admits good p) : Listings good (t.link p) := by
  rcases link_cases t p with heq | ⟨above, name, names, -, hname, hnames, hnew, heq⟩
  · rw [heq]
    exact h
  · rw [heq]
    exact h.insert_directory (hp name names hname (h above names hnames) hnew) above

theorem Listings.addDirectory (h : Listings good t) (hnil : good [])
    (hp : ∀ q, q <+: p ∨ q = [.here] → Admits good q) : Listings good (t.addDirectory p) := by
  have admits : ∀ r ∈ (lineage p).takeWhile (fun r => !t.contains r), Admits good r :=
    fun r hr => hp r (mem_lineage (List.takeWhile_subset _ hr))
  unfold Tree.addDirectory
  generalize (lineage p).takeWhile (fun r => !t.contains r) = places at admits ⊢
  induction places with
  | nil => exact h
  | cons r rs ih =>
    have ih := ih fun r hr => admits r (List.mem_cons_of_mem _ hr)
    exact (ih.insert_directory hnil r).link (admits r List.mem_cons_self)

theorem Listings.addFile (h : Listings good t) (hnil : good [])
    (hp : ∀ q, q <+: p ∨ q = [.here] → Admits good q) (bytes : List UInt8) :
    Listings good (t.addFile p bytes) := by
  unfold Tree.addFile
  cases ha : above? p with
  | none => exact h.insert_file p bytes
  | some above =>
    exact ((h.insert_file p bytes).addDirectory hnil fun q hq => hp q (prefix_above ha hq)).link
      (hp p (.inl (List.prefix_refl p)))

end Listings

/-! ## Names -/

/-- Directories list nothing but names. -/
def Named (t : Tree) : Prop :=
  ∀ a names, t.names? a = some names → ∀ name ∈ names, Path.IsName name

/-- A place whose names could be those of a path. -/
def Legit (p : List Component) : Prop := ∀ name, .name name ∈ p → Path.IsName name

theorem legit_components (p : Path) : Legit p.components :=
  fun _ => Path.isName_of_mem_components

theorem Legit.nameOf? (h : Legit p) {name : String} (hname : nameOf? p = some name) :
    Path.IsName name := by
  unfold Tree.nameOf? at hname
  split at hname
  · next text hlast =>
    obtain rfl := Option.some.inj hname
    exact h _ (List.mem_of_getLast? hlast)
  · cases hname

theorem Legit.admits (h : Legit p) {a : List Component} (ha : a <+: p ∨ a = [.here]) :
    Admits (fun names => ∀ name ∈ names, Path.IsName name) a := by
  have hlegit : Legit a := by
    rcases ha with hpre | rfl
    · exact fun name hname => h name (hpre.subset hname)
    · simp [Legit]
  intro name names hname hnames _ d hd
  rcases List.mem_append.mp hd with hd | hd
  · exact hnames d hd
  · obtain rfl := List.mem_singleton.mp hd
    exact hlegit.nameOf? hname

theorem named_empty : Named empty := listings_empty (by simp)

theorem Named.addDirectory (h : Named t) (hp : Legit p) : Named (t.addDirectory p) :=
  Listings.addDirectory h (by simp) fun _ => hp.admits

theorem Named.addFile (h : Named t) (hp : Legit p) (bytes : List UInt8) :
    Named (t.addFile p bytes) :=
  Listings.addFile h (by simp) (fun _ => hp.admits) bytes

/-! ## Each name once -/

/-- Directories list no name twice. -/
def ListsOnce (t : Tree) : Prop := ∀ a names, t.names? a = some names → names.Nodup

theorem admits_nodup (p : List Component) : Admits List.Nodup p :=
  fun name names _ hnames hnew => by
    refine List.nodup_append.mpr ⟨hnames, by simp, fun d hd d' hd' heq => ?_⟩
    obtain rfl := List.mem_singleton.mp hd'
    exact hnew (heq ▸ hd)

theorem listsOnce_empty : ListsOnce empty := listings_empty List.nodup_nil

theorem ListsOnce.addDirectory (h : ListsOnce t) (p : List Component) :
    ListsOnce (t.addDirectory p) :=
  Listings.addDirectory h List.nodup_nil fun a _ => admits_nodup a

theorem ListsOnce.addFile (h : ListsOnce t) (p : List Component) (bytes : List UInt8) :
    ListsOnce (t.addFile p bytes) :=
  Listings.addFile h List.nodup_nil (fun a _ => admits_nodup a) bytes

end FirmwareMatrix.Tree
