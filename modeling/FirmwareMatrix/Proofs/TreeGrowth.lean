import FirmwareMatrix.Proofs.TreeListing
import Mathlib.Data.List.Induction

/-! # Trees that grow

A new entry brings the directories above it, and each directory lists what lies right below it by
a name that is a text. While an entry is being added the places that are still to be listed are
loose; when it is done none are, as long as no file stands where a directory is needed. -/

namespace FirmwareMatrix.Tree

variable {t : Tree} {a p : List Component} {c : Component} {name : String}
  {loose : List (List Component)}

/-! ## Going up -/

/-- The last step of a place, which is a name. -/
structure EndsIn (p : List Component) (c : Component) : Prop where
  last : p.getLast? = some c
  isName : c.isName = true

theorem endsIn_append (xs : List Component) (hc : c.isName = true) : EndsIn (xs ++ [c]) c :=
  ⟨List.getLast?_concat, hc⟩

theorem EndsIn.eq_append (h : EndsIn p c) : ∃ xs, p = xs ++ [c] :=
  List.getLast?_eq_some_iff.mp h.last

/-- The name that a place is listed by is its last step. -/
theorem nameOf?_eq_some_iff : nameOf? p = some name ↔ EndsIn p (.name name) := by
  unfold nameOf?
  constructor
  · intro h
    split at h
    · next text hlast =>
      obtain rfl := Option.some.inj h
      exact ⟨hlast, rfl⟩
    · cases h
  · intro h
    rw [h.last]

theorem EndsIn.nameOf?_eq (h : EndsIn p (.name name)) : nameOf? p = some name :=
  nameOf?_eq_some_iff.mpr h

/-- A named place is one step below the place above it, which for a single step is the current
directory. -/
theorem eq_of_above (ha : above? p = some a) (hends : EndsIn p c) :
    p = [c] ∧ a = [.here] ∨ a ≠ [] ∧ p = a ++ [c] := by
  obtain ⟨xs, rfl⟩ := hends.eq_append
  cases xs with
  | nil =>
    have hc := hends.isName
    cases c with
    | root => cases hc
    | here | up | name | stray => exact .inl ⟨rfl, (Option.some.inj ha).symm⟩
  | cons d ds =>
    rw [above?_append (List.cons_ne_nil d ds)] at ha
    obtain rfl := Option.some.inj ha
    exact .inr ⟨List.cons_ne_nil d ds, rfl⟩

/-- No place lies above itself. -/
theorem not_mem_lineage (ha : above? p = some a) (hends : EndsIn p c) : p ∉ lineage a := by
  intro hp
  rcases eq_of_above ha hends with ⟨rfl, rfl⟩ | ⟨-, rfl⟩
  · have hhere : c = .here := by simpa [lineage] using hp
    subst hhere
    cases hends.isName
  · rcases mem_lineage hp with hpre | heq
    · have hle := hpre.length_le
      rw [List.length_append, List.length_singleton] at hle
      omega
    · have hhere : c = .here := by
        have hlast := congrArg List.getLast? heq
        rw [List.getLast?_concat] at hlast
        exact Option.some.inj hlast
      subst hhere
      cases hends.isName

theorem mem_lineage_self (p : List Component) : p ∈ lineage p := by
  obtain ⟨rest, hlineage⟩ := lineage_eq_cons p
  exact hlineage ▸ List.mem_cons_self

theorem above?_ne (ha : above? p = some a) (hends : EndsIn p c) : a ≠ p := by
  rintro rfl
  exact not_mem_lineage ha hends (mem_lineage_self a)

/-- A place from which going up by names ends in the current directory. -/
inductive Grounded : List Component → Prop
  | here : Grounded [.here]
  | step {p a : List Component} {c : Component} (ha : above? p = some a) (hends : EndsIn p c)
    (above : Grounded a) : Grounded p

theorem grounded_of_plain (hplain : ∀ c ∈ p, c.isName = true) (hne : p ≠ []) : Grounded p := by
  induction p using List.reverseRecOn with
  | nil => exact absurd rfl hne
  | append_singleton a c ih =>
    have hc : c.isName = true := hplain c (by simp)
    cases a with
    | nil =>
      have habove : above? [c] = some [.here] := by
        cases c with
        | root => cases hc
        | here | up | name | stray => rfl
      exact .step habove (endsIn_append [] hc) .here
    | cons d ds =>
      exact .step (above?_append (List.cons_ne_nil d ds) c) (endsIn_append _ hc)
        (ih (fun c hc => hplain c (List.mem_append_left _ hc)) (List.cons_ne_nil d ds))

/-- The beginnings of a longer place are itself and those of the place above it. -/
theorem takes_concat (xs : List Component) (c : Component) :
    ((List.range (xs ++ [c]).length).map fun i => (xs ++ [c]).take ((xs ++ [c]).length - i)) =
      (xs ++ [c]) :: (List.range xs.length).map fun i => xs.take (xs.length - i) := by
  rw [List.length_append, List.length_singleton, List.range_succ_eq_map, List.map_cons,
    List.map_map]
  congr 1
  · exact List.take_of_length_le (by simp)
  · refine List.map_congr_left fun i _ => ?_
    rw [Function.comp_apply, Nat.succ_eq_add_one, Nat.add_sub_add_right,
      List.take_append_of_le_length (Nat.sub_le _ _)]

/-- Going up from a place leads through the place above it. -/
theorem lineage_eq_cons_above (ha : above? p = some a) (hp : p ≠ [.here]) :
    lineage p = p :: lineage a := by
  rcases List.eq_nil_or_concat p with rfl | ⟨xs, c, rfl⟩
  · cases ha
  · rw [List.concat_eq_append] at ha hp ⊢
    cases xs with
    | nil =>
      cases c with
      | root => cases ha
      | here => exact absurd rfl hp
      | up | name | stray =>
        obtain rfl := Option.some.inj ha
        simp [lineage]
    | cons d ds =>
      obtain rfl := Option.some.inj ((above?_append (List.cons_ne_nil d ds) c).symm.trans ha)
      have own := takes_concat (d :: ds) c
      cases d with
      | root | here => exact own
      | up | name | stray => exact congrArg (· ++ [[.here]]) own

theorem lineage_of_above (ha : above? p = some a) (hends : EndsIn p c) :
    lineage p = p :: lineage a := by
  refine lineage_eq_cons_above ha ?_
  rintro rfl
  obtain rfl : .here = c := Option.some.inj hends.last
  cases hends.isName

/-- What lies above the place above lies above. -/
theorem mem_lineage_of_above (ha : above? p = some a) {q : List Component} (hq : q ∈ lineage a) :
    q ∈ lineage p := by
  by_cases hp : p = [.here]
  · subst hp
    obtain rfl := Option.some.inj ha
    exact hq
  · exact lineage_eq_cons_above ha hp ▸ List.mem_cons_of_mem p hq

theorem addDirectory_of_contains (h : t.contains p = true) : t.addDirectory p = t := by
  obtain ⟨rest, hlineage⟩ := lineage_eq_cons p
  rw [addDirectory, hlineage, List.takeWhile_cons_of_neg (by simp [h]), List.foldr_nil]

/-- A directory is made after those above it. -/
theorem addDirectory_of_above (h : t.contains p = false) (ha : above? p = some a)
    (hends : EndsIn p c) :
    t.addDirectory p = ((t.addDirectory a).insert p (.directory [])).link p := by
  rw [addDirectory, lineage_of_above ha hends, List.takeWhile_cons_of_pos (by simp [h]),
    List.foldr_cons]
  rfl

/-! ## What is there -/

theorem contains_iff : t.contains p = true ↔ (t.names? p).isSome ∨ (t.file? p).isSome := by
  unfold names? contains file?
  cases t.lookup p with
  | none => simp
  | some node => cases node <;> simp

theorem names?_isSome_iff : (t.names? p).isSome ↔ t.contains p = true ∧ t.file? p = none := by
  unfold names? contains file?
  cases t.lookup p with
  | none => simp
  | some node => cases node <;> simp

theorem contains_of_addDirectory {q : List Component}
    (h : (t.addDirectory p).contains q = true) : t.contains q = true ∨ q ∈ lineage p := by
  have upward : ∀ r ∈ (lineage p).takeWhile (fun r => !t.contains r), r ∈ lineage p :=
    fun r hr => List.takeWhile_subset _ hr
  unfold addDirectory at h
  generalize (lineage p).takeWhile (fun r => !t.contains r) = places at upward h
  induction places with
  | nil => exact .inl h
  | cons r rs ih =>
    simp only [List.foldr_cons, contains_link, contains_insert, Bool.or_eq_true,
      decide_eq_true_eq] at h
    rcases h with rfl | h
    · exact .inr (upward q List.mem_cons_self)
    · exact ih (fun r hr => upward r (List.mem_cons_of_mem _ hr)) h

theorem contains_of_addFile {q : List Component} {bytes : List UInt8}
    (h : (t.addFile p bytes).contains q = true) : t.contains q = true ∨ q ∈ lineage p := by
  have put {q : List Component} (h : (t.insert p (.file bytes)).contains q = true) :
      t.contains q = true ∨ q ∈ lineage p := by
    rw [contains_insert, Bool.or_eq_true, decide_eq_true_eq] at h
    rcases h with rfl | h
    · exact .inr (mem_lineage_self q)
    · exact .inl h
  unfold addFile at h
  cases ha : above? p with
  | none => exact put (by simpa only [ha] using h)
  | some above =>
    simp only [ha, contains_link] at h
    rcases contains_of_addDirectory h with h | h
    · exact put h
    · exact .inr (mem_lineage_of_above ha h)

/-! ## Links -/

/-- A place that is listed by the directory right above it. -/
def IsListed (t : Tree) (a : List Component) (name : String) : Prop :=
  ∃ names, t.names? a = some names ∧ name ∈ names

/-- There is a directory, which lists the step that leads on from it if that is a text. -/
def Shows (t : Tree) (a : List Component) (c : Component) : Prop :=
  ∃ names, t.names? a = some names ∧ ∀ name, c = .name name → name ∈ names

theorem Shows.isListed (h : t.Shows a (.name name)) : t.IsListed a name := by
  obtain ⟨names, hnames, hmem⟩ := h
  exact ⟨names, hnames, hmem name rfl⟩

theorem shows_link (ha : above? p = some a) (hends : EndsIn p c) (hdir : (t.names? a).isSome) :
    (t.link p).Shows a c := by
  obtain ⟨names, hnames⟩ := Option.isSome_iff_exists.mp hdir
  cases c with
  | name text =>
    obtain ⟨names', hnames', hmem⟩ := mem_names?_link ha hends.nameOf?_eq hnames
    exact ⟨names', hnames', fun name hname => Component.name.inj hname ▸ hmem⟩
  | root | here | up | stray =>
    obtain ⟨more, hmore⟩ := extends_link a t p names hnames
    exact ⟨names ++ more, hmore, fun name hname => by cases hname⟩

/-- What is there is shown by the directory above it, unless it is loose. -/
def Linked (loose : List (List Component)) (t : Tree) : Prop :=
  ∀ p a c, t.contains p = true → p ∉ loose → above? p = some a → EndsIn p c → t.Shows a c

theorem linked_empty : Linked [] empty := by
  intro p a c hp _ _ hends
  rw [contains, lookup_empty] at hp
  split at hp
  · next heq =>
    subst heq
    obtain rfl : .here = c := Option.some.inj hends.last
    cases hends.isName
  · cases hp

/-- An entry that takes the place of no directory is the only one to come loose. -/
theorem Linked.insert (h : Linked loose t) (hp : t.names? p = none) (n : Node) :
    Linked (p :: loose) (t.insert p n) := by
  intro q a c hq hloose ha hends
  rw [List.mem_cons, not_or] at hloose
  rw [contains_insert, decide_eq_false hloose.1, Bool.false_or] at hq
  obtain ⟨names, hnames, hmem⟩ := h q a c hq hloose.2 ha hends
  have hne : a ≠ p := by
    rintro rfl
    rw [hp] at hnames
    cases hnames
  exact ⟨names, by rw [names?_insert_of_ne hne, hnames], hmem⟩

theorem Linked.link (h : Linked (p :: loose) t) (ha : above? p = some a)
    (hdir : (t.names? a).isSome) : Linked loose (t.link p) := by
  intro q b c hq hloose hb hends
  by_cases hqp : q = p
  · subst hqp
    obtain rfl := Option.some.inj (ha.symm.trans hb)
    exact shows_link ha hends hdir
  · rw [contains_link] at hq
    obtain ⟨names, hnames, hmem⟩ := h q b c hq (by simp [hqp, hloose]) hb hends
    obtain ⟨more, hmore⟩ := extends_link b t p names hnames
    exact ⟨names ++ more, hmore, fun name hname => List.mem_append_left _ (hmem name hname)⟩

/-- A directory is made where no file is in the way. -/
theorem Linked.addDirectory (hp : Grounded p) (h : Linked loose t)
    (hhere : (t.names? [.here]).isSome) (hfree : ∀ q ∈ lineage p, t.file? q = none) :
    Linked loose (t.addDirectory p) := by
  induction hp with
  | here =>
    rw [addDirectory_of_contains (names?_isSome_iff.mp hhere).1]
    exact h
  | @step p a c ha hends _ ih =>
    cases hc : t.contains p with
    | true =>
      rw [addDirectory_of_contains hc]
      exact h
    | false =>
      rw [lineage_of_above ha hends] at hfree
      obtain ⟨-, hfree⟩ := List.forall_mem_cons.mp hfree
      have hdir : ((t.addDirectory a).names? a).isSome :=
        names?_addDirectory (hfree a (mem_lineage_self a))
      have hnew : (t.addDirectory a).names? p = none := by
        cases hnames : (t.addDirectory a).names? p with
        | none => rfl
        | some names =>
          have hthere := contains_of_lookup (lookup_of_names? hnames)
          rcases contains_of_addDirectory hthere with hold | hmem
          · exact absurd (hc.symm.trans hold) Bool.false_ne_true
          · exact absurd hmem (not_mem_lineage ha hends)
      rw [addDirectory_of_above hc ha hends]
      refine ((ih hfree).insert hnew _).link ha ?_
      rw [names?_insert_of_ne (above?_ne ha hends)]
      exact hdir

/-- A file is put where no directory is, below directories that no file is in the way of. -/
theorem Linked.addFile (hp : Grounded p) (h : Linked loose t) (hhere : (t.names? [.here]).isSome)
    (hdir : t.names? p = none) (hfree : ∀ q ∈ lineage p, q ≠ p → t.file? q = none)
    (bytes : List UInt8) : Linked loose (t.addFile p bytes) := by
  cases hp with
  | here => simp [hdir] at hhere
  | @step _ a c ha hends above =>
    have hput : ∀ q ∈ lineage a, (t.insert p (.file bytes)).file? q = none := by
      intro q hq
      have hne : q ≠ p := by
        rintro rfl
        exact not_mem_lineage ha hends hq
      rw [file?_insert, if_neg hne]
      exact hfree q (lineage_of_above ha hends ▸ List.mem_cons_of_mem _ hq) hne
    have hhere' : ((t.insert p (.file bytes)).names? [.here]).isSome := by
      rw [names?_insert_of_ne]
      · exact hhere
      · rintro rfl
        simp [hdir] at hhere
    simp only [Tree.addFile, ha]
    exact ((h.insert hdir _).addDirectory above hhere' hput).link ha
      (names?_addDirectory (hput a (mem_lineage_self a)))

/-! ## Trees made of entries -/

/-- An entry to be added: a file with its bytes or a directory. -/
inductive Entry where
  | file (path : Path) (bytes : List UInt8)
  | directory (path : Path)

namespace Entry

def path : Entry → Path
  | file path _ => path
  | directory path => path

def isFile : Entry → Bool
  | file _ _ => true
  | directory _ => false

def place (e : Entry) : List Component := e.path.components

def add (t : Tree) : Entry → Tree
  | file path bytes => t.addFile path.components bytes
  | directory path => t.addDirectory path.components

end Entry

/-- The tree that the entries make, added in their order. -/
def ofEntries (entries : List Entry) : Tree := entries.foldl Entry.add empty

/-- Entries that can stand in one tree: their paths lead down by names, and no file stands where a
directory does or below another file. -/
structure Consistent (entries : List Entry) : Prop where
  plain : ∀ e ∈ entries, e.path.IsPlain ∧ e.place ≠ []
  apart : ∀ e ∈ entries, ∀ d ∈ entries, e.isFile = true → d.isFile = false → e.place ≠ d.place
  leaf : ∀ e ∈ entries, ∀ e' ∈ entries, e.isFile = true → e.place <+: e'.place →
    e.place = e'.place

/-- A tree with the files of `done`, and directories at and above their places only. -/
structure Grown (done : List Entry) (t : Tree) : Prop where
  files : ∀ q, (t.file? q).isSome ↔ ∃ e ∈ done, e.isFile = true ∧ e.place = q
  present : ∀ e ∈ done, t.contains e.place = true
  places : ∀ q, t.contains q = true → q = [.here] ∨ ∃ e ∈ done, q <+: e.place
  grounded : (t.names? [.here]).isSome
  linked : Linked [] t
  named : Named t
  once : ListsOnce t

variable {entries done : List Entry} {e : Entry}

theorem Consistent.of_subset (h : Consistent entries) (hsub : done ⊆ entries) :
    Consistent done where
  plain e he := h.plain e (hsub he)
  apart e he d hd := h.apart e (hsub he) d (hsub hd)
  leaf e he e' he' := h.leaf e (hsub he) e' (hsub he')

/-- A file of consistent entries lies above no entry but files at its own place. -/
theorem Consistent.isFile_of_prefix (h : Consistent entries) {e e' : Entry} (he : e ∈ entries)
    (he' : e' ∈ entries) (hfile : e.isFile = true) (hpre : e.place <+: e'.place) :
    e'.isFile = true ∧ e'.place = e.place := by
  have heq := h.leaf e he e' he' hfile hpre
  cases hfile' : e'.isFile with
  | true => exact ⟨rfl, heq.symm⟩
  | false => exact absurd heq (h.apart e he e' he' hfile hfile')

theorem grown_empty : Grown [] empty where
  files q := by simp [file?_empty]
  present := by simp
  places q hq := by
    rw [contains, lookup_empty] at hq
    split at hq
    · next heq => exact .inl heq
    · cases hq
  grounded := rfl
  linked := linked_empty
  named := named_empty
  once := listsOnce_empty

theorem Consistent.grounded (h : Consistent entries) (he : e ∈ entries) : Grounded e.place :=
  grounded_of_plain (h.plain e he).1 (h.plain e he).2

theorem Consistent.place_ne_here (h : Consistent entries) (he : e ∈ entries) :
    e.place ≠ [.here] := by
  intro heq
  have hname := (h.plain e he).1 .here (by rw [← Entry.place, heq]; exact List.mem_cons_self)
  simp [Component.isName] at hname

section Growing

variable (h : Grown done t) (hentries : Consistent (done ++ [e]))
include h hentries

/-- Nothing at or above the place of a new entry is a file but the same file. -/
theorem Grown.file?_above {q : List Component} (hq : q <+: e.place ∨ q = [.here])
    (hne : e.isFile = true → q ≠ e.place) : t.file? q = none := by
  cases hfile : t.file? q with
  | none => rfl
  | some bytes =>
    obtain ⟨e', he', hfile', rfl⟩ := (h.files q).mp (by rw [hfile, Option.isSome_some])
    have hmem : e' ∈ done ++ [e] := List.mem_append_left _ he'
    rcases hq with hpre | hhere
    · obtain ⟨hisFile, hplace⟩ := hentries.isFile_of_prefix hmem (by simp) hfile' hpre
      exact absurd hplace.symm (hne hisFile)
    · exact absurd hhere (hentries.place_ne_here hmem)

/-- A new file takes the place of no directory. -/
theorem Grown.names?_place (hfile : e.isFile = true) : t.names? e.place = none := by
  cases hnames : t.names? e.place with
  | none => rfl
  | some names =>
    have hnode := lookup_of_names? hnames
    rcases h.places _ (contains_of_lookup hnode) with hhere | ⟨e', he', hpre⟩
    · exact absurd hhere (hentries.place_ne_here (by simp))
    · obtain ⟨hfile', hplace⟩ :=
        hentries.isFile_of_prefix (by simp) (List.mem_append_left _ he') hfile hpre
      have hsome := (h.files _).mpr ⟨e', he', hfile', hplace⟩
      rw [file?_eq_none_of_directory hnode] at hsome
      cases hsome

omit hentries in
theorem Grown.places_add {q : List Component}
    (hq : t.contains q = true ∨ q <+: e.place ∨ q = [.here]) :
    q = [.here] ∨ ∃ e' ∈ done ++ [e], q <+: e'.place := by
  rcases hq with hq | hq | hq
  · exact (h.places q hq).imp_right fun ⟨e', he', hpre⟩ => ⟨e', List.mem_append_left _ he', hpre⟩
  · exact .inr ⟨e, by simp, hq⟩
  · exact .inl hq

end Growing

theorem Grown.addDirectory {path : Path} (h : Grown done t)
    (hentries : Consistent (done ++ [.directory path])) :
    Grown (done ++ [.directory path]) (t.addDirectory path.components) where
  files q := by
    rw [file?_addDirectory, h.files]
    simp [Entry.isFile]
  present e he := by
    rcases List.mem_append.mp he with he | he
    · exact contains_addDirectory path.components (h.present e he)
    · obtain rfl := List.mem_singleton.mp he
      have hfree : t.file? path.components = none :=
        h.file?_above hentries (.inl (List.prefix_refl _)) fun hfile => by cases hfile
      exact (names?_isSome_iff.mp (names?_addDirectory hfree)).1
  places q hq := h.places_add ((contains_of_addDirectory hq).imp_right mem_lineage)
  grounded := (extends_addDirectory [.here] t path.components).isSome h.grounded
  linked := by
    have hfree : ∀ q ∈ lineage path.components, t.file? q = none := fun q hq =>
      h.file?_above hentries (mem_lineage hq) fun hfile => by cases hfile
    have hground := hentries.grounded (e := .directory path) (by simp)
    exact h.linked.addDirectory hground h.grounded hfree
  named := h.named.addDirectory (legit_components path)
  once := h.once.addDirectory path.components

theorem Grown.addFile {path : Path} {bytes : List UInt8} (h : Grown done t)
    (hentries : Consistent (done ++ [.file path bytes])) :
    Grown (done ++ [.file path bytes]) (t.addFile path.components bytes) where
  files q := by
    rw [file?_addFile]
    split
    · next heq => simp [heq, Entry.isFile, Entry.place, Entry.path]
    · next hne =>
      rw [h.files]
      simp [Entry.isFile, Entry.place, Entry.path, Ne.symm hne]
  present e he := by
    refine contains_addFile path.components bytes ?_
    rcases List.mem_append.mp he with he | he
    · exact .inr (h.present e he)
    · obtain rfl := List.mem_singleton.mp he
      exact .inl rfl
  places q hq := h.places_add ((contains_of_addFile hq).imp_right mem_lineage)
  grounded := by
    have hne := hentries.place_ne_here (e := .file path bytes) (by simp)
    exact (extends_addFile hne.symm t bytes).isSome h.grounded
  linked := by
    have hfree : ∀ q ∈ lineage path.components, q ≠ path.components → t.file? q = none :=
      fun q hq hne => h.file?_above hentries (mem_lineage hq) fun _ => hne
    have hground := hentries.grounded (e := .file path bytes) (by simp)
    exact h.linked.addFile hground h.grounded (h.names?_place hentries rfl) hfree bytes
  named := h.named.addFile (legit_components path) bytes
  once := h.once.addFile path.components bytes

/-- Consistent entries make a tree with these files, in which whatever is there is listed. -/
theorem Consistent.grown (h : Consistent entries) : Grown entries (ofEntries entries) := by
  induction entries using List.reverseRecOn with
  | nil => exact grown_empty
  | append_singleton entries e ih =>
    rw [ofEntries, List.foldl_append]
    have hgrown := ih (h.of_subset (List.subset_append_left entries [e]))
    cases e with
    | file path bytes => exact hgrown.addFile h
    | directory path => exact hgrown.addDirectory h

end FirmwareMatrix.Tree
