import FirmwareMatrix.Proofs.GenuineListings
import Mathlib.Data.List.Infix
import Mathlib.Data.List.Nodup

/-! # Entries and listings that match

Used on paths that lead down by names, without a file put where a directory is or anything new
below a file, a tree shows the same from both sides: each entry is listed once by the directory
above it, and each listed name is that of an entry. That a place is listed comes from the growth of
trees, which asks for directories all the way up; they are there because nothing new lies below a
file, and above what is there already because it is listed. -/

namespace FirmwareMatrix.Tree

variable {t t' : Tree} {a p q : List Component} {name : String}

/-! ## Use without conflicts -/

/-- From one tree to the next no file takes the place of a directory, and nothing new lies below a
file. -/
structure Fits (t t' : Tree) : Prop where
  noneReplaced : ∀ p, (t.names? p).isSome = true → t'.file? p = none
  noneBelow : ∀ p, t.contains p = false → t'.contains p = true →
    ∀ q, q <+: p → q ≠ p → t.file? q = none

theorem contains_iff_mem : t.contains p = true ↔ p ∈ t.entries.map Prod.fst := by
  rw [contains, lookup, List.lookup_isSome_iff, List.mem_map]
  simp only [beq_iff_eq, @eq_comm _ p]

theorem fits_iff : Fits t t' ↔ ∀ p ∈ t'.entries.map Prod.fst,
    ((t.names? p).isSome = true → t'.file? p = none) ∧
      (t.contains p = false → ∀ q ∈ p.inits, q ≠ p → t.file? q = none) := by
  constructor
  · intro h p hp
    exact ⟨h.noneReplaced p, fun hnew q hq =>
      h.noneBelow p hnew (contains_iff_mem.mpr hp) q ((List.mem_inits q p).mp hq)⟩
  · intro h
    refine ⟨fun p hdir => ?_, fun p hnew hthere q hq =>
      (h p (contains_iff_mem.mp hthere)).2 hnew q ((List.mem_inits q p).mpr hq)⟩
    cases hthere : t'.contains p with
    | false => exact file?_eq_none_of_not_contains hthere
    | true => exact (h p (contains_iff_mem.mp hthere)).1 hdir

instance (t t' : Tree) : Decidable (Fits t t') := decidable_of_iff _ fits_iff.symm

/-- Operations of which none conflicts with what the ones before it left. -/
def ConflictFree : List Operation → Tree → Prop
  | [], _ => True
  | op :: ops, t => Fits t (op.perform t).2 ∧ ConflictFree ops (op.perform t).2

instance decidableConflictFree : (ops : List Operation) → (t : Tree) →
    Decidable (ConflictFree ops t)
  | [], _ => isTrue trivial
  | op :: ops, t =>
    have := decidableConflictFree ops (op.perform t).2
    inferInstanceAs (Decidable (_ ∧ _))

/-- A place that is reached by names alone. -/
def Plain (p : List Component) : Prop := p ≠ [] ∧ ∀ c ∈ p, c.isName = true

instance (p : List Component) : Decidable (Plain p) := inferInstanceAs (Decidable (_ ∧ _))

/-- The paths that an operation is given. -/
def Operation.paths : Operation → List Path
  | addFile path _ => [path]
  | addDirectory path => [path]
  | write path _ => [path]
  | createDirectories path => [path]
  | copy source dest => [source, dest]
  | removeFile path => [path]

theorem Operation.mem_paths_of_puts? {op : Operation} {path : Path} {bytes : List UInt8}
    (h : op.puts? t = some (path, bytes)) : path ∈ op.paths := by
  cases op with
  | addFile | write =>
    obtain ⟨rfl, -⟩ := Prod.mk.inj (Option.some.inj h)
    exact List.mem_singleton_self _
  | copy source dest =>
    obtain ⟨bytes', -, heq⟩ := Option.map_eq_some_iff.mp h
    obtain ⟨rfl, -⟩ := Prod.mk.inj heq
    exact List.mem_cons_of_mem _ (List.mem_singleton_self _)
  | addDirectory | createDirectories | removeFile => cases h

theorem Operation.mem_paths_of_makes? {op : Operation} {path : Path}
    (h : op.makes? = some path) : path ∈ op.paths := by
  cases op with
  | addDirectory | createDirectories =>
    obtain rfl := Option.some.inj h
    exact List.mem_singleton_self _
  | addFile | write | copy | removeFile => cases h

/-- The place of what a directory lists under a name. -/
def entryOf : List Component → String → List Component
  | [.here], name => [.name name]
  | dir, name => dir ++ [.name name]

theorem Plain.grounded (hp : Plain p) : Grounded p := grounded_of_plain hp.2 hp.1

theorem Plain.eq_entryOf (hp : Plain p) (ha : above? p = some a) (hname : nameOf? p = some name) :
    p = entryOf a name := by
  rcases eq_of_above ha (nameOf?_eq_some_iff.mp hname) with ⟨rfl, rfl⟩ | ⟨-, rfl⟩
  · rfl
  · unfold entryOf
    split
    · -- a step by name does not start with the current directory
      have hhere := hp.2 .here (by simp)
      cases hhere
    · rfl

theorem Plain.eq_of_listsAs (hp : Plain p) (h : listsAs p a name = true) :
    p = entryOf a name := by
  obtain ⟨habove, hname⟩ : (above? p).getD [.here] = a ∧ nameOf? p = some name := by
    simpa [listsAs] using h
  cases hp.grounded with
  | here => cases hname
  | step ha _ _ =>
    rw [ha, Option.getD_some] at habove
    exact hp.eq_entryOf (habove ▸ ha) hname

theorem Grounded.of_mem_lineage (h : Grounded p) (hq : q ∈ lineage p) : Grounded q := by
  induction h with
  | here =>
    obtain rfl : q = [.here] := by simpa [lineage] using hq
    exact .here
  | step ha hends above ih =>
    rw [lineage_of_above ha hends] at hq
    rcases List.mem_cons.mp hq with rfl | hq
    · exact .step ha hends above
    · exact ih hq

theorem Grounded.ne_nil (h : Grounded p) : p ≠ [] := by
  cases h with
  | here => exact List.cons_ne_nil _ _
  | step _ hends _ =>
    rintro rfl
    cases hends.last

theorem Plain.of_mem_lineage (hp : Plain p) (hq : q ∈ lineage p) : q = [.here] ∨ Plain q := by
  rcases mem_lineage hq with hpre | hhere
  · exact .inr ⟨(hp.grounded.of_mem_lineage hq).ne_nil, fun c hc => hp.2 c (hpre.subset hc)⟩
  · exact .inl hhere

/-- Where all is linked, what lies above an entry is a directory. -/
theorem Linked.names?_above (h : Linked [] t) (hp : Grounded p) (hthere : t.contains p = true) :
    ∀ q ∈ lineage p, q ≠ p → (t.names? q).isSome = true := by
  induction hp with
  | here =>
    intro q hq hne
    exact absurd (by simpa [lineage] using hq) hne
  | @step p a c ha hends _ ih =>
    intro q hq hne
    obtain ⟨names, hnames, -⟩ := h p a c hthere List.not_mem_nil ha hends
    rw [lineage_of_above ha hends, List.mem_cons] at hq
    by_cases hqa : q = a
    · rw [hqa, hnames, Option.isSome_some]
    · exact ih (contains_of_lookup (lookup_of_names? hnames)) q (hq.resolve_left hne) hqa

/-! ## What use without conflicts keeps -/

structure Orderly (t : Tree) : Prop where
  plain : ∀ p, t.contains p = true → p = [.here] ∨ Plain p
  rooted : (t.names? [.here]).isSome = true
  linked : Linked [] t
  genuine : Genuine t
  once : ListsOnce t

namespace Orderly

theorem file?_here (h : Orderly t) : t.file? [.here] = none := (names?_isSome_iff.mp h.rooted).2

/-- Nothing above a place is a file: not above an entry, and not above what may be added. -/
theorem file?_above (h : Orderly t) (hp : Plain p)
    (hnew : t.contains p = false → ∀ q, q <+: p → q ≠ p → t.file? q = none) :
    ∀ q ∈ lineage p, q ≠ p → t.file? q = none := by
  intro q hq hne
  cases hthere : t.contains p with
  | true => exact (names?_isSome_iff.mp (h.linked.names?_above hp.grounded hthere q hq hne)).2
  | false =>
    rcases mem_lineage hq with hpre | rfl
    · exact hnew hthere q hpre hne
    · exact h.file?_here

theorem addDirectory (h : Orderly t) (hp : Plain p) (hfits : Fits t (t.addDirectory p)) :
    Orderly (t.addDirectory p) := by
  cases hthere : t.contains p with
  | true => rwa [addDirectory_of_contains hthere]
  | false =>
    have hnew : (t.addDirectory p).contains p = true :=
      (names?_isSome_iff.mp (names?_addDirectory_self hthere)).1
    have hfree : ∀ q ∈ lineage p, t.file? q = none := by
      intro q hq
      by_cases hqp : q = p
      · rw [hqp, file?_eq_none_of_not_contains hthere]
      · exact h.file?_above hp (fun _ => hfits.noneBelow p hthere hnew) q hq hqp
    exact {
      plain := fun q hq => (contains_of_addDirectory hq).elim (h.plain q) hp.of_mem_lineage
      rooted := (extends_addDirectory [.here] t p).isSome h.rooted
      linked := h.linked.addDirectory hp.grounded h.rooted hfree
      genuine := h.genuine.addDirectory p
      once := h.once.addDirectory p }

theorem addFile {bytes : List UInt8} (h : Orderly t) (hp : Plain p)
    (hfits : Fits t (t.addFile p bytes)) : Orderly (t.addFile p bytes) := by
  have hnew : (t.addFile p bytes).contains p = true := contains_addFile p bytes (.inl rfl)
  have hdir : t.names? p = none := by
    cases hnames : t.names? p with
    | none => rfl
    | some names =>
      have hnone := hfits.noneReplaced p (by rw [hnames, Option.isSome_some])
      rw [file?_addFile, if_pos rfl] at hnone
      cases hnone
  exact {
    plain := fun q hq => (contains_of_addFile hq).elim (h.plain q) hp.of_mem_lineage
    rooted := by
      have hrooted := h.rooted
      have hne : [.here] ≠ p := by
        rintro rfl
        simp [hdir] at hrooted
      exact (extends_addFile hne t bytes).isSome h.rooted
    linked := h.linked.addFile hp.grounded h.rooted hdir
      (h.file?_above hp fun hthere => hfits.noneBelow p hthere hnew) bytes
    genuine := h.genuine.addFile p bytes
    once := h.once.addFile p bytes }

/-- The listing that a file is struck from loses no name of another entry, since two plain places
differ in what is above them or in their name. -/
theorem discard (h : Orderly t) (hp : Plain p) (hfile : (t.file? p).isSome = true) :
    Orderly (t.discard p) where
  plain q hq := h.plain q (((takenAt_discard hfile).contains_iff q).mp hq).1
  rooted := by rw [names?_discard, Option.isSome_map, h.rooted]
  linked := by
    intro q a c hq hloose ha hends
    obtain ⟨hthere, hne⟩ := ((takenAt_discard hfile).contains_iff q).mp hq
    obtain ⟨names, hnames, hmem⟩ := h.linked q a c hthere hloose ha hends
    -- the name is still there, for the one that was struck is that of the file
    refine ⟨_, by rw [names?_discard, hnames, Option.map_some], fun name hname => ?_⟩
    subst hname
    refine List.mem_filter.mpr ⟨hmem name rfl, ?_⟩
    have hq' : q = entryOf a name := by
      rcases h.plain q hthere with rfl | hplain
      · cases hends.nameOf?_eq
      · exact hplain.eq_entryOf ha hends.nameOf?_eq
    cases hlists : listsAs p a name with
    | false => simp
    | true => exact absurd (hq'.trans (hp.eq_of_listsAs hlists).symm) hne
  genuine := h.genuine.discard p
  once := Listings.discard h.once (fun _ _ hnames => hnames.filter _) p

theorem perform {op : Operation} (h : Orderly t) (hop : ∀ path ∈ op.paths, Plain path.components)
    (hfits : Fits t (op.perform t).2) : Orderly (op.perform t).2 := by
  have hends := op.ends t
  generalize (op.perform t).1 = r at hends
  generalize (op.perform t).2 = t' at hends hfits ⊢
  cases hends with
  | failed => exact h
  | put _ puts => exact h.addFile (hop _ (Operation.mem_paths_of_puts? puts)) hfits
  | made _ makes => exact h.addDirectory (hop _ (Operation.mem_paths_of_makes? makes)) hfits
  | taken possible => exact h.discard (hop _ List.mem_cons_self) possible

theorem performAll {ops : List Operation} (h : Orderly t)
    (hops : ∀ op ∈ ops, ∀ path ∈ op.paths, Plain path.components) (hfree : ConflictFree ops t) :
    Orderly (performAll ops t) := by
  induction ops generalizing t with
  | nil => exact h
  | cons op ops ih =>
    obtain ⟨hfits, hfree⟩ := hfree
    exact ih (h.perform (hops op List.mem_cons_self) hfits)
      (fun op' hop' => hops op' (List.mem_cons_of_mem _ hop')) hfree

end Orderly

end FirmwareMatrix.Tree
