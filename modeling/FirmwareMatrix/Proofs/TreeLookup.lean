import FirmwareMatrix.Tree

/-! # What tree operations leave at a place

Making directories and listing names never touches a file, so after each operation the files are
those of before but for the one place that the operation is about. Nothing changes at or below a
directory that the place does not lie in. -/

namespace FirmwareMatrix.Tree

/-! ## Single entries -/

@[simp] theorem lookup_erase (t : Tree) (p q : List Component) :
    (t.erase p).lookup q = if q = p then none else t.lookup q := by
  obtain ⟨entries⟩ := t
  simp only [lookup, erase]
  induction entries with
  | nil => simp
  | cons e es ih =>
    obtain ⟨k, n⟩ := e
    by_cases hk : k = p
    · by_cases hq : q = p
      · simpa [hk, hq] using ih
      · simpa [hk, hq, List.lookup_cons, beq_eq_false_iff_ne.mpr hq] using ih
    · by_cases hq : q = k
      · simp [hq, hk]
      · simp [hk, List.lookup_cons, beq_eq_false_iff_ne.mpr hq, ih]

@[simp] theorem lookup_insert (t : Tree) (p q : List Component) (n : Node) :
    (t.insert p n).lookup q = if q = p then some n else t.lookup q := by
  have he := lookup_erase t p q
  by_cases hq : q = p
  · simp [insert, lookup, hq]
  · simp only [lookup, hq, if_false] at he ⊢
    simp [insert, List.lookup_cons, beq_eq_false_iff_ne.mpr hq, he]

theorem file?_congr {t t' : Tree} {q : List Component} (h : t'.lookup q = t.lookup q) :
    t'.file? q = t.file? q := by
  simp only [file?, h]

theorem file?_insert (t : Tree) (p q : List Component) (bytes : List UInt8) :
    (t.insert p (.file bytes)).file? q = if q = p then some bytes else t.file? q := by
  by_cases hq : q = p <;> simp [file?, hq]

theorem file?_erase (t : Tree) (p q : List Component) :
    (t.erase p).file? q = if q = p then none else t.file? q := by
  by_cases hq : q = p <;> simp [file?, hq]

/-- Directories take the place of no file. -/
theorem file?_insert_directory {t : Tree} {p : List Component} (h : t.file? p = none)
    (names : List String) (q : List Component) :
    (t.insert p (.directory names)).file? q = t.file? q := by
  by_cases hq : q = p
  · subst hq
    rw [h]
    simp [file?]
  · simp [file?, hq]

theorem file?_eq_none_of_directory {t : Tree} {p : List Component} {names : List String}
    (h : t.lookup p = some (.directory names)) : t.file? p = none := by
  simp [file?, h]

theorem file?_eq_none_of_not_contains {t : Tree} {p : List Component}
    (h : t.contains p = false) : t.file? p = none := by
  simp only [contains, Option.isSome_eq_false_iff, Option.isNone_iff_eq_none] at h
  simp [file?, h]

/-! ## Listings -/

theorem link_eq (t : Tree) (p : List Component) :
    t.link p = t ∨ ∃ a names names', above? p = some a ∧ t.lookup a = some (.directory names) ∧
      t.link p = t.insert a (.directory names') := by
  unfold link
  split
  · next a name ha _ =>
    split
    · next names hd =>
      split
      · exact .inl rfl
      · exact .inr ⟨a, names, names ++ [name], ha, hd, rfl⟩
    · exact .inl rfl
  · exact .inl rfl

theorem unlink_eq (t : Tree) (p : List Component) :
    t.unlink p = t ∨ ∃ names names', t.lookup ((above? p).getD [.here]) = some (.directory names) ∧
      t.unlink p = t.insert ((above? p).getD [.here]) (.directory names') := by
  unfold unlink
  split
  · next name _ =>
    dsimp only
    split
    · next names hd => exact .inr ⟨names, names.filter (· != name), hd, rfl⟩
    · exact .inl rfl
  · exact .inl rfl

@[simp] theorem file?_link (t : Tree) (p q : List Component) :
    (t.link p).file? q = t.file? q := by
  rcases link_eq t p with h | ⟨a, names, names', -, hd, h⟩
  · rw [h]
  · rw [h, file?_insert_directory (file?_eq_none_of_directory hd)]

@[simp] theorem file?_unlink (t : Tree) (p q : List Component) :
    (t.unlink p).file? q = t.file? q := by
  rcases unlink_eq t p with h | ⟨names, names', hd, h⟩
  · rw [h]
  · rw [h, file?_insert_directory (file?_eq_none_of_directory hd)]

/-! ## Whole operations -/

theorem mem_lineage {p q : List Component} (h : q ∈ lineage p) : q <+: p ∨ q = [.here] := by
  have own : q ∈ (List.range p.length).map (fun i => p.take (p.length - i)) → q <+: p := by
    intro hq
    obtain ⟨i, -, rfl⟩ := List.mem_map.mp hq
    exact List.take_prefix _ _
  unfold lineage at h
  dsimp only at h
  split at h
  · exact .inl (by simpa using h)
  · exact .inl (own h)
  · exact .inl (own h)
  · rcases List.mem_append.mp h with h | h
    · exact .inl (own h)
    · exact .inr (by simpa using h)

@[simp] theorem file?_addDirectory (t : Tree) (p q : List Component) :
    (t.addDirectory p).file? q = t.file? q := by
  have free : ∀ r ∈ (lineage p).takeWhile (fun r => !t.contains r), t.file? r = none := by
    intro r hr
    have hc := (List.all_eq_true.mp List.all_takeWhile) r hr
    exact file?_eq_none_of_not_contains (by simpa using hc)
  unfold addDirectory
  generalize (lineage p).takeWhile (fun r => !t.contains r) = places at free ⊢
  induction places generalizing q with
  | nil => rfl
  | cons r rs ih =>
    have ih := fun q => ih q fun r hr => free r (List.mem_cons_of_mem _ hr)
    have hr := free r List.mem_cons_self
    simp only [List.foldr_cons, file?_link]
    rw [file?_insert_directory (by rw [ih, hr]), ih]

@[simp] theorem file?_addFile (t : Tree) (p q : List Component) (bytes : List UInt8) :
    (t.addFile p bytes).file? q = if q = p then some bytes else t.file? q := by
  unfold addFile
  cases above? p with
  | none => exact file?_insert t p q bytes
  | some a => simp only [file?_link, file?_addDirectory, file?_insert]

/-- Takes the file at a place away, if there is one. -/
def discard (t : Tree) (p : List Component) : Tree :=
  if (t.file? p).isSome then (t.erase p).unlink p else t

@[simp] theorem file?_discard (t : Tree) (p q : List Component) :
    (t.discard p).file? q = if q = p then none else t.file? q := by
  unfold discard
  split
  · simp only [file?_unlink, file?_erase]
  · next h =>
    split
    · next hq => subst hq; simpa using h
    · rfl

/-! ## Presence

What is there stays where a tree only grows. -/

@[simp] theorem contains_insert (t : Tree) (p q : List Component) (n : Node) :
    (t.insert p n).contains q = (decide (q = p) || t.contains q) := by
  by_cases hq : q = p <;> simp [contains, hq]

theorem contains_of_lookup {t : Tree} {p : List Component} {n : Node} (h : t.lookup p = some n) :
    t.contains p = true := by
  simp [contains, h]

/-- A new listing of a directory adds no place. -/
theorem contains_insert_of_lookup {t : Tree} {p : List Component} {n : Node}
    (h : t.lookup p = some n) (n' : Node) (q : List Component) :
    (t.insert p n').contains q = t.contains q := by
  rw [contains_insert]
  by_cases hq : q = p
  · subst hq
    simp [contains_of_lookup h]
  · simp [hq]

@[simp] theorem contains_link (t : Tree) (p q : List Component) :
    (t.link p).contains q = t.contains q := by
  rcases link_eq t p with h | ⟨a, names, names', -, hd, h⟩
  · rw [h]
  · rw [h, contains_insert_of_lookup hd]

theorem contains_addDirectory {t : Tree} {q : List Component} (p : List Component)
    (h : t.contains q = true) : (t.addDirectory p).contains q = true := by
  unfold addDirectory
  induction (lineage p).takeWhile fun r => !t.contains r with
  | nil => exact h
  | cons r rs ih => simp [ih]

theorem contains_addFile {t : Tree} {q : List Component} (p : List Component)
    (bytes : List UInt8) (h : q = p ∨ t.contains q = true) :
    (t.addFile p bytes).contains q = true := by
  have hput : (t.insert p (.file bytes)).contains q = true := by simpa using h
  unfold addFile
  cases above? p with
  | none => exact hput
  | some a =>
    rw [contains_link]
    exact contains_addDirectory a hput

/-! ## At and below a directory -/

/-- Trees that have the same entries at a place and below it. -/
def AgreeBelow (out : List Component) (t t' : Tree) : Prop :=
  ∀ q, out <+: q → t'.lookup q = t.lookup q

/-- A place other than the one that everything lies below. -/
def Proper (out : List Component) : Prop := out ≠ [] ∧ out ≠ [.here]

variable {out p : List Component} {t t' t'' : Tree}

theorem AgreeBelow.refl (out : List Component) (t : Tree) : AgreeBelow out t t := fun _ _ => rfl

theorem AgreeBelow.trans (h : AgreeBelow out t t') (h' : AgreeBelow out t' t'') :
    AgreeBelow out t t'' := fun q hq => (h' q hq).trans (h q hq)

theorem AgreeBelow.file? (h : AgreeBelow out t t') {q : List Component} (hq : out <+: q) :
    t'.file? q = t.file? q := file?_congr (h q hq)

theorem agreeBelow_insert (h : ¬ out <+: p) (n : Node) : AgreeBelow out t (t.insert p n) := by
  intro q hq
  have hne : q ≠ p := by rintro rfl; exact h hq
  simp [hne]

theorem agreeBelow_erase (h : ¬ out <+: p) : AgreeBelow out t (t.erase p) := by
  intro q hq
  have hne : q ≠ p := by rintro rfl; exact h hq
  simp [hne]

theorem Proper.not_prefix_here (hout : Proper out) : ¬ out <+: [.here] := by
  obtain ⟨hnil, hhere⟩ := hout
  cases out with
  | nil => exact absurd rfl hnil
  | cons c cs =>
    intro h
    obtain ⟨rfl, hcs⟩ := List.cons_prefix_cons.mp h
    exact hhere (congrArg _ (List.prefix_nil.mp hcs))

theorem above?_prefix {a : List Component} (ha : above? p = some a) : a <+: p ∨ a = [.here] := by
  unfold above? at ha
  split at ha
  · cases ha
  · cases ha
  · exact .inr (Option.some.inj ha).symm
  · exact .inl (Option.some.inj ha ▸ List.dropLast_prefix _)

theorem prefix_above {a q : List Component} (ha : above? p = some a)
    (hq : q <+: a ∨ q = [.here]) : q <+: p ∨ q = [.here] := by
  rcases hq with hq | rfl
  · rcases above?_prefix ha with hpre | rfl
    · exact .inl (hq.trans hpre)
    · cases q with
      | nil => exact .inl List.nil_prefix
      | cons c cs =>
        obtain ⟨rfl, hcs⟩ := List.cons_prefix_cons.mp hq
        exact .inr (congrArg _ (List.prefix_nil.mp hcs))
  · exact .inr rfl

theorem Proper.not_prefix_above (hout : Proper out) (h : ¬ out <+: p) {a : List Component}
    (ha : above? p = some a) : ¬ out <+: a := by
  rcases above?_prefix ha with hpre | rfl
  · exact fun hout => h (hout.trans hpre)
  · exact hout.not_prefix_here

theorem agreeBelow_link (hout : Proper out) (h : ¬ out <+: p) : AgreeBelow out t (t.link p) := by
  rcases link_eq t p with he | ⟨a, names, names', ha, -, he⟩
  · rw [he]; exact .refl out t
  · rw [he]; exact agreeBelow_insert (hout.not_prefix_above h ha) _

theorem agreeBelow_unlink (hout : Proper out) (h : ¬ out <+: p) :
    AgreeBelow out t (t.unlink p) := by
  rcases unlink_eq t p with he | ⟨names, names', -, he⟩
  · rw [he]; exact .refl out t
  · rw [he]
    apply agreeBelow_insert
    cases ha : above? p with
    | none => exact hout.not_prefix_here
    | some a => exact hout.not_prefix_above h ha

theorem agreeBelow_addDirectory (hout : Proper out) (h : ¬ out <+: p) :
    AgreeBelow out t (t.addDirectory p) := by
  have away : ∀ r ∈ (lineage p).takeWhile (fun r => !t.contains r), ¬ out <+: r := by
    intro r hr hpre
    rcases mem_lineage (List.takeWhile_subset _ hr) with hrp | rfl
    · exact h (hpre.trans hrp)
    · exact hout.not_prefix_here hpre
  unfold addDirectory
  generalize (lineage p).takeWhile (fun r => !t.contains r) = places at away ⊢
  induction places with
  | nil => exact .refl out t
  | cons r rs ih =>
    have hr := away r List.mem_cons_self
    have ih := ih fun r hr => away r (List.mem_cons_of_mem _ hr)
    exact (ih.trans (agreeBelow_insert hr _)).trans (agreeBelow_link hout hr)

theorem agreeBelow_addFile (hout : Proper out) (h : ¬ out <+: p) (bytes : List UInt8) :
    AgreeBelow out t (t.addFile p bytes) := by
  unfold addFile
  cases ha : above? p with
  | none => exact agreeBelow_insert h _
  | some a =>
    exact ((agreeBelow_insert h _).trans
      (agreeBelow_addDirectory hout (hout.not_prefix_above h ha))).trans (agreeBelow_link hout h)

theorem agreeBelow_discard (hout : Proper out) (h : ¬ out <+: p) :
    AgreeBelow out t (t.discard p) := by
  unfold discard
  split
  · exact (agreeBelow_erase h).trans (agreeBelow_unlink hout h)
  · exact .refl out t

end FirmwareMatrix.Tree
