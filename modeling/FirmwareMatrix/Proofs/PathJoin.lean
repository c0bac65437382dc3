import FirmwareMatrix.Artifact
import FirmwareMatrix.Board
import FirmwareMatrix.Proofs.PathScript

/-! # Components of joined paths

A path put below another adds its own steps to the components of the other, whatever separators
stand between the two. Names among the components are no dots and hold no separator, and neither do
the texts that they are shown as. Two directories of which neither lies in the other stay apart
however far one goes down from the first. -/

namespace FirmwareMatrix.Path

/-- A text that is one step of a path and leads neither up nor nowhere. -/
def IsName (d : String) : Prop := d ≠ "" ∧ d ≠ "." ∧ d ≠ ".." ∧ '/' ∉ d.toList

instance (d : String) : Decidable (IsName d) := inferInstanceAs (Decidable (_ ∧ _))

/-- A path that only leads down, step by step, from where it is taken. -/
def IsPlain (p : Path) : Prop := ∀ c ∈ p.components, c.isName = true

instance (p : Path) : Decidable p.IsPlain :=
  inferInstanceAs (Decidable (∀ c ∈ p.components, _))

/-- Two directories of which neither lies in the other. -/
def Apart (p q : Path) : Prop :=
  ¬ p.components <+: q.components ∧ ¬ q.components <+: p.components

instance (p q : Path) : Decidable (Apart p q) := inferInstanceAs (Decidable (_ ∧ _))

/-! ## Joining -/

theorem components_of_isEmpty {p : Path} (h : p.isEmpty = true) : p.components = [] := by
  rw [components_eq, isEmpty_iff.mp h]
  rfl

theorem isEmpty_of_components {p : Path} (h : p.components ≠ []) : p.isEmpty = false := by
  cases hp : p.isEmpty with
  | true => exact absurd (components_of_isEmpty hp) h
  | false => rfl

theorem bytes_ne_nil {p : Path} (h : p.isEmpty = false) : p.bytes ≠ [] :=
  fun hnil => Bool.false_ne_true (h.symm.trans (isEmpty_iff.mpr hnil))

/-- A relative path adds its steps. -/
theorem components_join {p q : Path} (hp : p.isEmpty = false) (hq : q.isAbsolute = false) :
    (p.join q).components = p.components ++ q.steps := by
  rw [components_eq, bytes_join hq, Script.components_join (bytes_ne_nil hp), ← components_eq,
    ← steps_eq]

theorem components_of_isAbsolute {q : Path} (hq : q.isAbsolute = true) :
    ∃ rest, q.components = .root :: rest := by
  rw [isAbsolute_eq] at hq
  rw [components_eq]
  exact Script.components_of_isAbsolute hq

/-- What a relative path adds below `p`; below an empty path it stands as it is. -/
def route (p q : Path) : List Component := if p.isEmpty then q.components else q.steps

theorem components_join_eq {p q : Path} (hq : q.isAbsolute = false) :
    (p.join q).components = p.components ++ p.route q := by
  unfold route
  split
  · next hp =>
    have hjoin : octets.join [] q.bytes = q.bytes := rfl
    rw [components_of_isEmpty hp, List.nil_append, components_eq, bytes_join hq,
      isEmpty_iff.mp hp, hjoin, components_eq]
  · next hp => exact components_join (by simpa using hp) hq

theorem mem_components_of_mem_steps {q : Path} {c : Component} (h : c ∈ q.steps) :
    c ∈ q.components := by
  rw [steps_eq] at h
  rw [components_eq]
  exact Script.mem_components_of_mem_steps h

theorem mem_components_of_mem_route {p q : Path} {c : Component} (h : c ∈ p.route q) :
    c ∈ q.components := by
  unfold route at h
  split at h
  · exact h
  · exact mem_components_of_mem_steps h

/-! ## Names -/

theorem IsName.inner_eq {d : String} (h : IsName d) :
    letters.inner d.toList = some (.name d) := by
  obtain ⟨h0, h1, h2, -⟩ := h
  have hne (u : String) (hu : d ≠ u) : d.toList ≠ u.toList := fun he => hu (String.toList_inj.mp he)
  have hdot : ¬ (d.toList = [] ∨ d.toList = [letters.dot]) := not_or.mpr ⟨hne "" h0, hne "." h1⟩
  have hdots : d.toList ≠ [letters.dot, letters.dot] := hne ".." h2
  rw [Script.inner, if_neg hdot, if_neg hdots]
  exact congrArg (fun text => some (Component.name text)) String.ofList_toList

theorem IsName.splitAt_eq {d : String} (h : IsName d) :
    Text.splitAt letters.separator d.toList = [d.toList] := Text.splitAt_of_not_mem h.2.2.2

theorem IsName.steps_eq {d : String} (h : IsName d) : steps ⟨d⟩ = [.name d] := by
  show (Text.splitAt letters.separator d.toList).filterMap letters.inner = _
  simp [h.splitAt_eq, h.inner_eq]

theorem isAbsolute_of_not_mem {d : String} (h : '/' ∉ d.toList) :
    (Path.mk d).isAbsolute = false := by
  show (d.toList.head? == some '/') = false
  cases hd : d.toList with
  | nil => rfl
  | cons c cs =>
    have hne : c ≠ '/' := fun hc => h (by rw [hd, hc]; exact List.mem_cons_self)
    simpa using hne

theorem IsName.isAbsolute_eq {d : String} (h : IsName d) : (Path.mk d).isAbsolute = false :=
  isAbsolute_of_not_mem h.2.2.2

theorem IsName.components_eq {d : String} (h : IsName d) : components ⟨d⟩ = [.name d] := by
  have hdot : d.toList ≠ [letters.dot] := fun he => h.2.1 (String.toList_inj.mp he)
  have hfirst : letters.first d.toList = some (.name d) :=
    (Script.first_of_ne_dot hdot).trans h.inner_eq
  show letters.components d.toList = _
  rw [Script.components, h.splitAt_eq]
  cases hd : d.toList with
  | nil => exact absurd (String.toList_inj.mp hd) h.1
  | cons c cs => simpa [hd] using hfirst

theorem IsName.route_eq {p : Path} {d : String} (h : IsName d) : p.route ⟨d⟩ = [.name d] := by
  unfold route
  split
  · exact h.components_eq
  · exact h.steps_eq

/-- A named child is one step further down. -/
theorem components_child {p : Path} {d : String} (h : IsName d) :
    (p.child d).components = p.components ++ [.name d] := by
  rw [child, components_join_eq h.isAbsolute_eq, h.route_eq]

/-- Names lead straight down. -/
theorem components_foldl_child {root : Path} {names : List String} (h : ∀ d ∈ names, IsName d) :
    (names.foldl child root).components = root.components ++ names.map .name := by
  induction names generalizing root with
  | nil => simp
  | cons d names ih =>
    rw [List.foldl_cons, ih fun d hd => h d (List.mem_cons_of_mem _ hd),
      components_child (h d List.mem_cons_self)]
    simp

/-- What lies below a path is seen from there by the names that lead to it. -/
theorem relativeTo_of_components {root p : Path} {names : List String}
    (h : p.components = root.components ++ names.map .name) :
    root.relativeTo p = some ⟨String.intercalate "/" names⟩ := by
  have hprefix : root.components.isPrefixOf p.components = true := by
    rw [h, List.isPrefixOf_iff_prefix]
    exact List.prefix_append _ _
  have hnames : (names.map Component.name).map Component.native = names.map NativeText.text :=
    List.map_map ..
  rw [relativeTo, if_pos hprefix, h, List.drop_left, hnames, NativeText.intercalate_texts]
  rfl

/-- A name among the components is what a piece without separators stands for. -/
theorem eq_ofBytes_of_mem_components {p : Path} {c : Component} (h : c ∈ p.components)
    (hname : c.isName = true) : ∃ piece, 0x2f ∉ piece ∧ c = .ofBytes piece ∧
      piece ≠ [] ∧ piece ≠ [0x2e] ∧ piece ≠ [0x2e, 0x2e] := by
  rw [components_eq] at h
  rcases Script.eq_of_mem_components h with rfl | rfl | ⟨piece, hpiece, hinner⟩
  · cases hname
  · cases hname
  · refine ⟨piece, Text.not_mem_of_mem_splitAt hpiece, ?_⟩
    unfold Script.inner at hinner
    split at hinner
    · cases hinner
    split at hinner
    · obtain rfl := Option.some.inj hinner
      cases hname
    · next hdot hdots =>
      obtain ⟨hnil, hdot⟩ := not_or.mp hdot
      exact ⟨(Option.some.inj hinner).symm, hnil, hdot, hdots⟩

/-- Names are shown as names. -/
theorem isName_lossy {p : Path} {c : Component} (h : c ∈ p.components) (hname : c.isName = true) :
    IsName c.native.lossy := by
  obtain ⟨piece, hsep, rfl, hnil, hdot, hdots⟩ := eq_ofBytes_of_mem_components h hname
  rw [Component.native_ofBytes]
  have hbytes := NativeText.bytes_ofBytes piece
  have hne (u : String) (hu : '\uFFFD' ∉ u.toList) (hpiece : piece ≠ Text.Utf8.encode u.toList) :
      (NativeText.ofBytes piece).lossy ≠ u :=
    fun h => hpiece (hbytes.symm.trans (NativeText.bytes_eq_of_lossy h hu))
  refine ⟨hne "" (by decide) hnil, hne "." (by decide) hdot, hne ".." (by decide) hdots,
    fun hslash => hsep ?_⟩
  rw [← hbytes]
  exact NativeText.mem_bytes_of_mem_lossy (d := '/') (by decide) hslash

theorem isName_of_mem_components {p : Path} {d : String} (h : .name d ∈ p.components) :
    IsName d := isName_lossy h rfl

theorem fileName_eq_some_iff {p : Path} {d : String} :
    p.fileName = some d ↔
      ∃ c, p.components.getLast? = some c ∧ c.isName = true ∧ c.native.lossy = d := by
  rw [fileName, Option.map_eq_some_iff]
  simp only [Option.filter_eq_some_iff, and_assoc]

theorem isName_of_fileName {p : Path} {d : String} (h : p.fileName = some d) : IsName d := by
  obtain ⟨c, hlast, hname, rfl⟩ := fileName_eq_some_iff.mp h
  exact isName_lossy (List.mem_of_getLast? hlast) hname

/-! ## Directories that lie apart -/

theorem Apart.components_ne_nil {p q : Path} (h : Apart p q) : p.components ≠ [] := by
  intro he
  exact h.1 (he ▸ List.nil_prefix)

theorem Apart.symm {p q : Path} (h : Apart p q) : Apart q p := ⟨h.2, h.1⟩

/-- Nothing that is reached from `p` lies in `q`. -/
theorem Apart.not_prefix_join {p q : Path} (h : Apart p q) (hq : q.IsPlain) (r : Path) :
    ¬ q.components <+: (p.join r).components := by
  intro hpre
  cases hr : r.isAbsolute with
  | false =>
    rw [components_join (isEmpty_of_components h.components_ne_nil) hr] at hpre
    rcases List.prefix_or_prefix_of_prefix hpre (List.prefix_append _ _) with hqp | hpq
    · exact h.2 hqp
    · exact h.1 hpq
  | true =>
    obtain ⟨rest, hrest⟩ := components_of_isAbsolute hr
    rw [join, if_pos hr, hrest] at hpre
    cases hc : q.components with
    | nil => exact h.symm.components_ne_nil hc
    | cons c cs =>
      rw [hc] at hpre
      have hroot : c = .root := (List.cons_prefix_cons.mp hpre).1
      have hname := hq c (by simp [hc])
      simp [hroot, Component.isName] at hname

end FirmwareMatrix.Path

namespace FirmwareMatrix

theorem Board.isName_directoryName {b : Board} (h : b.name ≠ "") :
    Path.IsName b.directoryName := by
  unfold Board.directoryName
  split
  · next hd => rcases hd with hd | hd <;> rw [hd] <;> decide
  · next hd =>
    obtain ⟨h1, h2⟩ := not_or.mp hd
    -- no separator is left, and what is mapped has the length and the dots of the name
    have hdots (u : List Char) (hu : '_' ∉ u) (hn : b.name.toList ≠ u) :
        b.name.toList.map (fun c => if c = '/' ∨ c = '\\' then '_' else c) ≠ u := by
      intro he
      apply hn
      rw [← he]
      refine (List.map_id b.name.toList).symm.trans (List.map_congr_left fun c hc => ?_)
      by_cases hs : c = '/' ∨ c = '\\'
      · exact absurd (he ▸ List.mem_map.mpr ⟨c, hc, by simp [hs]⟩) hu
      · simp [hs]
    have key (u : String) (hu : '_' ∉ u.toList) (hn : b.name ≠ u) :
        String.ofList (b.name.toList.map fun c => if c = '/' ∨ c = '\\' then '_' else c) ≠ u := by
      intro he
      refine hdots u.toList hu (fun e => hn (String.toList_inj.mp e)) ?_
      simpa using congrArg String.toList he
    refine ⟨key "" (by decide) h, key "." (by decide) h1, key ".." (by decide) h2, ?_⟩
    simp only [String.toList_ofList, List.mem_map, not_exists, not_and]
    intro c _ hc
    split at hc
    · cases hc
    · next hs => exact hs (.inl hc)

/-- Outputs are delivered under plain file names. -/
theorem ArtifactPaths.isName_deliveredAs (paths : ArtifactPaths) :
    ∀ a ∈ paths.artifacts.toList, Path.IsName a.deliveredAs := by
  intro a ha
  simp only [ArtifactSet.toList, artifacts, List.mem_cons, List.not_mem_nil, or_false] at ha
  rcases ha with rfl | rfl | rfl
  · cases hf : paths.image.fileName with
    | none => exact (by decide : Path.IsName "app.bin")
    | some d => exact Path.isName_of_fileName hf
  · exact (by decide : Path.IsName "bootloader.bin")
  · exact (by decide : Path.IsName "partition_table.bin")

end FirmwareMatrix
