import FirmwareMatrix.Proofs.Confinement

/-! # Where accepted outputs lie

A path that is accepted for an output leads from the build directory down by names, which may stand
behind a single dot, so it cannot leave that directory. One thing is missed: a path that is nothing
but the dot. It has no name to lead to, so that it stays at the build directory itself, and its copy
gets a name that nobody gave. -/

namespace FirmwareMatrix

/-! ## Steps that lead down -/

namespace Path

/-- The dot alone, in any spelling: the directory that the path is taken from. -/
def IsHere (p : Path) : Prop := p.components = [.here]

instance (p : Path) : Decidable p.IsHere := inferInstanceAs (Decidable (_ = _))

namespace Script

variable {α : Type} [DecidableEq α] {s : Script α} {xs : List α}

/-- Whatever is not empty has a component. -/
theorem components_ne_nil (h : xs ≠ []) : s.components xs ≠ [] := by
  unfold components
  split
  · next heq => exact absurd heq (Text.splitAt_ne_nil s.separator xs)
  · next heq => exact absurd (Text.splitAt_eq_nil_cons heq) h
  · exact List.cons_ne_nil _ _
  · next first rest _ hne heq =>
    have hfirst : s.first first ≠ none := by
      unfold Script.first inner
      split_ifs <;> simp_all
    obtain ⟨c, hc⟩ := Option.ne_none_iff_exists'.mp hfirst
    simp [hc]

/-- What does not start at the root is its steps, behind a dot or not. -/
theorem components_eq_steps (h : .root ∉ s.components xs) :
    s.components xs = s.steps xs ∨ s.components xs = .here :: s.steps xs := by
  unfold components at h ⊢
  unfold steps
  split
  · next heq => exact absurd heq (Text.splitAt_ne_nil s.separator xs)
  · next heq => exact .inl (by simp [heq])
  · next heq => simp [heq] at h
  · next first rest _ _ heq =>
    rw [heq, List.filterMap_cons]
    by_cases hdot : first = [s.dot]
    · exact .inr (by simp [Script.first, inner, hdot])
    · rw [first_of_ne_dot hdot]
      exact .inl (by cases s.inner first <;> rfl)

end Script

variable {p : Path}

theorem components_ne_nil (h : p.isEmpty = false) : p.components ≠ [] := by
  rw [components_eq]
  exact Script.components_ne_nil (bytes_ne_nil h)

theorem IsInner.isName_of_mem_steps (h : p.IsInner) {c : Component} (hc : c ∈ p.steps) :
    c.isName = true := by
  have hup : c ≠ .up := fun hc' => h.2 (mem_components_of_mem_steps (hc' ▸ hc))
  rw [steps_eq] at hc
  obtain ⟨piece, -, hpiece⟩ := List.mem_filterMap.mp hc
  exact (Script.inner_eq_some hpiece).resolve_left hup

/-- Such a path is its steps, behind a dot or not. -/
theorem IsInner.components_eq (h : p.IsInner) :
    p.components = p.steps ∨ p.components = .here :: p.steps := by
  rw [Path.components_eq, steps_eq]
  exact Script.components_eq_steps (Path.components_eq p ▸ h.1)

/-- It leads somewhere unless it is the dot alone. -/
theorem IsInner.steps_ne_nil_iff (h : p.IsInner) (ht : p.isEmpty = false) :
    p.steps ≠ [] ↔ ¬ p.IsHere := by
  have hne := components_ne_nil ht
  unfold IsHere
  rcases h.components_eq with heq | heq
  · rw [heq] at hne ⊢
    refine ⟨fun _ hhere => ?_, fun _ => hne⟩
    cases h.isName_of_mem_steps (hhere ▸ List.mem_singleton_self Component.here)
  · rw [heq]
    simp

/-- What such a path adds to a directory holds its steps, and nothing more that leads anywhere. -/
theorem IsInner.mem_route_iff (h : p.IsInner) (dir : Path) {c : Component}
    (hname : c.isName = true) : c ∈ dir.route p ↔ c ∈ p.steps := by
  have hhere : c ≠ .here := by
    rintro rfl
    cases hname
  unfold route
  split
  · rcases h.components_eq with heq | heq <;> simp [heq, hhere]
  · rfl

theorem IsInner.exists_isName_iff (h : p.IsInner) (ht : p.isEmpty = false) (dir : Path) :
    (∃ c ∈ dir.route p, c.isName = true) ↔ ¬ p.IsHere := by
  rw [← h.steps_ne_nil_iff ht]
  constructor
  · rintro ⟨c, hc, hname⟩
    exact List.ne_nil_of_mem ((h.mem_route_iff dir hname).mp hc)
  · intro hsteps
    obtain ⟨c, hc⟩ := List.exists_mem_of_ne_nil _ hsteps
    have hname := h.isName_of_mem_steps hc
    exact ⟨c, (h.mem_route_iff dir hname).mpr hc, hname⟩

/-- A path that leads somewhere ends in a name. -/
theorem IsInner.getLast?_components (h : p.IsInner) (ht : p.isEmpty = false)
    (hhere : ¬ p.IsHere) : ∃ c, p.components.getLast? = some c ∧ c.isName = true := by
  have hsteps := (h.steps_ne_nil_iff ht).mpr hhere
  refine ⟨_, ?_, h.isName_of_mem_steps (List.getLast_mem hsteps)⟩
  rcases h.components_eq with heq | heq
  · rw [heq, List.getLast?_eq_some_getLast hsteps]
  · rw [heq, List.getLast?_cons_of_ne_nil hsteps, List.getLast?_eq_some_getLast hsteps]

theorem IsHere.fileName_eq (h : p.IsHere) : p.fileName = none := by
  rw [fileName, h]
  rfl

theorem IsInner.fileName_ne_none_iff (h : p.IsInner) (ht : p.isEmpty = false) :
    p.fileName ≠ none ↔ ¬ p.IsHere := by
  constructor
  · exact fun hname hhere => hname hhere.fileName_eq
  · intro hhere
    obtain ⟨c, hlast, hname⟩ := h.getLast?_components ht hhere
    rw [fileName_eq_some_iff.mpr ⟨c, hlast, hname, rfl⟩]
    exact Option.some_ne_none _

end Path

/-! ## Outputs of accepted settings -/

namespace Settings

/-- Below whatever build directory, an accepted output is reached by steps of which none leads up or
starts anew. They lead to a name, and the output has a file name, exactly if its path is not the dot
alone. The image is delivered under its last name, or as `app.bin` if it has none. -/
theorem accepted_outputs_inside {raw s : Settings} (hvalid : raw.validate = .ok s) (dir : Path) :
    (∀ a ∈ s.artifacts.artifacts.toList,
      (∃ added, (dir.join a.source).components = dir.components ++ added ∧
        .up ∉ added ∧ .root ∉ added ∧
          ((∃ c ∈ added, c.isName = true) ↔ ¬ a.source.IsHere)) ∧
      (a.source.fileName ≠ none ↔ ¬ a.source.IsHere)) ∧
    let image := s.artifacts.artifacts.image
    (image.source.IsHere → image.deliveredAs = "app.bin") ∧
      (¬ image.source.IsHere → ∃ last, image.source.components.getLast? = some last ∧
        last.isName = true ∧ image.deliveredAs = last.native.lossy) := by
  have hchecked : ∀ a ∈ s.artifacts.artifacts.toList,
      a.source.isEmpty = false ∧ a.source.IsInner := by
    intro a ha
    obtain ⟨rfl, hcheck⟩ := validate_ok_iff.mp hvalid
    obtain ⟨key, hkey⟩ := (check_ok hcheck).2 a ha
    exact checkArtifact_ok_iff.mp hkey
  refine ⟨fun a ha => ?_, ?_, ?_⟩
  · obtain ⟨ht, hinner⟩ := hchecked a ha
    refine ⟨⟨dir.route a.source, Path.components_join_eq hinner.isAbsolute_eq, ?_, ?_,
      hinner.exists_isName_iff ht dir⟩, hinner.fileName_ne_none_iff ht⟩
    · exact fun hc => hinner.2 (Path.mem_components_of_mem_route hc)
    · exact fun hc => hinner.1 (Path.mem_components_of_mem_route hc)
  · intro hhere
    have hname : s.artifacts.image.fileName = none := hhere.fileName_eq
    simp [ArtifactPaths.artifacts, hname]
  · intro hhere
    obtain ⟨ht, hinner⟩ := hchecked _ List.mem_cons_self
    obtain ⟨last, hlast, hname⟩ := hinner.getLast?_components ht hhere
    have hfile : s.artifacts.image.fileName = some last.native.lossy :=
      Path.fileName_eq_some_iff.mpr ⟨last, hlast, hname, rfl⟩
    exact ⟨last, hlast, hname, by simp [ArtifactPaths.artifacts, hfile]⟩

/-- Settings that spell the path of the image with a dot and with more separators than it needs. -/
def looselySpelled : Settings :=
  { default with artifacts := { ArtifactPaths.default with image := ⟨"./app//fw.bin/"⟩ } }

/-- Their image lies two names below the build directory and is delivered under the second. -/
theorem looselySpelled_outputs_inside :
    let image := looselySpelled.artifacts.artifacts.image
    looselySpelled.validate = .ok looselySpelled ∧ ¬ image.source.IsHere ∧
      (∃ added, ((Path.mk "build").join image.source).components =
          (Path.mk "build").components ++ added ∧
        .up ∉ added ∧ .root ∉ added ∧ ∃ c ∈ added, c.isName = true) ∧
      image.source.fileName ≠ none ∧ image.deliveredAs = "fw.bin" := by
  have hhere : ¬ looselySpelled.artifacts.artifacts.image.source.IsHere := by decide +kernel
  have hvalid : looselySpelled.validate = .ok looselySpelled := rfl
  obtain ⟨houtputs, -⟩ := accepted_outputs_inside hvalid ⟨"build"⟩
  obtain ⟨⟨added, hadded, hup, hroot, hname⟩, hfile⟩ := houtputs _ List.mem_cons_self
  exact ⟨hvalid, hhere, ⟨added, hadded, hup, hroot, hname.mpr hhere⟩, hfile.mpr hhere,
    by decide +kernel⟩

/-- Settings whose image is the build directory itself. -/
def dotNamed : Settings :=
  { default with artifacts := { ArtifactPaths.default with image := ⟨"."⟩ } }

/-- They are accepted, but from the build directory their image leads to no name, so that its copy
is called `app.bin`. -/
theorem dotNamed_names_nothing :
    let image := dotNamed.artifacts.artifacts.image
    dotNamed.validate = .ok dotNamed ∧
      (¬ ∃ added, (dotNamed.buildDir.join image.source).components =
          dotNamed.buildDir.components ++ added ∧
        .up ∉ added ∧ .root ∉ added ∧ ∃ c ∈ added, c.isName = true) ∧
      image.source.fileName = none ∧ image.deliveredAs = "app.bin" := by
  intro image
  refine ⟨rfl, ?_, by decide +kernel, by decide +kernel⟩
  rintro ⟨added, hadded, -, -, c, hc, -⟩
  have hsame : (dotNamed.buildDir.join image.source).components = dotNamed.buildDir.components := by
    decide +kernel
  rw [hsame] at hadded
  obtain rfl := List.self_eq_append_right.mp hadded
  cases hc

end Settings

end FirmwareMatrix
