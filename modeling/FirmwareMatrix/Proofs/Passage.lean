import FirmwareMatrix.Proofs.Protocol
import FirmwareMatrix.Proofs.TreeTurns

/-! # The worlds that a run passes through

A world that remembers what it has been after each file operation and each command. Remembering
changes nothing, and it lets a statement speak of every moment of a run and not of its end alone:
up to the delivery of its outputs a board leaves the output directory as it is at every moment. -/

namespace FirmwareMatrix

variable {σ α β : Type}

/-- A world and all that it has been, the latest last. -/
structure Traced (σ : Type) where
  world : σ
  past : List σ

def tracing (m : StateM σ α) : StateM (Traced σ) α := fun w =>
  let (a, world) := m w.world
  (a, ⟨world, w.past ++ [world]⟩)

def FileSystem.traced (fs : FileSystem σ) : FileSystem (Traced σ) :=
  fs.through fun _ m => tracing m

def Runner.traced (runner : Runner σ) : Runner (Traced σ) where
  run c := fun (w, screen) =>
    let (ending, world, screen) := runner.run c (w.world, screen)
    (ending, ⟨world, w.past ++ [world]⟩, screen)

theorem FileSystem.traced_over (fs : FileSystem σ) : Over Traced.world fs.traced fs :=
  through_over (fun _ _ _ => rfl) fs

theorem of_tracing {m : StateM σ α} {w w' : Traced σ} {a : α} (h : tracing m w = (a, w')) :
    m w.world = (a, w'.world) ∧ w'.past = w.past ++ [w'.world] := by
  obtain ⟨rfl, rfl⟩ := Prod.mk.inj h
  exact ⟨rfl, rfl⟩

/-- From `w` to `w'` every world stood in `R` to the first. -/
def Traced.Stays (R : σ → σ → Prop) (w w' : Traced σ) : Prop :=
  R w.world w'.world ∧ ∃ worlds, w'.past = w.past ++ worlds ∧ ∀ x ∈ worlds, R w.world x

namespace Traced.Stays

variable {R : σ → σ → Prop} {w w₁ w' : Traced σ}

theorem refl (hrefl : ∀ x, R x x) (w : Traced σ) : w.Stays R w :=
  ⟨hrefl _, [], (List.append_nil _).symm, by simp⟩

theorem trans (htrans : ∀ x y z, R x y → R y z → R x z) (h : w.Stays R w₁)
    (h' : w₁.Stays R w') : w.Stays R w' := by
  obtain ⟨hw, worlds, hpast, hall⟩ := h
  obtain ⟨hw', worlds', hpast', hall'⟩ := h'
  refine ⟨htrans _ _ _ hw hw', worlds ++ worlds', by rw [hpast', hpast, List.append_assoc], ?_⟩
  exact List.forall_mem_append.mpr ⟨hall, fun x hx => htrans _ _ _ hw (hall' x hx)⟩

/-- One step that stands in `R` to the world before it. -/
theorem single (hw : R w.world w'.world) (hpast : w'.past = w.past ++ [w'.world]) :
    w.Stays R w' :=
  ⟨hw, _, hpast, List.forall_mem_singleton.mpr hw⟩

end Traced.Stays

theorem Runner.Ends.of_traced {runner : Runner σ} {c : Command} {w w' : Traced σ} {e : Ending}
    (h : runner.traced.Ends c w e w') :
    runner.Ends c w.world e w'.world ∧ w'.past = w.past ++ [w'.world] := by
  obtain ⟨screen, screen', h⟩ := h
  cases h
  exact ⟨⟨screen, _, rfl⟩, rfl⟩

/-! ## Actions that keep to a relation -/

/-- What `m` leaves stands in `Q` to what it found. -/
def Keeps (Q : σ → σ → Prop) (m : StateM σ α) : Prop := ∀ w, Q w (m w).2

section Keeps

variable {Q : σ → σ → Prop} (hrefl : ∀ w, Q w w)
  (htrans : ∀ u v w, Q u v → Q v w → Q u w)

include hrefl in
theorem Keeps.pure (a : α) : Keeps Q (Pure.pure a : StateM σ α) := hrefl

include htrans in
theorem Keeps.bind {m : StateM σ α} {f : α → StateM σ β} (h : Keeps Q m)
    (hf : ∀ a, Keeps Q (f a)) : Keeps Q (m >>= f) :=
  fun w => htrans _ _ _ (h w) (hf _ _)

theorem Keeps.result {m : StateM σ α} (h : Keeps Q m) {w w' : σ} {a : α} (hw : m w = (a, w')) :
    Q w w' := by
  have hkeeps := h w
  rwa [hw] at hkeeps

variable {fs : FileSystem σ} {dir : Path} {as : List Artifact}

include hrefl htrans

theorem clearEach_keeps (hfile : ∀ p, Keeps Q (fs.isFile p))
    (hremove : ∀ a ∈ as, Keeps Q (fs.removeFile (dir.join a.source))) :
    Keeps Q (ArtifactSet.clearEach fs dir as) := by
  induction as with
  | nil => exact .pure hrefl _
  | cons a as ih =>
    obtain ⟨hremove, hremoves⟩ := List.forall_mem_cons.mp hremove
    refine .bind htrans (hfile _) fun found => ?_
    cases found with
    | false => exact ih hremoves
    | true =>
      refine .bind htrans hremove fun removed => ?_
      cases removed with
      | error f => exact .pure hrefl _
      | ok _ => exact ih hremoves

theorem firstMissing?_keeps (hfile : ∀ p, Keeps Q (fs.isFile p)) :
    Keeps Q (ArtifactSet.firstMissing? fs dir as) := by
  induction as with
  | nil => exact .pure hrefl _
  | cons a as ih =>
    refine .bind htrans (hfile _) fun found => ?_
    cases found with
    | false => exact .pure hrefl _
    | true => exact ih

theorem refresh_keeps (hlook : ∀ p, Keeps Q (fs.isPresent p)) (ws : Workspace) (marker : String) :
    Keeps Q (ws.refresh fs marker) :=
  .bind htrans (hlook _) fun _ => .pure hrefl _

end Keeps

/-! ## Turns up to the delivery -/

/-- Nothing that a turn does before it delivers leaves `Q`: looking, checking, removing outputs,
running commands, and trying to make a directory where there can be none. -/
structure Harmless (Q : σ → σ → Prop) (fs : FileSystem σ) (runner : Runner σ) (layout : Layout) :
    Prop where
  refl w : Q w w
  trans u v w : Q u v → Q v w → Q u w
  isPresent p : Keeps Q (fs.isPresent p)
  isFile p : Keeps Q (fs.isFile p)
  removeFile a : a ∈ layout.artifacts.toList →
    Keeps Q (fs.removeFile (layout.buildDir.join a.source))
  refused {p w f w'} : fs.createDirectories p w = (.error f, w') → Q w w'
  ends {c w e w'} : runner.Ends c w e w' → Q w w'

namespace Matrix

variable {Q : σ → σ → Prop} {fs : FileSystem σ} {runner : Runner σ} {layout : Layout}
  {b : Board} {w w' : σ} {cs : List Command}

/-- A turn that does not succeed keeps to `Q`, if a delivery that is not refused at its start goes
through. -/
theorem Turn.keeps {ws : Workspace} {r : BoardResult} (h : Harmless Q fs runner layout)
    (hdeliver : ∀ w w₁ f w', layout.artifacts.missing? fs layout.buildDir w = (none, w₁) →
      layout.artifacts.deliver fs layout.buildDir (destination layout b) w₁ = (.error f, w') →
      ∃ f', fs.createDirectories (destination layout b) w₁ = (.error f', w'))
    (turn : Turn fs runner layout ws b w cs (some r) w') (hr : r ≠ .succeeded) : Q w w' := by
  have hclear : Keeps Q (layout.artifacts.clear fs layout.buildDir) :=
    clearEach_keeps h.refl h.trans h.isFile h.removeFile
  have hmissing : Keeps Q (layout.artifacts.missing? fs layout.buildDir) :=
    firstMissing?_keeps h.refl h.trans h.isFile
  have hcollects {w w' : σ} (collects : Collects fs layout b w r w') : Q w w' := by
    cases collects with
    | leftOut missing => exact hmissing.result missing
    | notCopied complete deliver =>
      obtain ⟨f', hrefused⟩ := hdeliver _ _ _ _ complete deliver
      exact h.trans _ _ _ (hmissing.result complete) (h.refused hrefused)
    | delivered => exact absurd rfl hr
  have hbuilds {w w' : σ} {cs : List Command}
      (builds : Builds fs runner layout b w cs (some r) w') : Q w w' := by
    cases builds with
    | notCleared clear => exact hclear.result clear
    | failed clear ends => exact h.trans _ _ _ (hclear.result clear) (h.ends ends)
    | built clear ends code collects =>
      exact h.trans _ _ _ (h.trans _ _ _ (hclear.result clear) (h.ends ends)) (hcollects collects)
  cases turn with
  | asFound plan builds => exact hbuilds builds
  | notSetUp plan ends => exact h.ends ends
  | setUp plan ends code builds => exact h.trans _ _ _ (h.ends ends) (hbuilds builds)

end Matrix

/-! ## The output directory of a traced tree -/

variable {view : σ → Tree} {fs : FileSystem σ} {runner : Runner σ} {layout : Layout}

theorem keeps_of_mirrors {m' : StateM σ α} {m : StateM Tree α} (h : Mirrors view m' m)
    {out : List Component} (hm : Keeps (Tree.AgreeBelow out) m) :
    Keeps (fun w w' => Tree.AgreeBelow out (view w) (view w')) m' := by
  intro w
  have hkeeps := hm (view w)
  rwa [h w] at hkeeps

theorem Keeps.observed {R : σ → σ → Prop} {m : StateM σ α} (h : Keeps R m)
    (event : α → Event (Traced σ)) :
    Keeps (fun w w' : Observed (Traced σ) => w.world.Stays R w'.world) (noting event (tracing m)) :=
  fun w => .single (h w.world.world) rfl

/-- A file that is removed elsewhere changes nothing below. -/
theorem Tree.removeFile_keeps {out : List Component} (hout : Tree.Proper out) {p : Path}
    (hp : ¬ out <+: p.components) :
    Keeps (Tree.AgreeBelow out) (Tree.fileSystem.removeFile p) := by
  intro t
  cases h : Tree.change (·.removeFile p) t with
  | mk r t' =>
    show Tree.AgreeBelow out t (Tree.change (·.removeFile p) t).2
    rw [h]
    cases r with
    | error f =>
      obtain rfl := Tree.change_error h
      exact .refl out t'
    | ok u =>
      have hremoved : t.removeFile p = .ok t' := Tree.change_ok h
      unfold Tree.removeFile at hremoved
      split at hremoved
      · obtain rfl := Except.ok.inj hremoved
        exact (Tree.agreeBelow_erase hp).trans (Tree.agreeBelow_unlink hout hp)
      · cases hremoved
      · cases hremoved

/-- Commands that stay out of the output directory leave it as it is at every moment before a
delivery, and so does everything else. -/
theorem harmless_traced (hfs : fs.Over view Tree.fileSystem) (hsep : layout.Separate)
    (spares : runner.Spares view layout.outputDir.components) :
    Harmless (fun w w' : Observed (Traced σ) => w.world.Stays
        (fun x x' => Tree.AgreeBelow layout.outputDir.components (view x) (view x')) w'.world)
      fs.traced.observed runner.traced.observed layout where
  refl w := .refl (fun _ => .refl _ _) w.world
  trans _ _ _ h h' := h.trans (fun _ _ _ => Tree.AgreeBelow.trans) h'
  isPresent p := (keeps_of_mirrors (hfs.isPresent p) fun _ => .refl _ _).observed _
  isFile p := (keeps_of_mirrors (hfs.isFile p) fun _ => .refl _ _).observed _
  removeFile a ha := by
    have hkeeps : Keeps (Tree.AgreeBelow layout.outputDir.components)
        (Tree.fileSystem.removeFile (layout.buildDir.join a.source)) :=
      Tree.removeFile_keeps hsep.proper (hsep.place a ha)
    exact (keeps_of_mirrors (hfs.removeFile _) hkeeps).observed _
  refused {p w f w'} h := by
    obtain ⟨hworld, hpast⟩ :=
      of_tracing ((fs.traced.observed_over.createDirectories p).apply_eq h)
    have hrefused := (hfs.createDirectories p).apply_eq hworld
    rw [Tree.fileSystem_createDirectories] at hrefused
    refine .single ?_ hpast
    rw [Tree.change_error hrefused]
    exact .refl _ _
  ends {c w e w'} h := by
    obtain ⟨hends, hpast⟩ := h.world.of_traced
    exact .single (spares _ _ _ _ hends) hpast

end FirmwareMatrix
