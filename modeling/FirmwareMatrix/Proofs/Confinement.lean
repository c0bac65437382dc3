import FirmwareMatrix.Proofs.Protocol
import FirmwareMatrix.Proofs.Scripted

/-! # Where a run reaches

A run changes files in three ways only: it removes outputs, makes the directory of a board and
copies outputs into it. With settings that hold together, whatever the boards are called and
whatever the file system answers, it removes and takes nothing from outside the build directory,
and makes and writes nothing outside the output directory. -/

namespace FirmwareMatrix

variable {σ : Type}

/-! ## Paths that stay below a directory -/

namespace Path

/-- No step of the path leads up or starts anew. -/
def IsInner (p : Path) : Prop := .root ∉ p.components ∧ .up ∉ p.components

/-- `p` is reached from `dir` without leaving it. -/
def Below (dir p : Path) : Prop :=
  ∃ rest, p.components = dir.components ++ rest ∧ .root ∉ rest ∧ .up ∉ rest

/-- `p` stands a number of names below `dir`. -/
def NamesBelow (dir : Path) (depth : Nat) (p : Path) : Prop :=
  ∃ names : List String, names.length = depth ∧ p.components = dir.components ++ names.map .name

variable {dir p q : Path} {d : String} {depth : Nat}

theorem IsInner.isAbsolute_eq (h : q.IsInner) : q.isAbsolute = false := by
  cases hq : q.isAbsolute with
  | false => rfl
  | true =>
    obtain ⟨rest, hrest⟩ := components_of_isAbsolute hq
    exact absurd (hrest ▸ List.mem_cons_self) h.1

theorem IsInner.below_join (h : q.IsInner) (dir : Path) : dir.Below (dir.join q) :=
  ⟨dir.route q, components_join_eq h.isAbsolute_eq, fun hc => h.1 (mem_components_of_mem_route hc),
    fun hc => h.2 (mem_components_of_mem_route hc)⟩

theorem NamesBelow.refl (dir : Path) : dir.NamesBelow 0 dir :=
  ⟨[], rfl, (List.append_nil _).symm⟩

theorem NamesBelow.child (h : dir.NamesBelow depth p) (hd : IsName d) :
    dir.NamesBelow (depth + 1) (p.child d) := by
  obtain ⟨names, hlength, hp⟩ := h
  refine ⟨names ++ [d], by simp [hlength], ?_⟩
  rw [components_child hd, hp, List.map_append, List.append_assoc]
  rfl

end Path

/-! ## Settings that hold together -/

namespace Settings

/-- A path is accepted for an output if it is not empty and no step of it leads up or starts
anew. -/
theorem checkArtifact_ok_iff {key : ArtifactKey} {p : Path} :
    checkArtifact key p = .ok () ↔ p.isEmpty = false ∧ p.IsInner := by
  have hinner : p.components.any (fun c => c == .root || c == .up) = false ↔ p.IsInner := by
    simp only [List.any_eq_false, Bool.or_eq_true, beq_iff_eq, not_or]
    exact ⟨fun h => ⟨fun hc => (h _ hc).1 rfl, fun hc => (h _ hc).2 rfl⟩,
      fun h c hc => ⟨fun he => h.1 (he ▸ hc), fun he => h.2 (he ▸ hc)⟩⟩
  rw [← hinner]
  unfold checkArtifact
  cases p.isEmpty with
  | true => simp
  | false => cases p.components.any fun c => c == .root || c == .up <;> simp

theorem eq_ok_of_bind {ε α β : Type} {x : Except ε α} {f : α → Except ε β} {r : β}
    (h : (x >>= f) = .ok r) : ∃ a, x = .ok a ∧ f a = .ok r := by
  cases x with
  | error e => cases h
  | ok a => exact ⟨a, rfl, h⟩

/-- What is known of the directories and outputs of settings that were accepted. -/
structure Accepted (s : Settings) : Prop where
  distinct : s.outputDir.components ≠ s.buildDir.components
  inner : ∀ a ∈ s.artifacts.artifacts.toList, a.source.IsInner

/-- Settings that hold together have two directories, and each output was checked. -/
theorem check_ok {s : Settings} (h : s.check = .ok ()) :
    s.outputDir.components ≠ s.buildDir.components ∧
      ∀ a ∈ s.artifacts.artifacts.toList, ∃ key, checkArtifact key a.source = .ok () := by
  simp only [check] at h
  -- the tool, the marker, the pattern and the directories, in this order
  split at h
  · cases h
  split at h
  · cases h
  split at h
  · cases h
  split at h
  · cases h
  next hdirs =>
  obtain ⟨_, himage, h⟩ := eq_ok_of_bind h
  obtain ⟨_, hbootloader, hpartitions⟩ := eq_ok_of_bind h
  have hdistinct : ¬ (s.outputDir.components == s.buildDir.components) = true := hdirs
  refine ⟨fun he => hdistinct (beq_iff_eq.mpr he), fun a ha => ?_⟩
  simp only [ArtifactSet.toList, ArtifactPaths.artifacts, List.mem_cons, List.not_mem_nil,
    or_false] at ha
  rcases ha with rfl | rfl | rfl
  · exact ⟨_, himage⟩
  · exact ⟨_, hbootloader⟩
  · exact ⟨_, hpartitions⟩

theorem accepted_of_check {s : Settings} (h : s.check = .ok ()) : s.Accepted := by
  obtain ⟨hdistinct, hchecked⟩ := check_ok h
  refine ⟨hdistinct, fun a ha => ?_⟩
  obtain ⟨key, hkey⟩ := hchecked a ha
  exact (checkArtifact_ok_iff.mp hkey).2

theorem validate_ok_iff {s r : Settings} : s.validate = .ok r ↔ r = s ∧ s.check = .ok () := by
  unfold validate
  cases s.check with
  | ok _ => simp [eq_comm]
  | error f => simp

theorem validate_ok {raw s : Settings} (h : raw.validate = .ok s) : raw = s ∧ s.Accepted := by
  obtain ⟨rfl, hcheck⟩ := validate_ok_iff.mp h
  exact ⟨rfl, accepted_of_check hcheck⟩

/-- The settings that nothing gives a value are accepted. -/
theorem default_valid : default.validate = .ok default := rfl

end Settings

/-! ## What a run asks for -/

namespace Event

/-- What a layout spells out for some boards: looks at the marker and at outputs, removals and
copies of outputs, directories of the boards, and no other reading or writing of files. -/
def Asked (layout : Layout) (boards : List Board) : Event σ → Prop
  | ran _ => True
  | isPresent p _ => ∃ dir : Path, p = dir.child layout.marker
  | isFile p _ | removeFile p _ => ∃ a ∈ layout.artifacts.toList, p = layout.buildDir.join a.source
  | createDirectories p _ => ∃ b ∈ boards, p = Matrix.destination layout b
  | copy source dest _ => ∃ b ∈ boards, ∃ a ∈ layout.artifacts.toList,
      source = layout.buildDir.join a.source ∧
        dest = (Matrix.destination layout b).child a.deliveredAs
  | canonicalize p _ => p = layout.outputDir
  | readText .. | write .. | isDirectory .. | readDirectory .. => False

theorem Asked.mono {layout : Layout} {boards boards' : List Board} (hsub : boards ⊆ boards')
    {e : Event σ} (h : e.Asked layout boards) : e.Asked layout boards' := by
  cases e with
  | createDirectories p answer =>
    obtain ⟨b, hb, hp⟩ := h
    exact ⟨b, hsub hb, hp⟩
  | copy source dest answer =>
    obtain ⟨b, hb, hcopy⟩ := h
    exact ⟨b, hsub hb, hcopy⟩
  | _ => exact h

end Event

namespace Matrix

variable {fs : FileSystem σ} {runner : Runner σ} {layout : Layout} {b : Board} {w w' : Observed σ}
  {cs : List Command}

theorem Collects.asks {r : BoardResult} (h : Collects fs.observed layout b w r w') :
    w.Grows (Event.Asked layout [b]) w' := by
  have hmissing : AddsOnly (Event.Asked layout [b])
      (layout.artifacts.missing? fs.observed layout.buildDir) :=
    firstMissing?_addsOnly fs fun a ha _ => ⟨a, ha, rfl⟩
  have hdeliver : AddsOnly (Event.Asked layout [b])
      (layout.artifacts.deliver fs.observed layout.buildDir (destination layout b)) :=
    deliver_addsOnly fs (fun _ => ⟨b, List.mem_singleton_self b, rfl⟩) fun a ha _ =>
      ⟨b, List.mem_singleton_self b, a, ha, rfl, rfl⟩
  cases h with
  | leftOut missing => exact hmissing.grows missing
  | notCopied complete deliver | delivered complete deliver =>
    exact (hmissing.grows complete).trans (hdeliver.grows deliver)

theorem Builds.asks {r : Option BoardResult}
    (h : Builds fs.observed runner.observed layout b w cs r w') :
    w.Grows (Event.Asked layout [b]) w' := by
  have hclear : AddsOnly (Event.Asked layout [b])
      (layout.artifacts.clear fs.observed layout.buildDir) :=
    clearEach_addsOnly fs (fun a ha _ => ⟨a, ha, rfl⟩) fun a ha _ => ⟨a, ha, rfl⟩
  cases h with
  | notCleared clear => exact hclear.grows clear
  | hung clear ends code | failed clear ends code =>
    exact (hclear.grows clear).trans (ends.grows fun _ => trivial)
  | built clear ends code collects =>
    exact ((hclear.grows clear).trans (ends.grows fun _ => trivial)).trans collects.asks

theorem Turn.asks {ws : Workspace} {r : Option BoardResult}
    (h : Turn fs.observed runner.observed layout ws b w cs r w') :
    w.Grows (Event.Asked layout [b]) w' := by
  cases h with
  | asFound plan builds => exact builds.asks
  | hung plan ends code | notSetUp plan ends code => exact ends.grows fun _ => trivial
  | setUp plan ends code builds => exact (ends.grows fun _ => trivial).trans builds.asks

/-- A run asks for what its layout spells out for its boards. -/
theorem Turns.asks {ws ws' : Workspace} {boards : List Board} {outs : List Outcome} {fin : Bool}
    (h : Turns fs.observed runner.observed layout ws w boards cs outs fin ws' w') :
    w.Grows (Event.Asked layout boards) w' := by
  have hlook {b : Board} (ws : Workspace) :
      AddsOnly (Event.Asked layout [b]) (ws.refresh fs.observed layout.marker) :=
    refresh_addsOnly fs fun _ => ⟨ws.directory, rfl⟩
  have first {b : Board} {boards : List Board} (e : Event σ) (he : e.Asked layout [b]) :
      e.Asked layout (b :: boards) :=
    he.mono (List.cons_subset_cons b (List.nil_subset boards))
  induction h with
  | done => exact .refl _ _
  | hung look turn => exact (((hlook _).grows look).trans turn.asks).mono first
  | @next _ _ _ _ b boards _ _ _ _ _ _ _ _ look turn rest ih =>
    have hturn := ((hlook _).grows look).trans turn.asks
    exact (hturn.mono first).trans (ih.mono fun e he => he.mono (List.subset_cons_self b boards))

theorem run_asks {boards : List Board} {s s' : Session (Observed σ)} {summary : Option Summary}
    (h : run fs.observed runner.observed layout boards s = (summary, s')) :
    s.world.Grows (Event.Asked layout boards) s'.world := by
  obtain ⟨s₁, hfrom, hcloses⟩ := run_eq h
  obtain ⟨cs, outs, hturns, -, -⟩ := runFrom_turns hfrom
  cases summary with
  | none =>
    rw [hcloses]
    exact hturns.asks
  | some summary =>
    obtain ⟨-, rfl⟩ := summarize_eq hcloses
    have hresolve : AddsOnly (Event.Asked layout boards)
        (fs.observed.canonicalize layout.outputDir) := .noting fun _ => rfl
    exact hturns.asks.trans (hresolve.grows rfl)

end Matrix

/-! ## Confinement -/

/-- Nothing is removed or copied from outside the build directory; directories are made right
below the output directory and copies in those; no file is written from memory. -/
def Event.Confined (layout : Layout) : Event σ → Prop
  | write .. => False
  | removeFile p _ => layout.buildDir.Below p
  | createDirectories p _ => layout.outputDir.NamesBelow 1 p
  | copy source dest _ => layout.buildDir.Below source ∧ layout.outputDir.NamesBelow 2 dest
  | _ => True

theorem Matrix.destination_below {layout : Layout} {b : Board} (hb : b.name ≠ "") :
    layout.outputDir.NamesBelow 1 (destination layout b) :=
  (Path.NamesBelow.refl _).child (Board.isName_directoryName hb)

theorem Event.Asked.confined {s : Settings} (hs : s.Accepted) {boards : List Board}
    (hboards : ∀ b ∈ boards, b.name ≠ "") {e : Event σ}
    (h : e.Asked (Launch.layoutOf s) boards) : e.Confined (Launch.layoutOf s) := by
  cases e with
  | removeFile p answer =>
    obtain ⟨a, ha, rfl⟩ := h
    exact (hs.inner a ha).below_join _
  | createDirectories p answer =>
    obtain ⟨b, hb, rfl⟩ := h
    exact Matrix.destination_below (hboards b hb)
  | copy source dest answer =>
    obtain ⟨b, hb, a, ha, rfl, rfl⟩ := h
    have hname := s.artifacts.isName_deliveredAs a ha
    exact ⟨(hs.inner a ha).below_join _, (Matrix.destination_below (hboards b hb)).child hname⟩
  | write p bytes answer => exact h
  | _ => trivial

namespace Matrix

/-- No name of a board and no setting that is accepted leads a run out of its two directories. -/
theorem run_confined (fs : FileSystem σ) (runner : Runner σ) {raw settings : Settings}
    (hvalid : raw.validate = .ok settings) {boards : List Board}
    (hboards : ∀ b ∈ boards, b.name ≠ "") (s : Session σ) :
    ∀ e ∈ (run fs.observed runner.observed (Launch.layoutOf settings) boards
        s.watched).2.world.events, e.Confined (Launch.layoutOf settings) := by
  obtain ⟨-, haccepted⟩ := Settings.validate_ok hvalid
  have hrun : run fs.observed runner.observed (Launch.layoutOf settings) boards s.watched =
    (_, _) := rfl
  intro e he
  exact ((run_asks hrun).forall_mem rfl e he).confined haccepted hboards

/-- Boards whose names, taken as they are, lead to other directories. -/
def climbers : List Board :=
  [⟨"..", "esp32c3", ⟨"hw_up.h"⟩⟩, ⟨"/etc/passwd", "esp32c3", ⟨"hw_away.h"⟩⟩,
    ⟨"../../C", "esp32s3", ⟨"hw_far.h"⟩⟩]

/-- All of them are built, and nothing is touched outside the two directories. -/
theorem climbers_confined :
    let layout := Launch.layoutOf .default
    let tool := (ScriptedTool.willing .default).tool
    let start := Matrix.begin Tree.fileSystem layout (Screen.blank .open false) Tree.empty
    let ended := run Tree.fileSystem.observed tool.observed layout climbers start.watched
    ended.1.map Summary.succeeded = some 3 ∧ ∀ e ∈ ended.2.world.events, e.Confined layout :=
  ⟨by decide +kernel, run_confined _ _ Settings.default_valid (by decide) _⟩

end Matrix

end FirmwareMatrix
