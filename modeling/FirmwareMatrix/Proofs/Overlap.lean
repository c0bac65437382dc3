import FirmwareMatrix.Proofs.Confinement
import FirmwareMatrix.Proofs.Separation

/-! # Where deliveries meet outputs

Accepted settings have two different directories, but one of them may lie in the other. Then a
copy can stand at the place of an output, and a later board's turn takes it away again. There are
three ways for that to happen, told apart by which directory lies in which; a run whose
directories and outputs are in none of them takes away no file that it delivers. -/

namespace FirmwareMatrix

variable {σ : Type}

/-- The ways in which the copy of `d` for a board can stand where the tool writes `a`. -/
inductive Settings.Meets (s : Settings) (b : Board) (a d : Artifact) : Prop
  /-- Inside the build directory lies the output directory, and in it `a`. -/
  | outputInside {inner : List Component} (proper : inner ≠ [])
      (directory : s.outputDir.components = s.buildDir.components ++ inner)
      (route : s.buildDir.route a.source = inner ++ [.name b.directoryName, .name d.deliveredAs])
  /-- The tool works in the directory of the board. -/
  | boardDirectory
      (directory : s.buildDir.components = s.outputDir.components ++ [.name b.directoryName])
      (route : s.buildDir.route a.source = [.name d.deliveredAs])
  /-- The tool works where the copy goes, and `a` is that directory itself. -/
  | copyItself
      (directory : s.buildDir.components =
        s.outputDir.components ++ [.name b.directoryName, .name d.deliveredAs])
      (route : s.buildDir.route a.source = [])

theorem append_pair_eq_append {α : Type} {xs ys zs : List α} {x y : α}
    (h : xs ++ [x, y] = ys ++ zs) :
    (∃ inner, xs = ys ++ inner ∧ zs = inner ++ [x, y]) ∨ (ys = xs ++ [x] ∧ zs = [y]) ∨
      (ys = xs ++ [x, y] ∧ zs = []) := by
  rcases List.append_eq_append_iff.mp h with ⟨more, hys, hpair⟩ | ⟨inner, hxs, hzs⟩
  · -- `ys` goes on after `xs`, by none, one or both of the pair
    cases more with
    | nil => exact .inl ⟨[], by simpa using hys.symm, hpair.symm⟩
    | cons u more =>
      rw [List.cons_append, List.cons.injEq] at hpair
      obtain ⟨rfl, hpair⟩ := hpair
      cases more with
      | nil => exact .inr (.inl ⟨hys, hpair.symm⟩)
      | cons v more =>
        rw [List.cons_append, List.cons.injEq] at hpair
        obtain ⟨rfl, hnil⟩ := hpair
        obtain ⟨rfl, rfl⟩ := List.append_eq_nil_iff.mp hnil.symm
        exact .inr (.inr ⟨hys, rfl⟩)
  · exact .inl ⟨inner, hxs, hzs⟩

namespace Settings

variable {s : Settings} {b : Board} {a d : Artifact}

theorem Accepted.goal_eq_place_iff (hs : s.Accepted) (hb : b.name ≠ "")
    (ha : a ∈ s.artifacts.artifacts.toList) (hd : d ∈ s.artifacts.artifacts.toList) :
    d.goal (Matrix.destination (Launch.layoutOf s) b) = a.place s.buildDir ↔ s.Meets b a d := by
  rw [Artifact.goal_destination hb (s.artifacts.isName_deliveredAs d hd), Artifact.place,
    Path.components_join_eq (hs.inner a ha).isAbsolute_eq]
  constructor
  · intro h
    rcases append_pair_eq_append h with ⟨inner, hout, hroute⟩ | ⟨hbuild, hroute⟩ | ⟨hbuild, hroute⟩
    · refine .outputInside (fun hinner => hs.distinct ?_) hout hroute
      rw [hinner, List.append_nil] at hout
      exact hout
    · exact .boardDirectory hbuild hroute
    · exact .copyItself hbuild hroute
  · intro h
    cases h with
    | outputInside proper directory route =>
      show s.outputDir.components ++ _ = _
      rw [directory, route, List.append_assoc]
    | boardDirectory directory route | copyItself directory route =>
      rw [directory, route]
      simp [Launch.layoutOf]

/-- Directories that lie apart leave no way for that. -/
theorem Meets.not_apart (h : s.Meets b a d) : ¬ Path.Apart s.buildDir s.outputDir := by
  rintro ⟨hbuild, hout⟩
  cases h with
  | outputInside proper directory route => exact hbuild ⟨_, directory.symm⟩
  | boardDirectory directory route | copyItself directory route => exact hout ⟨_, directory.symm⟩

end Settings

namespace Event

/-- The file that is to be removed or to be copied elsewhere. -/
def taken? : Event σ → Option Path
  | removeFile p _ => some p
  | copy source _ _ => some source
  | _ => none

/-- The place that a copy is to be made at. -/
def delivered? : Event σ → Option Path
  | copy _ dest _ => some dest
  | _ => none

variable {layout : Layout} {boards : List Board} {e : Event σ} {p : Path}

theorem Asked.taken (h : e.Asked layout boards) (hp : e.taken? = some p) :
    ∃ a ∈ layout.artifacts.toList, p.components = a.place layout.buildDir := by
  cases e with
  | removeFile file answer =>
    obtain rfl := Option.some.inj hp
    obtain ⟨a, ha, rfl⟩ := h
    exact ⟨a, ha, rfl⟩
  | copy source dest answer =>
    obtain rfl := Option.some.inj hp
    obtain ⟨b, hb, a, ha, rfl, -⟩ := h
    exact ⟨a, ha, rfl⟩
  | _ => cases hp

theorem Asked.delivered (h : e.Asked layout boards) (hp : e.delivered? = some p) :
    ∃ b ∈ boards, ∃ d ∈ layout.artifacts.toList,
      p.components = d.goal (Matrix.destination layout b) := by
  cases e with
  | copy source dest answer =>
    obtain rfl := Option.some.inj hp
    obtain ⟨b, hb, d, hd, -, rfl⟩ := h
    exact ⟨b, hb, d, hd, rfl⟩
  | _ => cases hp

end Event

namespace Matrix

/-- A copy stands at the place of an output in the three ways alone, none of which is open to
directories that lie apart; and a run takes a file from where it delivers one in these ways only. -/
theorem run_meets_only (fs : FileSystem σ) (runner : Runner σ) {raw settings : Settings}
    (hvalid : raw.validate = .ok settings) {boards : List Board}
    (hboards : ∀ b ∈ boards, b.name ≠ "") (s : Session σ) :
    let layout := Launch.layoutOf settings
    let outputs := layout.artifacts.toList
    let events := (run fs.observed runner.observed layout boards s.watched).2.world.events
    (∀ b : Board, b.name ≠ "" → ∀ a ∈ outputs, ∀ d ∈ outputs,
      (d.goal (destination layout b) = a.place layout.buildDir ↔ settings.Meets b a d)) ∧
    (Path.Apart settings.buildDir settings.outputDir → ∀ b a d, ¬ settings.Meets b a d) ∧
    ∀ e ∈ events, ∀ p ∈ e.taken?, ∀ e' ∈ events, ∀ q ∈ e'.delivered?,
      p.components = q.components →
        ∃ b ∈ boards, ∃ a ∈ outputs, ∃ d ∈ outputs, settings.Meets b a d := by
  intro layout outputs events
  obtain ⟨-, haccepted⟩ := Settings.validate_ok hvalid
  have hrun : run fs.observed runner.observed layout boards s.watched = (_, _) := rfl
  have hasked := (run_asks hrun).forall_mem rfl
  refine ⟨fun b hb a ha d hd => haccepted.goal_eq_place_iff hb ha hd,
    fun hapart b a d h => h.not_apart hapart, ?_⟩
  intro e he p hp e' he' q hq hpq
  obtain ⟨a, ha, hplace⟩ := (hasked e he).taken hp
  obtain ⟨b, hb, d, hd, hgoal⟩ := (hasked e' he').delivered hq
  rw [hplace, hgoal] at hpq
  exact ⟨b, hb, a, ha, d, hd, (haccepted.goal_eq_place_iff (hboards b hb) ha hd).mp hpq.symm⟩

/-- Two boards of one chip. -/
def neighbours : List Board := [⟨"A", "esp32c3", ⟨"hw_a.h"⟩⟩, ⟨"B", "esp32c3", ⟨"hw_b.h"⟩⟩]

theorem neighbours_named : ∀ b ∈ neighbours, b.name ≠ "" := by decide

/-- What a run over them, with the usual directories, asks of its world. -/
def neighbourEvents : List (Event Tree) :=
  (run Tree.fileSystem.observed (ScriptedTool.willing .default).tool.observed
    (Launch.layoutOf .default) neighbours (Matrix.begin Tree.fileSystem (Launch.layoutOf .default)
      (Screen.blank .open false) Tree.empty).watched).2.world.events

/-- The usual directories lie apart, so what is taken away there was not delivered. -/
theorem neighbours_meet_nowhere :
    Path.Apart Settings.default.buildDir Settings.default.outputDir ∧
      ∀ e ∈ neighbourEvents, ∀ p ∈ e.taken?, ∀ e' ∈ neighbourEvents,
        ∀ q ∈ e'.delivered?, p.components ≠ q.components := by
  have hapart : Path.Apart Settings.default.buildDir Settings.default.outputDir := by
    decide +kernel
  obtain ⟨-, hnowhere, hmeets⟩ := run_meets_only Tree.fileSystem
    (ScriptedTool.willing .default).tool Settings.default_valid neighbours_named
    (Matrix.begin Tree.fileSystem (Launch.layoutOf .default) (Screen.blank .open false) Tree.empty)
  refine ⟨hapart, fun e he p hp e' he' q hq hpq => ?_⟩
  obtain ⟨b, -, a, -, d, -, h⟩ := hmeets e he p hp e' he' q hq hpq
  exact hnowhere hapart b a d h

/-- The tool works in the directory that board `A` is delivered to. -/
def nested : Settings := { Settings.default with buildDir := ⟨"out/A"⟩, outputDir := ⟨"out"⟩ }

/-- A tool for these settings that cannot build board `B`. -/
def nestedTool : ScriptedTool :=
  { ScriptedTool.willing nested with exitCode := fun kind name =>
      if kind = .build ∧ name = "B" then 1 else 0 }

/-- The image of board `A` is delivered onto itself, and gone after the turn of board `B`. -/
theorem nested_loses_delivery :
    let layout := Launch.layoutOf nested
    let image := layout.artifacts.image
    let copy := image.goal (destination layout ⟨"A", "esp32c3", ⟨"hw_a.h"⟩⟩)
    let start := Matrix.begin Tree.fileSystem layout (Screen.blank .open false) Tree.empty
    let ended := run Tree.fileSystem nestedTool.tool layout neighbours start
    nested.validate = .ok nested ∧ copy = image.place layout.buildDir ∧
      (ended.2.outcomes.map fun o => (o.board, o.isSuccess)) = [("A", true), ("B", false)] ∧
      ended.2.world.file? copy = none :=
  ⟨rfl, by decide +kernel, by decide +kernel, by decide +kernel⟩

end Matrix

end FirmwareMatrix
