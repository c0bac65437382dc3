import FirmwareMatrix.Proofs.Mirroring

/-! # Observed runs

A world that keeps a list of what was asked of it: every file operation with its answer and every
command with the worlds before and after it. Observing changes nothing, and what a run asks for
between two commands can be read off the list. -/

namespace FirmwareMatrix

variable {σ σ' α β : Type}

/-- A command that was run: the world it found, how it ended and the world it left. -/
structure Call (σ : Type) where
  command : Command
  before : σ
  ending : Ending
  after : σ

/-- One thing asked of a world, with the answer. -/
inductive Event (σ : Type) where
  | readText (p : Path) (answer : Except Failure String)
  | write (p : Path) (bytes : List UInt8) (answer : Except Failure Unit)
  | isPresent (p : Path) (answer : Bool)
  | isFile (p : Path) (answer : Bool)
  | isDirectory (p : Path) (answer : Bool)
  | canonicalize (p : Path) (answer : Except Failure Path)
  | createDirectories (p : Path) (answer : Except Failure Unit)
  | copy (source dest : Path) (answer : Except Failure Unit)
  | removeFile (p : Path) (answer : Except Failure Unit)
  | readDirectory (p : Path) (answer : Except Failure (List Path))
  | ran (call : Call σ)

namespace Event

def call? : Event σ → Option (Call σ)
  | ran call => some call
  | _ => none

/-- A file was to be removed and was not. -/
def isRefusedRemoval : Event σ → Bool
  | removeFile _ (.error _) => true
  | _ => false

end Event

/-- The commands among events, in order. -/
def calls (events : List (Event σ)) : List (Call σ) := events.filterMap Event.call?

@[simp] theorem calls_append (es es' : List (Event σ)) : calls (es ++ es') = calls es ++ calls es' :=
  List.filterMap_append

@[simp] theorem calls_ran (call : Call σ) (es : List (Event σ)) :
    calls (.ran call :: es) = call :: calls es := rfl

/-- A world and what has been asked of it. -/
structure Observed (σ : Type) where
  world : σ
  events : List (Event σ)

/-- Adds an event that the answer is part of. -/
def noting (event : α → Event σ) (m : StateM σ α) : StateM (Observed σ) α := fun w =>
  let (a, world) := m w.world
  (a, ⟨world, w.events ++ [event a]⟩)

/-- The same operations on another world: each is carried over, with the event that it is. -/
def FileSystem.through (lift : {α : Type} → (α → Event σ) → StateM σ α → StateM σ' α)
    (fs : FileSystem σ) : FileSystem σ' where
  readText p := lift (.readText p) (fs.readText p)
  write p bytes := lift (.write p bytes) (fs.write p bytes)
  isPresent p := lift (.isPresent p) (fs.isPresent p)
  isFile p := lift (.isFile p) (fs.isFile p)
  isDirectory p := lift (.isDirectory p) (fs.isDirectory p)
  canonicalize p := lift (.canonicalize p) (fs.canonicalize p)
  createDirectories p := lift (.createDirectories p) (fs.createDirectories p)
  copy source dest := lift (.copy source dest) (fs.copy source dest)
  removeFile p := lift (.removeFile p) (fs.removeFile p)
  readDirectory p := lift (.readDirectory p) (fs.readDirectory p)

def FileSystem.observed (fs : FileSystem σ) : FileSystem (Observed σ) := fs.through noting

/-- A file system beside something that it does not touch. -/
def FileSystem.beside (fs : FileSystem σ) (ρ : Type) : FileSystem (σ × ρ) :=
  fs.through fun _ m => fun (w, r) => let (a, w) := m w; (a, w, r)

def Runner.observed (runner : Runner σ) : Runner (Observed σ) where
  run c := fun (w, screen) =>
    let (ending, world, screen) := runner.run c (w.world, screen)
    (ending, ⟨world, w.events ++ [.ran ⟨c, w.world, ending, world⟩]⟩, screen)

/-- A runner beside something that it does not touch. -/
def Runner.beside (runner : Runner σ) (ρ : Type) : Runner (σ × ρ) where
  run c := fun ((w, r), screen) =>
    let (ending, w, screen) := runner.run c (w, screen)
    (ending, (w, r), screen)

/-! ## Observing changes nothing -/

theorem FileSystem.through_over {lift : {α : Type} → (α → Event σ) → StateM σ α → StateM σ' α}
    {view : σ' → σ} (h : ∀ {α : Type} (event : α → Event σ) m, Mirrors view (lift event m) m)
    (fs : FileSystem σ) : Over view (fs.through lift) fs where
  readText _ := h _ _
  write _ _ := h _ _
  isPresent _ := h _ _
  isFile _ := h _ _
  isDirectory _ := h _ _
  canonicalize _ := h _ _
  createDirectories _ := h _ _
  copy _ _ := h _ _
  removeFile _ := h _ _
  readDirectory _ := h _ _

theorem FileSystem.observed_over (fs : FileSystem σ) : Over Observed.world fs.observed fs :=
  through_over (fun _ _ _ => rfl) fs

theorem FileSystem.beside_over (fs : FileSystem σ) (ρ : Type) : Over Prod.fst (fs.beside ρ) fs :=
  through_over (fun _ _ _ => rfl) fs

theorem Runner.observed_over (runner : Runner σ) :
    Over Observed.world runner.observed runner := fun _ _ => rfl

/-- An observed run is the run itself, seen without the events. -/
theorem Matrix.run_observed (fs : FileSystem σ) (runner : Runner σ) (layout : Layout)
    (boards : List Board) (s : Session (Observed σ)) :
    run fs runner layout boards (s.viewed Observed.world) =
      ((run fs.observed runner.observed layout boards s).1,
        (run fs.observed runner.observed layout boards s).2.viewed Observed.world) :=
  run_mirrors fs.observed_over runner.observed_over layout boards s

/-- A session in a world of which nothing has been asked yet. -/
def Session.watched (s : Session σ) : Session (Observed σ) :=
  ⟨⟨s.world, []⟩, s.workspace, s.outcomes, s.issued, s.screen⟩

theorem Session.viewed_watched (s : Session σ) : s.watched.viewed Observed.world = s := rfl

/-- The commands that a run hands over. -/
def Matrix.callsOf (fs : FileSystem σ) (runner : Runner σ) (layout : Layout) (boards : List Board)
    (s : Session σ) : List (Call σ) :=
  calls (run fs.observed runner.observed layout boards s.watched).2.world.events

/-- Every command comes to an end, and every set-up succeeds. -/
def Smooth (cs : List (Call σ)) : Prop :=
  ∀ c ∈ cs, c.ending.code? ≠ none ∧ (c.command.isConfigure = true → c.ending.code? = some 0)

instance (cs : List (Call σ)) : Decidable (Smooth cs) :=
  inferInstanceAs (Decidable (∀ c ∈ cs, _))

/-! ## What is added to the list -/

/-- `m` adds events that stand in a relation to what it returns. -/
def Adds (P : α → List (Event σ) → Prop) (m : StateM (Observed σ) α) : Prop :=
  ∀ w, ∃ es, (m w).2.events = w.events ++ es ∧ P (m w).1 es

namespace Adds

theorem noting {event : α → Event σ} {m : StateM σ α} {P : α → List (Event σ) → Prop}
    (h : ∀ a, P a [event a]) : Adds P (noting event m) :=
  fun w => ⟨[event (m w.world).1], rfl, h _⟩

theorem pure {P : α → List (Event σ) → Prop} {a : α} (h : P a []) :
    Adds P (Pure.pure a : StateM (Observed σ) α) :=
  fun w => ⟨[], (List.append_nil w.events).symm, h⟩

theorem bind {P : α → List (Event σ) → Prop} {Q : β → List (Event σ) → Prop}
    {m : StateM (Observed σ) α} {f : α → StateM (Observed σ) β} (h : Adds P m)
    (hf : ∀ a es, P a es → Adds (fun b es' => Q b (es ++ es')) (f a)) : Adds Q (m >>= f) := by
  intro w
  obtain ⟨es, hes, hP⟩ := h w
  obtain ⟨es', hes', hQ⟩ := hf _ es hP (m w).2
  refine ⟨es ++ es', ?_, hQ⟩
  show (f (m w).1 (m w).2).2.events = _
  rw [hes', hes, List.append_assoc]

theorem mono {P Q : α → List (Event σ) → Prop} {m : StateM (Observed σ) α} (h : Adds P m)
    (hPQ : ∀ a es, P a es → Q a es) : Adds Q m := by
  intro w
  obtain ⟨es, hes, hP⟩ := h w
  exact ⟨es, hes, hPQ _ _ hP⟩

theorem result {P : α → List (Event σ) → Prop} {m : StateM (Observed σ) α} (h : Adds P m)
    {w w' : Observed σ} {a : α} (hw : m w = (a, w')) :
    ∃ es, w'.events = w.events ++ es ∧ P a es := by
  obtain ⟨es, hes⟩ := h w
  rw [hw] at hes
  exact ⟨es, hes⟩

end Adds

/-- `m` adds events in `P` only. -/
def AddsOnly (P : Event σ → Prop) (m : StateM (Observed σ) α) : Prop :=
  Adds (fun _ es => ∀ e ∈ es, P e) m

namespace AddsOnly

variable {P : Event σ → Prop}

theorem noting {event : α → Event σ} {m : StateM σ α} (h : ∀ a, P (event a)) :
    AddsOnly P (noting event m) :=
  Adds.noting fun a => List.forall_mem_singleton.mpr (h a)

theorem pure (a : α) : AddsOnly P (Pure.pure a : StateM (Observed σ) α) :=
  Adds.pure fun _ he => absurd he List.not_mem_nil

theorem bind {m : StateM (Observed σ) α} {f : α → StateM (Observed σ) β} (h : AddsOnly P m)
    (hf : ∀ a, AddsOnly P (f a)) : AddsOnly P (m >>= f) :=
  Adds.bind h fun a _ hes => (hf a).mono fun _ _ hes' => List.forall_mem_append.mpr ⟨hes, hes'⟩

end AddsOnly

/-- Only events in `P` come to those of `w` until `w'`. -/
def Observed.Grows (P : Event σ → Prop) (w w' : Observed σ) : Prop :=
  ∃ es, w'.events = w.events ++ es ∧ ∀ e ∈ es, P e

namespace Observed.Grows

variable {P Q : Event σ → Prop} {w w₁ w' : Observed σ}

theorem refl (P : Event σ → Prop) (w : Observed σ) : w.Grows P w :=
  ⟨[], (List.append_nil _).symm, fun _ he => absurd he List.not_mem_nil⟩

theorem trans (h : w.Grows P w₁) (h' : w₁.Grows P w') : w.Grows P w' := by
  obtain ⟨es, hes, hP⟩ := h
  obtain ⟨es', hes', hP'⟩ := h'
  exact ⟨es ++ es', by rw [hes', hes, List.append_assoc], List.forall_mem_append.mpr ⟨hP, hP'⟩⟩

theorem mono (h : w.Grows P w') (hPQ : ∀ e, P e → Q e) : w.Grows Q w' := by
  obtain ⟨es, hes, hP⟩ := h
  exact ⟨es, hes, fun e he => hPQ e (hP e he)⟩

/-- A list that starts out empty holds nothing else. -/
theorem forall_mem (h : w.Grows P w') (hw : w.events = []) : ∀ e ∈ w'.events, P e := by
  obtain ⟨es, hes, hP⟩ := h
  rw [hes, hw, List.nil_append]
  exact hP

end Observed.Grows

theorem AddsOnly.grows {P : Event σ → Prop} {m : StateM (Observed σ) α} (h : AddsOnly P m)
    {w w' : Observed σ} {a : α} (hw : m w = (a, w')) : w.Grows P w' :=
  h.result hw

/-! ## What the steps of a run add -/

section Steps

variable {P : Event σ → Prop} (fs : FileSystem σ) {dir dest : Path} {as : List Artifact}

theorem clearEach_addsOnly (hfile : ∀ a ∈ as, ∀ answer, P (.isFile (dir.join a.source) answer))
    (hremove : ∀ a ∈ as, ∀ answer, P (.removeFile (dir.join a.source) answer)) :
    AddsOnly P (ArtifactSet.clearEach fs.observed dir as) := by
  induction as with
  | nil => exact .pure _
  | cons a as ih =>
    obtain ⟨hfile, hfiles⟩ := List.forall_mem_cons.mp hfile
    obtain ⟨hremove, hremoves⟩ := List.forall_mem_cons.mp hremove
    refine .bind (.noting hfile) fun found => ?_
    cases found with
    | false => exact ih hfiles hremoves
    | true =>
      refine .bind (.noting hremove) fun removed => ?_
      cases removed with
      | error f => exact .pure _
      | ok _ => exact ih hfiles hremoves

theorem firstMissing?_addsOnly
    (hfile : ∀ a ∈ as, ∀ answer, P (.isFile (dir.join a.source) answer)) :
    AddsOnly P (ArtifactSet.firstMissing? fs.observed dir as) := by
  induction as with
  | nil => exact .pure _
  | cons a as ih =>
    obtain ⟨hfile, hfiles⟩ := List.forall_mem_cons.mp hfile
    refine .bind (.noting hfile) fun found => ?_
    cases found with
    | false => exact .pure _
    | true => exact ih hfiles

theorem deliverEach_addsOnly
    (hcopy : ∀ a ∈ as, ∀ answer, P (.copy (dir.join a.source) (dest.child a.deliveredAs) answer)) :
    AddsOnly P (ArtifactSet.deliverEach fs.observed dir dest as) := by
  induction as with
  | nil => exact .pure _
  | cons a as ih =>
    obtain ⟨hcopy, hcopies⟩ := List.forall_mem_cons.mp hcopy
    refine .bind (.noting hcopy) fun copied => ?_
    cases copied with
    | error f => exact .pure _
    | ok _ =>
      refine (ih hcopies).bind fun rest => ?_
      cases rest <;> exact .pure _

theorem deliver_addsOnly {set : ArtifactSet}
    (hmake : ∀ answer, P (.createDirectories dest answer))
    (hcopy : ∀ a ∈ set.toList, ∀ answer,
      P (.copy (dir.join a.source) (dest.child a.deliveredAs) answer)) :
    AddsOnly P (set.deliver fs.observed dir dest) := by
  refine .bind (.noting hmake) fun made => ?_
  cases made with
  | error f => exact .pure _
  | ok _ => exact deliverEach_addsOnly fs hcopy

theorem refresh_addsOnly {ws : Workspace} {marker : String}
    (hlook : ∀ answer, P (.isPresent (ws.directory.child marker) answer)) :
    AddsOnly P (ws.refresh fs.observed marker) :=
  .bind (.noting hlook) fun _ => .pure _

end Steps

end FirmwareMatrix
