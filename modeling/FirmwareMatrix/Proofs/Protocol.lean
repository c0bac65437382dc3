import FirmwareMatrix.Proofs.Observed
import FirmwareMatrix.Proofs.Turns

/-! # The protocol of a run

What an observed run asks of its world falls into one block for each board. A block starts with a
look at the marker; the answer and the target of the board before decide on the set-up command,
and what came of that and of clearing the outputs decides on the build. The result of the board
says which of its commands, if any, failed. -/

namespace FirmwareMatrix

variable {σ : Type}

/-- Whether a file among those to be removed was not removed. -/
def refused (events : List (Event σ)) : Bool := events.any Event.isRefusedRemoval

@[simp] theorem refused_append (es es' : List (Event σ)) :
    refused (es ++ es') = (refused es || refused es') :=
  List.any_append

@[simp] theorem refused_ran (call : Call σ) (es : List (Event σ)) :
    refused (.ran call :: es) = refused es := rfl

/-- No command is run and nothing that is to be removed stays. -/
def Quiet (events : List (Event σ)) : Prop := calls events = [] ∧ refused events = false

theorem Quiet.nil : Quiet ([] : List (Event σ)) := ⟨rfl, rfl⟩

theorem Quiet.append {es es' : List (Event σ)} (h : Quiet es) (h' : Quiet es') :
    Quiet (es ++ es') :=
  ⟨by simp [h.1, h'.1], by simp [h.2, h'.2]⟩

theorem Quiet.of_forall {es : List (Event σ)}
    (h : ∀ e ∈ es, e.call? = none ∧ e.isRefusedRemoval = false) : Quiet es := by
  refine ⟨List.filterMap_eq_nil_iff.mpr fun e he => (h e he).1, ?_⟩
  exact List.any_eq_false.mpr fun e he => by simp [(h e he).2]

theorem Quiet.calls_ran {es es' : List (Event σ)} (h : Quiet es) (h' : Quiet es') (call : Call σ) :
    calls (es ++ .ran call :: es') = [call] := by
  simp [h.1, h'.1]

/-- The files that the tool writes its outputs to. -/
def Layout.outputs (layout : Layout) : List Path :=
  layout.artifacts.toList.map fun a => layout.buildDir.join a.source

/-- What clearing files asks, in order: of each whether it is there and, if so, for its removal. A
removal that is refused is the last thing asked. -/
inductive Clearing : List Path → List (Event σ) → Prop
  | done : Clearing [] []
  | absent {p : Path} {ps : List Path} {es : List (Event σ)} (rest : Clearing ps es) :
    Clearing (p :: ps) (.isFile p false :: es)
  | removed {p : Path} {ps : List Path} {es : List (Event σ)} (rest : Clearing ps es) :
    Clearing (p :: ps) (.isFile p true :: .removeFile p (.ok ()) :: es)
  | refused (p : Path) (ps : List Path) (f : Failure) :
    Clearing (p :: ps) [.isFile p true, .removeFile p (.error f)]

theorem Clearing.calls_eq {ps : List Path} {es : List (Event σ)} (h : Clearing ps es) :
    calls es = [] := by
  induction h with
  | done | refused => rfl
  | absent _ ih | removed _ ih => exact ih

/-! ## What the steps add -/

section Adds

variable {α β : Type} (fs : FileSystem σ) (dir dest : Path)

/-- Clearing fails exactly if a removal is refused. -/
theorem clearEach_adds (as : List Artifact) :
    Adds (fun r es => Clearing (as.map fun a => dir.join a.source) es ∧
      (refused es = true ↔ ∃ f, r = .error f)) (ArtifactSet.clearEach fs.observed dir as) := by
  induction as with
  | nil => exact .pure ⟨.done, by simp [refused]⟩
  | cons a as ih =>
    refine .bind (P := fun found es => es = [.isFile (dir.join a.source) found])
      (.noting fun _ => rfl) fun found es hes => ?_
    subst hes
    cases found with
    | false => exact ih.mono fun r es' h => ⟨.absent h.1, h.2⟩
    | true =>
      refine .bind (P := fun r es => es = [.removeFile (dir.join a.source) r])
        (.noting fun _ => rfl) fun removed es hes => ?_
      subst hes
      cases removed with
      | error f => exact .pure ⟨.refused _ _ f, by simp [refused, Event.isRefusedRemoval]⟩
      | ok u => exact ih.mono fun r es' h => ⟨.removed h.1, h.2⟩

theorem firstMissing?_adds (as : List Artifact) :
    Adds (fun _ es => Quiet es) (ArtifactSet.firstMissing? fs.observed dir as) :=
  (firstMissing?_addsOnly fs fun _ _ _ => ⟨rfl, rfl⟩).mono fun _ _ => .of_forall

theorem deliver_adds (set : ArtifactSet) :
    Adds (fun _ es => Quiet es) (set.deliver fs.observed dir dest) :=
  (deliver_addsOnly fs (fun _ => ⟨rfl, rfl⟩) fun _ _ _ => ⟨rfl, rfl⟩).mono fun _ _ => .of_forall

theorem refresh_adds (ws : Workspace) (marker : String) :
    Adds (fun ws' es => ws' = { ws with fresh := ws'.fresh } ∧
      es = [.isPresent (ws.directory.child marker) (!ws'.fresh)])
      (ws.refresh fs.observed marker) := by
  refine .bind (P := fun present es => es = [.isPresent (ws.directory.child marker) present])
    (.noting fun _ => rfl) fun present es hes => .pure ?_
  exact ⟨rfl, by simp [hes]⟩

end Adds

theorem Runner.Ends.world {runner : Runner σ} {c : Command} {w w' : Observed σ} {e : Ending}
    (h : runner.observed.Ends c w e w') : runner.Ends c w.world e w'.world := by
  obtain ⟨screen, screen', h⟩ := h
  cases h
  exact ⟨screen, _, rfl⟩

theorem Runner.Ends.events {runner : Runner σ} {c : Command} {w w' : Observed σ} {e : Ending}
    (h : runner.observed.Ends c w e w') :
    w'.events = w.events ++ [.ran ⟨c, w.world, e, w'.world⟩] := by
  obtain ⟨screen, screen', h⟩ := h
  cases h
  rfl

theorem Runner.Ends.grows {P : Event σ → Prop} {runner : Runner σ} {c : Command}
    {w w' : Observed σ} {e : Ending} (h : runner.observed.Ends c w e w')
    (hran : ∀ call, P (.ran call)) : w.Grows P w' :=
  ⟨_, h.events, List.forall_mem_singleton.mpr (hran _)⟩

namespace Matrix

variable {fs : FileSystem σ} {runner : Runner σ} {layout : Layout} {ws ws' : Workspace} {b : Board}
  {w w' : Observed σ} {cs : List Command}

theorem Collects.quiet {r : BoardResult} (h : Collects fs.observed layout b w r w') :
    ∃ es, w'.events = w.events ++ es ∧ Quiet es := by
  cases h with
  | leftOut missing => exact (firstMissing?_adds fs _ _).result missing
  | notCopied complete deliver | delivered complete deliver =>
    obtain ⟨es, hes, hq⟩ := (firstMissing?_adds fs _ _).result complete
    obtain ⟨es', hes', hq'⟩ := (deliver_adds fs _ _ _).result deliver
    exact ⟨es ++ es', by rw [hes', hes, List.append_assoc], hq.append hq'⟩

/-- What clearing, building and collecting add, and how the result shows in it. -/
structure BuildPart (outputs : List Path) (b : Board) (es : List (Event σ))
    (build : Option (Call σ)) (r : Option BoardResult) : Prop where
  calls : calls es = build.toList
  asked : ∃ cleared collected, es = cleared ++ ((build.map .ran).toList ++ collected) ∧
    Clearing outputs cleared ∧ (build = none → collected = [])
  command : build.map Call.command = if refused es then none else some (.build b.name)
  cleared : (∃ reason, r = some (.clearFailed reason)) ↔ refused es = true
  failed n : r = some (.buildFailed n) ↔ ∃ c ∈ build, c.ending.code? = some n ∧ n ≠ 0
  configured n : r ≠ some (.configureFailed n)
  hung : r = none ↔ ∃ c ∈ build, c.ending.code? = none

theorem BuildPart.of_call {outputs : List Path} {es es' : List (Event σ)} {call : Call σ}
    {r : Option BoardResult} (clearing : Clearing outputs es) (hes : Quiet es) (hes' : Quiet es')
    (hc : call.command = .build b.name)
    (failed : ∀ n, r = some (.buildFailed n) ↔ call.ending.code? = some n ∧ n ≠ 0)
    (hung : r = none ↔ call.ending.code? = none) (cleared : ∀ reason, r ≠ some (.clearFailed reason))
    (configured : ∀ n, r ≠ some (.configureFailed n)) :
    BuildPart outputs b (es ++ .ran call :: es') (some call) r where
  calls := hes.calls_ran hes' call
  asked := ⟨es, es', rfl, clearing, by simp⟩
  command := by simp [hes.2, hes'.2, hc]
  cleared := by simp [hes.2, hes'.2, cleared]
  failed := by simpa using failed
  configured := configured
  hung := by simpa using hung

theorem Collects.ne_failed {r : BoardResult} (h : Collects fs.observed layout b w r w') :
    (∀ reason, r ≠ .clearFailed reason) ∧ (∀ n, r ≠ .buildFailed n) ∧
      ∀ n, r ≠ .configureFailed n := by
  cases h <;> simp

theorem clear_quiet {u : Unit}
    (h : layout.artifacts.clear fs.observed layout.buildDir w = (.ok u, w')) :
    ∃ es, w'.events = w.events ++ es ∧ Clearing layout.outputs es ∧ Quiet es := by
  obtain ⟨es, hes, hc, hr⟩ := (clearEach_adds fs _ _).result h
  exact ⟨es, hes, hc, hc.calls_eq, by simpa using mt hr.mp (by simp)⟩

theorem Builds.part {r : Option BoardResult}
    (h : Builds fs.observed runner.observed layout b w cs r w') :
    ∃ es build, w'.events = w.events ++ es ∧ BuildPart layout.outputs b es build r := by
  cases h with
  | notCleared clear =>
    obtain ⟨es, hes, hc, hr⟩ := (clearEach_adds fs _ _).result clear
    have hr := hr.mpr ⟨_, rfl⟩
    exact ⟨es, none, hes, hc.calls_eq, ⟨es, [], by simp, hc, fun _ => rfl⟩, by simp [hr],
      by simp [hr], by simp, by simp, by simp⟩
  | hung clear ends code =>
    obtain ⟨es, hes, hclearing, hq⟩ := clear_quiet clear
    refine ⟨_, _, by rw [ends.events, hes, List.append_assoc],
      .of_call hclearing hq .nil rfl ?_ ?_ ?_ ?_⟩ <;> simp [code]
  | failed clear ends code nonzero =>
    obtain ⟨es, hes, hclearing, hq⟩ := clear_quiet clear
    refine ⟨_, _, by rw [ends.events, hes, List.append_assoc],
      .of_call hclearing hq .nil rfl (fun n => ?_) ?_ ?_ ?_⟩ <;> simp [code]
    exact fun hn => hn ▸ nonzero
  | built clear ends code collects =>
    obtain ⟨es, hes, hclearing, hq⟩ := clear_quiet clear
    obtain ⟨es', hes', hq'⟩ := collects.quiet
    obtain ⟨h₁, h₂, h₃⟩ := collects.ne_failed
    refine ⟨_, _, by rw [hes', ends.events, hes, List.append_assoc, List.append_assoc]; rfl,
      .of_call hclearing hq hq' rfl ?_ ?_ ?_ ?_⟩ <;> simp [code, h₁, h₂, h₃]

theorem BuildPart.command_eq {outputs : List Path} {es : List (Event σ)} {build : Option (Call σ)}
    {r : Option BoardResult} (h : BuildPart outputs b es build r) {c : Call σ}
    (hc : build = some c) : c.command = .build b.name := by
  have hcommand := h.command
  rw [hc] at hcommand
  split at hcommand
  · cases hcommand
  · exact Option.some.inj hcommand

/-! ## Blocks -/

/-- What is asked of the world while one board has its turn. -/
structure Block (σ : Type) where
  board : Board
  /-- The target of the board before; for the first board, the one that was found. -/
  previous : Option String
  /-- Whether the marker was there at the start. -/
  present : Bool
  events : List (Event σ)
  setUp : Option (Call σ)
  build : Option (Call σ)
  /-- None while a command of the board is running. -/
  result : Option BoardResult

namespace Block

def calls (k : Block σ) : List (Call σ) := k.setUp.toList ++ k.build.toList

/-- The set-up command that the board needs. -/
def step? (k : Block σ) : Option Command :=
  if k.present then
    if k.previous = some k.board.target then none
    else some (.retarget k.board.name k.board.target)
  else some (.configureFresh k.board.name k.board.target)

/-- The set-up, if there was one, succeeded. -/
def IsSetUp (k : Block σ) : Prop := ∀ c ∈ k.setUp, c.ending.code? = some 0

instance (k : Block σ) : Decidable k.IsSetUp :=
  inferInstanceAs (Decidable (∀ c ∈ k.setUp, c.ending.code? = some 0))

/-- The directory is set up and no output of an earlier build is left. -/
def Ready (k : Block σ) : Prop := k.IsSetUp ∧ refused k.events = false

instance (k : Block σ) : Decidable k.Ready := inferInstanceAs (Decidable (_ ∧ _))

def outcome? (k : Block σ) : Option Outcome := k.result.map fun r => ⟨k.board.name, r⟩

/-- The block keeps to the protocol. -/
structure Sound (outputs : List Path) (marker : Path) (k : Block σ) : Prop where
  looks : k.events.head? = some (.isPresent marker k.present)
  /-- After the set-up each output is asked about and cleared, and only then comes the build. -/
  asked : ∃ cleared collected,
    k.events = .isPresent marker k.present ::
      ((k.setUp.map .ran).toList ++ (cleared ++ ((k.build.map .ran).toList ++ collected))) ∧
    (k.IsSetUp → Clearing outputs cleared) ∧ (¬ k.IsSetUp → cleared = []) ∧
    (k.build = none → collected = [])
  calls_eq : FirmwareMatrix.calls k.events = k.calls
  setUp_eq : k.setUp.map Call.command = k.step?
  build_eq : k.build.map Call.command = if k.Ready then some (.build k.board.name) else none
  configureFailed n : k.result = some (.configureFailed n) ↔
    ∃ c, k.calls.getLast? = some c ∧ c.command.isConfigure = true ∧ c.ending.code? = some n ∧ n ≠ 0
  buildFailed n : k.result = some (.buildFailed n) ↔
    ∃ c, k.calls.getLast? = some c ∧ c.command.isConfigure = false ∧ c.ending.code? = some n ∧ n ≠ 0
  clearFailed : (∃ reason, k.result = some (.clearFailed reason)) ↔ refused k.events = true
  hung : k.result = none ↔ ∃ c, k.calls.getLast? = some c ∧ c.ending.code? = none

theorem getLast?_calls (k : Block σ) : k.calls.getLast? = k.build.or k.setUp := by
  unfold calls
  cases k.build <;> cases k.setUp <;> rfl

theorem isConfigure_of_step {k : Block σ} {c : Command} (h : k.step? = some c) :
    c.isConfigure = true := by
  unfold step? at h
  split at h
  · split at h
    · cases h
    · cases h
      rfl
  · cases h
    rfl

theorem isConfigure_setUp {k : Block σ} (hstep : k.setUp.map Call.command = k.step?) {c : Call σ}
    (hc : k.setUp = some c) : c.command.isConfigure = true := by
  rw [hc] at hstep
  exact isConfigure_of_step hstep.symm

/-- A board whose directory is set up goes on to its build. -/
theorem Sound.of_part {outputs : List Path} {marker : Path} {k : Block σ} {es : List (Event σ)}
    (hevents : k.events = .isPresent marker k.present :: ((k.setUp.map .ran).toList ++ es))
    (hstep : k.setUp.map Call.command = k.step?)
    (hok : k.IsSetUp) (part : BuildPart outputs k.board es k.build k.result) :
    k.Sound outputs marker := by
  have hrefused : refused k.events = refused es := by
    rw [hevents]
    cases k.setUp <;> rfl
  have hready : k.Ready ↔ refused es = false := by
    rw [Ready, hrefused]
    exact and_iff_right hok
  have hbuild {c : Call σ} (hc : k.build = some c) : c.command.isConfigure = false := by
    rw [part.command_eq hc]
    rfl
  have hcalls : FirmwareMatrix.calls k.events = k.calls := by
    rw [hevents, calls, ← part.calls]
    cases k.setUp <;> rfl
  have last {c : Call σ} (hc : k.calls.getLast? = some c) :
      k.build = some c ∨ k.build = none ∧ k.setUp = some c := by
    rw [getLast?_calls] at hc
    simpa [and_comm] using Option.or_eq_some_iff.mp hc
  obtain ⟨cleared, collected, hes, clearing, hcollected⟩ := part.asked
  refine ⟨by rw [hevents]; rfl,
    ⟨cleared, collected, hes ▸ hevents, fun _ => clearing, fun h => absurd hok h, hcollected⟩,
    hcalls, hstep, ?_, fun n => ?_, fun n => ?_, ?_, ?_⟩
  · rw [part.command]
    cases hr : refused es <;> simp [hready, hr]
  · refine iff_of_false (part.configured n) ?_
    rintro ⟨c, hc, hcmd, hcode, hn⟩
    rcases last hc with hb | ⟨-, hs⟩
    · rw [hbuild hb] at hcmd
      cases hcmd
    · rw [hok c hs] at hcode
      exact hn (Option.some.inj hcode).symm
  · rw [part.failed n]
    constructor
    · rintro ⟨c, hc, hcode⟩
      exact ⟨c, by rw [getLast?_calls, hc]; rfl, hbuild hc, hcode⟩
    · rintro ⟨c, hc, hcmd, hcode⟩
      rcases last hc with hb | ⟨-, hs⟩
      · exact ⟨c, hb, hcode⟩
      · rw [isConfigure_setUp hstep hs] at hcmd
        cases hcmd
  · rw [hrefused]
    exact part.cleared
  · rw [part.hung]
    constructor
    · rintro ⟨c, hc, hcode⟩
      exact ⟨c, by rw [getLast?_calls, hc]; rfl, hcode⟩
    · rintro ⟨c, hc, hcode⟩
      rcases last hc with hb | ⟨-, hs⟩
      · exact ⟨c, hb, hcode⟩
      · rw [hok c hs] at hcode
        cases hcode

/-- A board whose directory is not set up is done, or not even that. -/
theorem Sound.of_stop {outputs : List Path} {marker : Path} {k : Block σ} {c : Call σ}
    (hevents : k.events = [.isPresent marker k.present, .ran c]) (hsetUp : k.setUp = some c)
    (hstep : k.setUp.map Call.command = k.step?) (hbuild : k.build = none)
    (code : c.ending.code? ≠ some 0) (hresult : k.result = c.ending.code?.map .configureFailed) :
    k.Sound outputs marker := by
  have hlast : k.calls.getLast? = some c := by rw [getLast?_calls, hbuild, hsetUp]; rfl
  have hset : ¬ k.IsSetUp := fun h => code (h c hsetUp)
  have hready : ¬ k.Ready := fun h => hset h.1
  have hconf := isConfigure_setUp hstep hsetUp
  refine ⟨by rw [hevents]; rfl,
    ⟨[], [], by rw [hevents, hsetUp, hbuild]; rfl, fun h => absurd h hset, fun _ => rfl,
      fun _ => rfl⟩, by rw [hevents, calls, hsetUp, hbuild]; rfl, hstep,
    by rw [hbuild, if_neg hready]; rfl, fun n => ?_, fun n => ?_, ?_, ?_⟩
  · have hn : c.ending.code? = some n → n ≠ 0 := by
      rintro hc rfl
      exact code hc
    simpa [hlast, hconf, hresult] using hn
  · simp [hlast, hconf, hresult]
  · have hkept : refused k.events = false := by rw [hevents]; rfl
    simp [hkept, hresult]
  · simp [hlast, hresult]

end Block

theorem refresh_event {w₁ : Observed σ}
    (h : ws.refresh fs.observed layout.marker w = (ws', w₁)) :
    ws'.directory = ws.directory ∧ ws'.previous = ws.previous ∧
      w₁.events = w.events ++ [.isPresent (ws.directory.child layout.marker) (!ws'.fresh)] := by
  obtain ⟨es, hes, hws, rfl⟩ := (refresh_adds fs ws layout.marker).result h
  rw [hws]
  exact ⟨rfl, rfl, hes⟩

/-- A turn adds what is asked for after the look at the marker. -/
theorem Turn.sound {r : Option BoardResult}
    (h : Turn fs.observed runner.observed layout ws b w cs r w') (marker : Path) :
    ∃ es setUp build, w'.events = w.events ++ es ∧ Block.Sound layout.outputs marker
      ⟨b, ws.previous, !ws.fresh, .isPresent marker (!ws.fresh) :: es, setUp, build, r⟩ := by
  have hstep (es : List (Event σ)) (setUp build : Option (Call σ)) :
      (ws.plan b).configure =
        Block.step? ⟨b, ws.previous, !ws.fresh, es, setUp, build, r⟩ := by
    cases hf : ws.fresh <;> simp [Workspace.plan, Block.step?, Workspace.targetChanged, hf]
  cases h with
  | asFound plan builds =>
    obtain ⟨es, build, hes, part⟩ := builds.part
    exact ⟨es, none, build, hes, .of_part rfl (plan.symm.trans (hstep _ _ _))
      (by simp [Block.IsSetUp]) part⟩
  | hung plan ends code =>
    exact ⟨_, some _, none, ends.events,
      .of_stop rfl rfl (plan.symm.trans (hstep _ _ _)) rfl (by simp [code]) (by simp [code])⟩
  | notSetUp plan ends code nonzero =>
    exact ⟨_, some _, none, ends.events,
      .of_stop rfl rfl (plan.symm.trans (hstep _ _ _)) rfl (by simp [code, nonzero])
        (by simp [code])⟩
  | @setUp c e w₁ _ _ _ plan ends code builds =>
    obtain ⟨es, build, hes, part⟩ := builds.part
    refine ⟨.ran ⟨c, w.world, e, w₁.world⟩ :: es, some ⟨c, w.world, e, w₁.world⟩, build, ?_,
      .of_part rfl (plan.symm.trans (hstep _ _ _)) ?_ part⟩
    · rw [hes, ends.events, List.append_assoc, List.singleton_append]
    · simpa [Block.IsSetUp] using code

/-- A look at the marker and a turn are a block that keeps to the protocol. -/
theorem Turn.block {w₁ : Observed σ} {r : Option BoardResult}
    (look : ws.refresh fs.observed layout.marker w = (ws', w₁))
    (turn : Turn fs.observed runner.observed layout ws' b w₁ cs r w') :
    ∃ k : Block σ, k.board = b ∧ k.previous = ws.previous ∧ k.result = r ∧
      w'.events = w.events ++ k.events ∧
      k.Sound layout.outputs (ws.directory.child layout.marker) := by
  obtain ⟨-, hprevious, hevents⟩ := refresh_event look
  obtain ⟨es, setUp, build, hes, hsound⟩ := turn.sound (ws.directory.child layout.marker)
  exact ⟨_, rfl, hprevious, rfl, by rw [hes, hevents, List.append_assoc]; rfl, hsound⟩

/-- Blocks that a run over `boards` is made of, the first of which comes after `previous`. -/
structure Runs (outputs : List Path) (marker : Path) (previous : Option String)
    (boards : List Board) (fin : Bool) (events : List (Event σ)) (outs : List Outcome)
    (blocks : List (Block σ)) : Prop where
  events_eq : events = blocks.flatMap Block.events
  sound : ∀ k ∈ blocks, k.Sound outputs marker
  boards_prefix : blocks.map Block.board <+: boards
  previous_prefix : blocks.map Block.previous <+: previous :: boards.map fun b => some b.target
  outcomes_eq : outs = blocks.filterMap Block.outcome?
  finished : fin = true → blocks.length = boards.length ∧ ∀ k ∈ blocks, k.result ≠ none
  hung : fin = false → ∃ k, blocks.getLast? = some k ∧ k.result = none

theorem Runs.nil (outputs : List Path) (marker : Path) (previous : Option String) :
    Runs (σ := σ) outputs marker previous [] true [] [] [] :=
  ⟨rfl, by simp, List.nil_prefix, List.nil_prefix, rfl, by simp, by simp⟩

theorem Runs.hang {outputs : List Path} {marker : Path} {k : Block σ} {boards : List Board}
    (hb : k.board = b) (hr : k.result = none) (hsound : k.Sound outputs marker) :
    Runs outputs marker k.previous (b :: boards) false k.events [] [k] :=
  ⟨by simp, by simpa using hsound, by simp [hb], by simp, by simp [Block.outcome?, hr], by simp,
    fun _ => ⟨k, rfl, hr⟩⟩

theorem Runs.cons {outputs : List Path} {marker : Path} {k : Block σ} {boards : List Board}
    {r : BoardResult} {fin : Bool} {events : List (Event σ)} {outs : List Outcome}
    {blocks : List (Block σ)}
    (hb : k.board = b) (hr : k.result = some r) (hsound : k.Sound outputs marker)
    (h : Runs outputs marker (some b.target) boards fin events outs blocks) :
    Runs outputs marker k.previous (b :: boards) fin (k.events ++ events) (⟨b.name, r⟩ :: outs)
      (k :: blocks) := by
  constructor
  · rw [h.events_eq, List.flatMap_cons]
  · exact List.forall_mem_cons.mpr ⟨hsound, h.sound⟩
  · rw [List.map_cons, hb]
    exact List.cons_prefix_cons.mpr ⟨rfl, h.boards_prefix⟩
  · exact List.cons_prefix_cons.mpr ⟨rfl, h.previous_prefix⟩
  · rw [h.outcomes_eq, List.filterMap_cons, Block.outcome?, hr, hb]
    rfl
  · intro hfin
    obtain ⟨hlength, hall⟩ := h.finished hfin
    exact ⟨congrArg (· + 1) hlength, List.forall_mem_cons.mpr ⟨by simp [hr], hall⟩⟩
  · intro hfin
    obtain ⟨l, hl, hres⟩ := h.hung hfin
    exact ⟨l, by simp [List.getLast?_cons, hl], hres⟩

/-- A run is a sequence of blocks. -/
theorem Turns.runs {boards : List Board} {outs : List Outcome} {fin : Bool}
    (h : Turns fs.observed runner.observed layout ws w boards cs outs fin ws' w') :
    ∃ events blocks, w'.events = w.events ++ events ∧
      Runs layout.outputs (ws.directory.child layout.marker) ws.previous boards fin events outs
        blocks := by
  induction h with
  | done => exact ⟨[], [], (List.append_nil _).symm, .nil _ _ _⟩
  | hung look turn =>
    obtain ⟨k, hb, hp, hr, hevents, hsound⟩ := turn.block look
    exact ⟨k.events, [k], hevents, hp ▸ .hang hb hr hsound⟩
  | @next ws w ws₁ w₁ b boards cs r w₂ cs' outs fin ws' w' look turn rest ih =>
    obtain ⟨k, hb, hp, hr, hevents, hsound⟩ := turn.block look
    obtain ⟨events, blocks, hevents', hruns⟩ := ih
    have hdir : (ws₁.record b.target).directory = ws.directory := (refresh_event look).1
    rw [hdir] at hruns
    exact ⟨k.events ++ events, k :: blocks, by rw [hevents', hevents, List.append_assoc],
      hp ▸ .cons hb hr hsound hruns⟩

/-- Turns in which every command ends come to the last board. -/
theorem Turns.finished_of_smooth {boards : List Board} {outs : List Outcome} {fin : Bool}
    (h : Turns fs.observed runner.observed layout ws w boards cs outs fin ws' w')
    (smooth : Smooth (calls w'.events)) : fin = true := by
  cases fin with
  | true => rfl
  | false =>
    obtain ⟨events, blocks, hevents, hruns⟩ := h.runs
    obtain ⟨k, hk, hres⟩ := hruns.hung rfl
    have hmem := List.mem_of_getLast? hk
    have hsound := hruns.sound k hmem
    obtain ⟨c, hc, hcode⟩ := hsound.hung.mp hres
    have hcalls : c ∈ FirmwareMatrix.calls k.events := by
      rw [hsound.calls_eq]
      exact List.mem_of_getLast? hc
    have hcalled : c ∈ FirmwareMatrix.calls w'.events := by
      rw [hevents, calls_append, hruns.events_eq, List.mem_append]
      obtain ⟨e, he, hec⟩ := List.mem_filterMap.mp hcalls
      exact .inr (List.mem_filterMap.mpr ⟨e, List.mem_flatMap.mpr ⟨k, hmem, he⟩, hec⟩)
    exact absurd hcode (smooth c hcalled).1

/-- Every command of a block names its board. -/
theorem Block.Sound.boardName_eq {outputs : List Path} {marker : Path} {k : Block σ}
    (h : k.Sound outputs marker) {c : Call σ} (hc : c ∈ FirmwareMatrix.calls k.events) :
    c.command.boardName = k.board.name := by
  rw [h.calls_eq] at hc
  rcases List.mem_append.mp hc with hs | hb
  · have hstep := h.setUp_eq
    rw [Option.mem_toList.mp hs, Block.step?] at hstep
    split at hstep
    · split at hstep
      · cases hstep
      · rw [Option.some.inj hstep]
        rfl
    · rw [Option.some.inj hstep]
      rfl
  · have hbuild := h.build_eq
    rw [Option.mem_toList.mp hb] at hbuild
    split at hbuild
    · rw [Option.some.inj hbuild]
      rfl
    · cases hbuild

/-- A board that is done is not waiting for any of its commands. -/
theorem Block.Sound.ended {outputs : List Path} {marker : Path} {k : Block σ}
    (h : k.Sound outputs marker) (hr : k.result ≠ none) : ∀ c ∈ k.calls, c.ending.code? ≠ none := by
  intro c hc hcode
  have hnot := mt h.hung.mpr hr
  rw [getLast?_calls] at hnot
  rcases List.mem_append.mp hc with hs | hb
  · have hs : k.setUp = some c := Option.mem_toList.mp hs
    cases hb : k.build with
    | none => exact hnot ⟨c, by rw [hb, hs]; rfl, hcode⟩
    | some call =>
      -- a board that was built was set up
      have hbuild := h.build_eq
      rw [hb] at hbuild
      split at hbuild
      · next hready =>
        rw [hready.1 c hs] at hcode
        cases hcode
      · cases hbuild
  · have hb : k.build = some c := Option.mem_toList.mp hb
    exact hnot ⟨c, by rw [hb]; rfl, hcode⟩

theorem getLast?_flatMap_calls {blocks : List (Block σ)} {k : Block σ} {c : Call σ}
    (hk : blocks.getLast? = some k) (hc : k.calls.getLast? = some c) :
    (blocks.flatMap Block.calls).getLast? = some c := by
  obtain ⟨init, rfl⟩ := List.getLast?_eq_some_iff.mp hk
  simp [List.flatMap_append, List.getLast?_append, hc]

theorem outcomes_of_finished {blocks : List (Block σ)} (h : ∀ k ∈ blocks, k.result ≠ none) :
    (blocks.filterMap Block.outcome?).map Outcome.board =
      (blocks.map Block.board).map Board.name := by
  induction blocks with
  | nil => rfl
  | cons k blocks ih =>
    obtain ⟨hk, hblocks⟩ := List.forall_mem_cons.mp h
    obtain ⟨r, hr⟩ := Option.ne_none_iff_exists'.mp hk
    have ho : k.outcome? = some ⟨k.board.name, r⟩ := by rw [Block.outcome?, hr]; rfl
    rw [List.filterMap_cons, ho, List.map_cons, ih hblocks]
    rfl

/-- The session of a run that has not begun, in a world of which nothing has been asked. -/
def unbegun (ws : Workspace) (w : σ) (screen : Screen) : Session (Observed σ) :=
  ⟨⟨w, []⟩, ws, [], [], screen⟩

/-- A run that ends with `summary` in `s` is made of `blocks`, one for each board in order, up to
the board whose command is still running if there is one. -/
structure KeepsProtocol (outputs : List Path) (marker : Path) (previous : Option String)
    (boards : List Board) (summary : Option Summary) (s : Session (Observed σ))
    (blocks : List (Block σ)) : Prop where
  sound : ∀ k ∈ blocks, k.Sound outputs marker
  events_prefix : blocks.flatMap Block.events <+: s.world.events
  calls_eq : calls s.world.events = blocks.flatMap Block.calls
  boards_prefix : blocks.map Block.board <+: boards
  previous_prefix : blocks.map Block.previous <+: previous :: boards.map fun b => some b.target
  outcomes_eq : s.outcomes = blocks.filterMap Block.outcome?
  finished : ∀ sum ∈ summary, sum.outcomes = s.outcomes ∧ blocks.map Block.board = boards ∧
    s.outcomes.map Outcome.board = boards.map Board.name ∧
      ∀ c ∈ calls s.world.events, c.ending.code? ≠ none
  hung : summary = none → ∃ c, (calls s.world.events).getLast? = some c ∧ c.ending.code? = none

theorem Runs.keepsProtocol {outputs : List Path} {marker : Path} {previous : Option String}
    {boards : List Board} {blocks : List (Block σ)} {s s₁ : Session (Observed σ)}
    {summary : Option Summary}
    (h : Runs outputs marker previous boards summary.isSome s₁.world.events s₁.outcomes blocks)
    (hend : Closes fs.observed layout boards.length s₁ summary s) :
    KeepsProtocol outputs marker previous boards summary s blocks := by
  have hcalls : calls s₁.world.events = blocks.flatMap Block.calls := by
    rw [h.events_eq, calls, List.filterMap_flatMap, List.flatMap_def, List.flatMap_def]
    exact congrArg _ (List.map_congr_left fun k hk => (h.sound k hk).calls_eq)
  cases summary with
  | none =>
    obtain rfl : s = s₁ := hend
    obtain ⟨k, hk, hres⟩ := h.hung rfl
    obtain ⟨c, hc, hcode⟩ := (h.sound k (List.mem_of_getLast? hk)).hung.mp hres
    exact ⟨h.sound, h.events_eq ▸ List.prefix_refl _, hcalls, h.boards_prefix,
      h.previous_prefix, h.outcomes_eq, by simp,
      fun _ => ⟨c, by rw [hcalls]; exact getLast?_flatMap_calls hk hc, hcode⟩⟩
  | some sum =>
    obtain ⟨⟨dir, rfl⟩, rfl⟩ := summarize_eq hend
    obtain ⟨hlength, hall⟩ := h.finished rfl
    have hboards : blocks.map Block.board = boards :=
      h.boards_prefix.eq_of_length (by simpa using hlength)
    have hclosing : calls (fs.observed.canonicalize layout.outputDir s₁.world).2.events =
        blocks.flatMap Block.calls := by
      rw [← hcalls]
      exact (calls_append _ _).trans (List.append_nil _)
    refine ⟨h.sound, ?_, hclosing, h.boards_prefix, h.previous_prefix, h.outcomes_eq, ?_, by simp⟩
    · rw [← h.events_eq]
      exact List.prefix_append _ _
    · rintro _ ⟨⟩
      refine ⟨rfl, hboards, ?_, ?_⟩
      · rw [← hboards, ← outcomes_of_finished hall]
        exact congrArg _ h.outcomes_eq
      · intro c hc
        rw [hclosing] at hc
        obtain ⟨k, hk, hck⟩ := List.mem_flatMap.mp hc
        exact (h.sound k hk).ended (hall k hk) c hck

/-- Summing up hands over no command. -/
theorem Closes.calls_eq {boards : List Board} {s s₁ : Session (Observed σ)}
    {summary : Option Summary} (h : Closes fs.observed layout boards.length s₁ summary s) :
    calls s.world.events = calls s₁.world.events ∧ s.issued = s₁.issued := by
  cases summary with
  | none =>
    obtain rfl : s = s₁ := h
    exact ⟨rfl, rfl⟩
  | some sum =>
    obtain ⟨-, rfl⟩ := summarize_eq h
    exact ⟨(calls_append _ _).trans (List.append_nil _), rfl⟩

/-- A run in which every command ends and every set-up succeeds has a turn for every board. -/
theorem run_smooth {boards : List Board} {s s' : Session (Observed σ)} {summary : Option Summary}
    (h : run fs.observed runner.observed layout boards s = (summary, s'))
    (smooth : Smooth (calls s'.world.events)) :
    ∃ s₁ cs outs, summary.isSome = true ∧ Closes fs.observed layout boards.length s₁ summary s' ∧
      Turns fs.observed runner.observed layout s.workspace s.world boards cs outs true s₁.workspace
        s₁.world ∧
      Smooth (calls s₁.world.events) ∧
      s'.issued.map Issued.command = s.issued.map Issued.command ++ cs := by
  obtain ⟨s₁, hfrom, hend⟩ := run_eq h
  obtain ⟨cs, outs, hturns, -, hissued⟩ := runFrom_turns hfrom
  obtain ⟨hcalls, hsame⟩ := hend.calls_eq
  rw [hcalls] at smooth
  have hfin := hturns.finished_of_smooth smooth
  rw [hfin] at hturns
  exact ⟨s₁, cs, outs, hfin, hend, hturns, smooth, by rw [hsame, hissued]⟩

/-- Every run keeps to the protocol, on any file system and with any runner. -/
theorem run_keeps_protocol (fs : FileSystem σ) (runner : Runner σ) (layout : Layout)
    (boards : List Board) (ws : Workspace) (w : σ) (screen : Screen) :
    ∃ blocks, KeepsProtocol layout.outputs (ws.directory.child layout.marker) ws.previous boards
      (run fs.observed runner.observed layout boards (unbegun ws w screen)).1
      (run fs.observed runner.observed layout boards (unbegun ws w screen)).2 blocks := by
  cases h : run fs.observed runner.observed layout boards (unbegun ws w screen) with
  | mk summary s =>
    obtain ⟨s₁, hfrom, hend⟩ := run_eq h
    obtain ⟨cs, outs, hturns, houts, -⟩ := runFrom_turns hfrom
    obtain ⟨events, blocks, hevents, hruns⟩ := hturns.runs
    obtain rfl : s₁.world.events = events := hevents
    obtain rfl : s₁.outcomes = outs := houts
    exact ⟨blocks, hruns.keepsProtocol hend⟩

end Matrix

end FirmwareMatrix
