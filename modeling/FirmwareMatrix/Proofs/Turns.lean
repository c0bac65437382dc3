import FirmwareMatrix.Matrix
import FirmwareMatrix.Proofs.OutputSteps

/-! # The ways through a run

Which worlds a run passes through and which commands it hands over, whatever the screen shows. A
board's turn goes through its steps in order and leaves at the first that does not succeed; a run
is one turn after another, up to a command that does not end. -/

namespace FirmwareMatrix

variable {σ : Type}

/-- On some screen a command, started in `w`, ends as `e` and leaves `w'`. -/
def Runner.Ends (runner : Runner σ) (c : Command) (w : σ) (e : Ending) (w' : σ) : Prop :=
  ∃ screen screen', runner.run c (w, screen) = (e, w', screen')

/-! ## Plans -/

theorem Workspace.step_of_plan {ws : Workspace} {b : Board} {c : Command}
    (h : (ws.plan b).configure = some c) :
    c = .configureFresh b.name b.target ∨ c = .retarget b.name b.target := by
  simp only [plan] at h
  split at h
  · exact .inl (Option.some.inj h).symm
  · split at h
    · exact .inr (Option.some.inj h).symm
    · cases h

theorem Workspace.isConfigure_of_plan {ws : Workspace} {b : Board} {c : Command}
    (h : (ws.plan b).configure = some c) : c.isConfigure = true := by
  rcases step_of_plan h with rfl | rfl <;> rfl

theorem Workspace.previous_of_plan {ws : Workspace} {b : Board}
    (h : (ws.plan b).configure = none) : ws.fresh = false ∧ ws.previous = some b.target := by
  cases hfresh : ws.fresh with
  | true => simp [plan, hfresh] at h
  | false => exact ⟨rfl, by simpa [plan, hfresh, targetChanged] using h⟩

/-- How a command ends and what it leaves depends on the world alone. -/
def Runner.Determined (runner : Runner σ) : Prop :=
  ∀ c w e w' e' w'', runner.Ends c w e w' → runner.Ends c w e' w'' → e = e' ∧ w' = w''

namespace Matrix

variable (fs : FileSystem σ) (runner : Runner σ) (layout : Layout)

/-- Checking and delivering the outputs of a build. -/
inductive Collects (b : Board) (w : σ) : BoardResult → σ → Prop
  | leftOut {file w'} (missing : layout.artifacts.missing? fs layout.buildDir w = (some file, w')) :
    Collects b w (.missingArtifact file) w'
  | notCopied {w₁ f w'} (complete : layout.artifacts.missing? fs layout.buildDir w = (none, w₁))
      (deliver : layout.artifacts.deliver fs layout.buildDir (destination layout b) w₁ =
        (.error f, w')) :
    Collects b w (.copyFailed f.chain) w'
  | delivered {w₁ copies w'}
      (complete : layout.artifacts.missing? fs layout.buildDir w = (none, w₁))
      (deliver : layout.artifacts.deliver fs layout.buildDir (destination layout b) w₁ =
        (.ok copies, w')) :
    Collects b w .succeeded w'

/-- Clearing, building and collecting, with the commands handed over. -/
inductive Builds (b : Board) (w : σ) : List Command → Option BoardResult → σ → Prop
  | notCleared {f w'} (clear : layout.artifacts.clear fs layout.buildDir w = (.error f, w')) :
    Builds b w [] (some (.clearFailed f.chain)) w'
  | hung {w₁ e w'} (clear : layout.artifacts.clear fs layout.buildDir w = (.ok (), w₁))
      (ends : runner.Ends (.build b.name) w₁ e w') (code : e.code? = none) :
    Builds b w [.build b.name] none w'
  | failed {w₁ e n w'} (clear : layout.artifacts.clear fs layout.buildDir w = (.ok (), w₁))
      (ends : runner.Ends (.build b.name) w₁ e w') (code : e.code? = some n) (nonzero : n ≠ 0) :
    Builds b w [.build b.name] (some (.buildFailed n)) w'
  | built {w₁ e w₂ r w'} (clear : layout.artifacts.clear fs layout.buildDir w = (.ok (), w₁))
      (ends : runner.Ends (.build b.name) w₁ e w₂) (code : e.code? = some 0)
      (collects : Collects fs layout b w₂ r w') :
    Builds b w [.build b.name] (some r) w'

/-- A board's turn in a workspace that was just looked at. -/
inductive Turn (ws : Workspace) (b : Board) (w : σ) :
    List Command → Option BoardResult → σ → Prop
  | asFound {cs r w'} (plan : (ws.plan b).configure = none)
      (builds : Builds fs runner layout b w cs r w') :
    Turn ws b w cs r w'
  | hung {c e w'} (plan : (ws.plan b).configure = some c) (ends : runner.Ends c w e w')
      (code : e.code? = none) :
    Turn ws b w [c] none w'
  | notSetUp {c e n w'} (plan : (ws.plan b).configure = some c) (ends : runner.Ends c w e w')
      (code : e.code? = some n) (nonzero : n ≠ 0) :
    Turn ws b w [c] (some (.configureFailed n)) w'
  | setUp {c e w₁ cs r w'} (plan : (ws.plan b).configure = some c) (ends : runner.Ends c w e w₁)
      (code : e.code? = some 0) (builds : Builds fs runner layout b w₁ cs r w') :
    Turn ws b w (c :: cs) r w'

/-- Turn after turn. The commands and the outcomes stand in the order of the boards; a run that
is not finished hangs in a command of the board after its last outcome. -/
inductive Turns : Workspace → σ → List Board → List Command → List Outcome → Bool →
    Workspace → σ → Prop
  | done {ws w} : Turns ws w [] [] [] true ws w
  | hung {ws w ws' w₁ b boards cs w'} (look : ws.refresh fs layout.marker w = (ws', w₁))
      (turn : Turn fs runner layout ws' b w₁ cs none w') :
    Turns ws w (b :: boards) cs [] false ws' w'
  | next {ws w ws₁ w₁ b boards cs r w₂ cs' outs fin ws' w'}
      (look : ws.refresh fs layout.marker w = (ws₁, w₁))
      (turn : Turn fs runner layout ws₁ b w₁ cs (some r) w₂)
      (rest : Turns (ws₁.record b.target) w₂ boards cs' outs fin ws' w') :
    Turns ws w (b :: boards) (cs ++ cs') (⟨b.name, r⟩ :: outs) fin ws' w'

/-! ## The one way, where commands do not look at the screen -/

section Unique

variable {fs runner layout} {b : Board} {w w₁ w₂ : σ}

theorem Collects.unique {r₁ r₂ : BoardResult} (h₁ : Collects fs layout b w r₁ w₁)
    (h₂ : Collects fs layout b w r₂ w₂) : r₁ = r₂ ∧ w₁ = w₂ := by
  cases h₁ <;> cases h₂ <;> grind

variable (hdet : runner.Determined) {cs₁ cs₂ : List Command} {r₁ r₂ : Option BoardResult}

include hdet

theorem Builds.unique (h₁ : Builds fs runner layout b w cs₁ r₁ w₁)
    (h₂ : Builds fs runner layout b w cs₂ r₂ w₂) : cs₁ = cs₂ ∧ r₁ = r₂ ∧ w₁ = w₂ := by
  cases h₁ <;> cases h₂ <;> grind [Runner.Determined, Collects.unique]

theorem Turn.unique {ws : Workspace} (h₁ : Turn fs runner layout ws b w cs₁ r₁ w₁)
    (h₂ : Turn fs runner layout ws b w cs₂ r₂ w₂) : cs₁ = cs₂ ∧ r₁ = r₂ ∧ w₁ = w₂ := by
  cases h₁ <;> cases h₂ <;> grind [Runner.Determined, Builds.unique]

theorem Turns.unique {ws ws₁ ws₂ : Workspace} {boards : List Board} {outs₁ outs₂ : List Outcome}
    {fin₁ fin₂ : Bool} (h₁ : Turns fs runner layout ws w boards cs₁ outs₁ fin₁ ws₁ w₁)
    (h₂ : Turns fs runner layout ws w boards cs₂ outs₂ fin₂ ws₂ w₂) :
    cs₁ = cs₂ ∧ outs₁ = outs₂ ∧ fin₁ = fin₂ ∧ ws₁ = ws₂ ∧ w₁ = w₂ := by
  induction h₁ generalizing cs₂ outs₂ fin₂ ws₂ w₂ with
  | done =>
    cases h₂
    exact ⟨rfl, rfl, rfl, rfl, rfl⟩
  | hung look turn =>
    cases h₂ with
    | hung look' turn' =>
      obtain ⟨rfl, rfl⟩ := Prod.mk.inj (look.symm.trans look')
      obtain ⟨rfl, -, rfl⟩ := turn.unique hdet turn'
      exact ⟨rfl, rfl, rfl, rfl, rfl⟩
    | next look' turn' rest' =>
      obtain ⟨rfl, rfl⟩ := Prod.mk.inj (look.symm.trans look')
      cases (turn.unique hdet turn').2.1
  | next look turn rest ih =>
    cases h₂ with
    | hung look' turn' =>
      obtain ⟨rfl, rfl⟩ := Prod.mk.inj (look.symm.trans look')
      cases (turn.unique hdet turn').2.1
    | next look' turn' rest' =>
      obtain ⟨rfl, rfl⟩ := Prod.mk.inj (look.symm.trans look')
      obtain ⟨rfl, hr, rfl⟩ := turn.unique hdet turn'
      obtain rfl := Option.some.inj hr
      obtain ⟨rfl, rfl, rfl, rfl, rfl⟩ := ih rest'
      exact ⟨rfl, rfl, rfl, rfl, rfl⟩

end Unique

/-! ## Runs in two parts -/

section Parts

variable {fs runner layout} {ws ws₁ ws' : Workspace} {w w₁ w' : σ} {xs ys : List Board}
  {cs cs' : List Command} {outs outs' : List Outcome} {fin : Bool}

/-- A run that is finished goes on with more boards. -/
theorem Turns.append (h : Turns fs runner layout ws w xs cs outs true ws₁ w₁)
    (h' : Turns fs runner layout ws₁ w₁ ys cs' outs' fin ws' w') :
    Turns fs runner layout ws w (xs ++ ys) (cs ++ cs') (outs ++ outs') fin ws' w' := by
  generalize hfin : true = finished at h
  induction h with
  | done => exact h'
  | hung => cases hfin
  | next look turn rest ih =>
    rw [List.append_assoc]
    exact .next look turn (ih h' hfin)

end Parts

/-! ## Where a run hangs -/

section Commands

variable {fs runner layout} {b : Board} {w w' : σ} {cs : List Command} {r : Option BoardResult}

/-- A command that was waited for. -/
def Ended (runner : Runner σ) (c : Command) : Prop :=
  ∃ w e w', runner.Ends c w e w' ∧ e.code? ≠ none

/-- The commands of a turn came to an end, but for the last one of a turn without a result. -/
structure Waits (runner : Runner σ) (b : Board) (cs : List Command) (r : Option BoardResult) :
    Prop where
  boardName : ∀ c ∈ cs, c.boardName = b.name
  ended : r ≠ none → ∀ c ∈ cs, Ended runner c
  hung : r = none → ∃ init c, cs = init ++ [c] ∧ (∀ c ∈ init, Ended runner c) ∧
    ∃ w e w', runner.Ends c w e w' ∧ e.code? = none

theorem Waits.single {c : Command} {e : Ending} (hc : c.boardName = b.name)
    (ends : runner.Ends c w e w') (hr : r = none ↔ e.code? = none) : Waits runner b [c] r where
  boardName := by simpa using hc
  ended h := by
    rw [List.forall_mem_singleton]
    exact ⟨w, e, w', ends, mt hr.mpr h⟩
  hung h := ⟨[], c, rfl, by simp, w, e, w', ends, hr.mp h⟩

theorem Waits.cons {c : Command} (hc : c.boardName = b.name) (hended : Ended runner c)
    (h : Waits runner b cs r) : Waits runner b (c :: cs) r where
  boardName := List.forall_mem_cons.mpr ⟨hc, h.boardName⟩
  ended hr := List.forall_mem_cons.mpr ⟨hended, h.ended hr⟩
  hung hr := by
    obtain ⟨init, last, rfl, hinit, hlast⟩ := h.hung hr
    exact ⟨c :: init, last, rfl, List.forall_mem_cons.mpr ⟨hended, hinit⟩, hlast⟩

theorem Builds.waits (h : Builds fs runner layout b w cs r w') : Waits runner b cs r := by
  cases h with
  | notCleared clear => exact ⟨by simp, by simp, by simp⟩
  | hung clear ends code | failed clear ends code | built clear ends code =>
    exact .single rfl ends (by simp [code])

theorem Turn.waits {ws : Workspace} (h : Turn fs runner layout ws b w cs r w') :
    Waits runner b cs r := by
  have hname {c : Command} (plan : (ws.plan b).configure = some c) : c.boardName = b.name := by
    rcases Workspace.step_of_plan plan with rfl | rfl <;> rfl
  cases h with
  | asFound plan builds => exact builds.waits
  | hung plan ends code | notSetUp plan ends code =>
    exact .single (hname plan) ends (by simp [code])
  | setUp plan ends code builds =>
    exact .cons (hname plan) ⟨_, _, _, ends, by simp [code]⟩ builds.waits

/-- All commands of a run that finishes have ended. -/
theorem Turns.ended {ws ws' : Workspace} {boards : List Board} {outs : List Outcome}
    (h : Turns fs runner layout ws w boards cs outs true ws' w') : ∀ c ∈ cs, Ended runner c := by
  generalize hfin : true = fin at h
  induction h with
  | done => simp
  | hung => cases hfin
  | next look turn rest ih =>
    intro c hc
    rcases List.mem_append.mp hc with hc | hc
    · exact turn.waits.ended (by simp) c hc
    · exact ih hfin c hc

/-- A run that hangs is a finished run over the boards before, and part of the next turn. -/
theorem Turns.split {ws ws' : Workspace} {boards : List Board} {outs : List Outcome}
    (h : Turns fs runner layout ws w boards cs outs false ws' w') :
    ∃ k b ws₁ w₁ ws₂ w₂ cs₁ cs₂, boards[k]? = some b ∧
      Turns fs runner layout ws w (boards.take k) cs₁ outs true ws₁ w₁ ∧
      ws₁.refresh fs layout.marker w₁ = (ws₂, w₂) ∧
      Turn fs runner layout ws₂ b w₂ cs₂ none w' ∧ cs = cs₁ ++ cs₂ := by
  generalize hfin : false = fin at h
  induction h with
  | done => cases hfin
  | hung look turn => exact ⟨0, _, _, _, _, _, [], _, rfl, .done, look, turn, rfl⟩
  | next look turn rest ih =>
    obtain ⟨k, b, ws₁, w₁, ws₂, w₂, cs₁, cs₂, hb, hturns, hlook, hturn, rfl⟩ := ih hfin
    exact ⟨k + 1, b, ws₁, w₁, ws₂, w₂, _, cs₂, hb, .next look turn hturns, hlook, hturn,
      (List.append_assoc _ _ _).symm⟩

end Commands

/-! ## Parts of a session that a turn leaves alone -/

/-- Commands were handed over, and neither the workspace nor the outcomes changed. -/
structure Advances (s : Session σ) (cs : List Command) (s' : Session σ) : Prop where
  workspace : s'.workspace = s.workspace
  outcomes : s'.outcomes = s.outcomes
  issued : s'.issued.map Issued.command = s.issued.map Issued.command ++ cs

variable {fs runner layout} {s s₁ s' : Session σ} {b : Board} {index total : Nat}

theorem Advances.trans {cs cs' : List Command} (h : Advances s cs s₁) (h' : Advances s₁ cs' s') :
    Advances s (cs ++ cs') s' where
  workspace := h'.workspace.trans h.workspace
  outcomes := h'.outcomes.trans h.outcomes
  issued := by rw [h'.issued, h.issued, List.append_assoc]

theorem Advances.of_eq (hw : s'.workspace = s.workspace) (ho : s'.outcomes = s.outcomes)
    (hi : s'.issued = s.issued) : Advances s [] s' :=
  ⟨hw, ho, by rw [hi, List.append_nil]⟩

/-! ## What the functions of a run do -/

theorem runCommand_ends {c : Command} {code : Option Int}
    (h : runCommand runner c s = (code, s')) :
    ∃ e, runner.Ends c s.world e s'.world ∧ e.code? = code ∧ Advances s [c] s' := by
  rcases hr : runner.run c (s.world, s.screen) with ⟨e, w', screen'⟩
  have key : e.code? = code ∧ s'.world = w' ∧ Advances s [c] s' := by
    simp only [runCommand, StateM.bind_apply, issue, hr] at h
    -- only a command that could not be run is reported
    cases e <;> obtain ⟨rfl, rfl⟩ := Prod.mk.inj h <;> exact ⟨rfl, rfl, rfl, rfl, by simp⟩
  obtain ⟨hcode, hw, hadv⟩ := key
  exact ⟨e, ⟨s.screen, screen', by rw [hw]; exact hr⟩, hcode, hadv⟩

theorem collectOutputs_collects {r : BoardResult}
    (h : collectOutputs fs layout index total b s = (r, s')) :
    Collects fs layout b s.world r s'.world ∧ Advances s [] s' := by
  simp only [collectOutputs, StateM.bind_apply, onWorld] at h
  cases hm : layout.artifacts.missing? fs layout.buildDir s.world with
  | mk missing w₁ =>
    rw [hm] at h
    cases missing with
    | some file =>
      obtain ⟨rfl, rfl⟩ := Prod.mk.inj h
      exact ⟨.leftOut hm, .of_eq rfl rfl rfl⟩
    | none =>
      simp only [StateM.bind_apply, setPhase, onScreen, onWorld] at h
      cases hd : layout.artifacts.deliver fs layout.buildDir (destination layout b) w₁ with
      | mk delivered w₂ =>
        rw [hd] at h
        cases delivered with
        | error f =>
          obtain ⟨rfl, rfl⟩ := Prod.mk.inj h
          exact ⟨.notCopied hm hd, .of_eq rfl rfl rfl⟩
        | ok copies =>
          obtain ⟨rfl, rfl⟩ := Prod.mk.inj h
          exact ⟨.delivered hm hd, .of_eq rfl rfl rfl⟩

theorem buildAndCollect_builds {r : Option BoardResult}
    (h : buildAndCollect fs runner layout index total b (.build b.name) s = (r, s')) :
    ∃ cs, Builds fs runner layout b s.world cs r s'.world ∧ Advances s cs s' := by
  simp only [buildAndCollect, StateM.bind_apply, onWorld] at h
  cases hc : layout.artifacts.clear fs layout.buildDir s.world with
  | mk cleared w₁ =>
    rw [hc] at h
    cases cleared with
    | error f =>
      obtain ⟨rfl, rfl⟩ := Prod.mk.inj h
      exact ⟨[], .notCleared hc, .of_eq rfl rfl rfl⟩
    | ok u =>
      simp only [StateM.bind_apply, setPhase, onScreen] at h
      generalize hs₁ : ({ s with world := w₁, screen := _ } : Session σ) = s₁ at h
      have hadv₁ : Advances s [] s₁ := hs₁ ▸ .of_eq rfl rfl rfl
      have hw₁ : s₁.world = w₁ := by rw [← hs₁]
      cases hb : runCommand runner (.build b.name) s₁ with
      | mk code s₂ =>
        rw [hb] at h
        obtain ⟨e, hends, hcode, hadv₂⟩ := runCommand_ends hb
        rw [hw₁] at hends
        have hadv := hadv₁.trans hadv₂
        cases code with
        | none =>
          obtain ⟨rfl, rfl⟩ := Prod.mk.inj h
          exact ⟨_, .hung hc hends hcode, hadv⟩
        | some n =>
          by_cases hn : n = 0
          · subst hn
            simp only [if_true, StateM.bind_apply] at h
            cases hcol : collectOutputs fs layout index total b s₂ with
            | mk result s₃ =>
              rw [hcol] at h
              obtain ⟨rfl, rfl⟩ := Prod.mk.inj h
              obtain ⟨hcollects, hadv₃⟩ := collectOutputs_collects hcol
              exact ⟨_, .built hc hends hcode hcollects, hadv.trans hadv₃⟩
          · simp only [if_neg hn] at h
            obtain ⟨rfl, rfl⟩ := Prod.mk.inj h
            exact ⟨_, .failed hc hends hcode hn, hadv⟩

theorem configure_none {code : Option Int}
    (h : configure runner index total b none s = (code, s')) :
    code = some 0 ∧ s'.world = s.world ∧ Advances s [] s' := by
  obtain ⟨rfl, rfl⟩ := Prod.mk.inj h
  exact ⟨rfl, rfl, .of_eq rfl rfl rfl⟩

theorem configure_some {c : Command} {code : Option Int}
    (h : configure runner index total b (some c) s = (code, s')) :
    ∃ e, runner.Ends c s.world e s'.world ∧ e.code? = code ∧ Advances s [c] s' := by
  simp only [configure, StateM.bind_apply, setPhase, onScreen] at h
  obtain ⟨e, hends, hcode, hadv⟩ := runCommand_ends h
  exact ⟨e, hends, hcode, hadv.workspace, hadv.outcomes, hadv.issued⟩

theorem buildBoard_turn {r : Option BoardResult}
    (h : buildBoard fs runner layout index total b s = (r, s')) :
    ∃ ws w₁ cs, s.workspace.refresh fs layout.marker s.world = (ws, w₁) ∧
      Turn fs runner layout ws b w₁ cs r s'.world ∧
      Advances { s with workspace := ws } cs s' := by
  simp only [buildBoard, StateM.bind_apply, onScreen, onWorld] at h
  cases hl : s.workspace.refresh fs layout.marker s.world with
  | mk ws w₁ =>
    refine ⟨ws, w₁, ?_⟩
    simp only [StateM.get_apply, hl, StateM.modify_apply] at h
    generalize hs₁ : ({ s with world := w₁, workspace := ws, screen := _ } : Session σ) = s₁ at h
    have hadv₁ : Advances { s with workspace := ws } [] s₁ := hs₁ ▸ .of_eq rfl rfl rfl
    have hw₁ : s₁.world = w₁ := by rw [← hs₁]
    rw [show (ws.plan b).build = .build b.name from rfl] at h
    cases hplan : (ws.plan b).configure with
    | none =>
      rw [hplan] at h
      cases hc : configure runner index total b none s₁ with
      | mk code s₂ =>
        rw [hc] at h
        obtain ⟨rfl, hw₂, hadv₂⟩ := configure_none hc
        simp only [if_true] at h
        obtain ⟨cs, hbuilds, hadv₃⟩ := buildAndCollect_builds h
        rw [hw₂, hw₁] at hbuilds
        exact ⟨cs, rfl, .asFound hplan hbuilds, (hadv₁.trans hadv₂).trans hadv₃⟩
    | some c =>
      rw [hplan] at h
      cases hc : configure runner index total b (some c) s₁ with
      | mk code s₂ =>
        rw [hc] at h
        obtain ⟨e, hends, hcode, hadv₂⟩ := configure_some hc
        rw [hw₁] at hends
        have hadv := hadv₁.trans hadv₂
        cases code with
        | none =>
          obtain ⟨rfl, rfl⟩ := Prod.mk.inj h
          exact ⟨_, rfl, .hung hplan hends hcode, hadv⟩
        | some n =>
          by_cases hn : n = 0
          · subst hn
            simp only [if_true] at h
            obtain ⟨cs, hbuilds, hadv₃⟩ := buildAndCollect_builds h
            exact ⟨_, rfl, .setUp hplan hends hcode hbuilds, hadv.trans hadv₃⟩
          · simp only [if_neg hn] at h
            obtain ⟨rfl, rfl⟩ := Prod.mk.inj h
            exact ⟨_, rfl, .notSetUp hplan hends hcode hn, hadv⟩

theorem record_eq (r : BoardResult) :
    ∃ screen, record b r s =
      ((), { s with
        workspace := s.workspace.record b.target
        outcomes := s.outcomes ++ [⟨b.name, r⟩]
        screen }) :=
  ⟨_, rfl⟩

/-- A run is a sequence of turns, and keeps a record of them. -/
theorem runFrom_turns {boards : List Board} {fin : Bool}
    (h : runFrom fs runner layout total index boards s = (fin, s')) :
    ∃ cs outs, Turns fs runner layout s.workspace s.world boards cs outs fin s'.workspace s'.world ∧
      s'.outcomes = s.outcomes ++ outs ∧
      s'.issued.map Issued.command = s.issued.map Issued.command ++ cs := by
  induction boards generalizing s index with
  | nil =>
    obtain ⟨rfl, rfl⟩ := Prod.mk.inj h
    exact ⟨[], [], .done, by simp, by simp⟩
  | cons b boards ih =>
    simp only [runFrom, StateM.bind_apply] at h
    cases hb : buildBoard fs runner layout index total b s with
    | mk r s₁ =>
      rw [hb] at h
      obtain ⟨ws, w₁, cs, hlook, hturn, hadv⟩ := buildBoard_turn hb
      cases r with
      | none =>
        obtain ⟨rfl, rfl⟩ := Prod.mk.inj h
        refine ⟨cs, [], ?_, ?_, hadv.issued⟩
        · rw [hadv.workspace]
          exact .hung hlook hturn
        · rw [hadv.outcomes, List.append_nil]
      | some result =>
        obtain ⟨screen, hrec⟩ := record_eq (s := s₁) (b := b) result
        simp only [StateM.bind_apply, hrec] at h
        obtain ⟨cs', outs, hturns, houts, hissued⟩ := ih h
        rw [hadv.workspace] at hturns
        refine ⟨cs ++ cs', ⟨b.name, result⟩ :: outs, .next hlook hturn hturns, ?_, ?_⟩
        · rw [houts, hadv.outcomes, List.append_assoc, List.singleton_append]
        · rw [hissued, hadv.issued, List.append_assoc]

/-- Summing up resolves the output directory and changes nothing else. -/
theorem summarize_eq {interrupted : Bool} {summary : Summary}
    (h : summarize fs layout total interrupted s = (summary, s')) :
    (∃ dir, summary = ⟨s.outcomes, total, dir, interrupted⟩) ∧
      s' = { s with world := (fs.canonicalize layout.outputDir s.world).2 } := by
  obtain ⟨rfl, rfl⟩ := Prod.mk.inj h
  exact ⟨⟨_, rfl⟩, rfl⟩

/-- A run that finishes in `s` is summed up; one that hangs there is left as it is. -/
def Closes (fs : FileSystem σ) (layout : Layout) (total : Nat) (s : Session σ) :
    Option Summary → Session σ → Prop
  | some summary, s' => summarize fs layout total false s = (summary, s')
  | none, s' => s' = s

theorem run_eq {boards : List Board} {summary : Option Summary}
    (h : run fs runner layout boards s = (summary, s')) :
    ∃ s₁, runFrom fs runner layout boards.length 1 boards s = (summary.isSome, s₁) ∧
      Closes fs layout boards.length s₁ summary s' := by
  simp only [run, StateM.bind_apply] at h
  cases hf : runFrom fs runner layout boards.length 1 boards s with
  | mk fin s₁ =>
    rw [hf] at h
    refine ⟨s₁, ?_⟩
    cases fin with
    | true =>
      simp only [if_true, StateM.bind_apply] at h
      obtain ⟨rfl, rfl⟩ := Prod.mk.inj h
      exact ⟨rfl, rfl⟩
    | false =>
      obtain ⟨rfl, rfl⟩ := Prod.mk.inj h
      exact ⟨rfl, rfl⟩

end Matrix

end FirmwareMatrix
