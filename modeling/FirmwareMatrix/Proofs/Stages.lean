import FirmwareMatrix.Proofs.Turns

/-! # A run, board by board

Between two boards a run is in the session in which the run over the boards before ends. An
outcome that a run has recorded comes from the turn that its board had there. -/

namespace FirmwareMatrix.Matrix

variable {σ : Type} {fs : FileSystem σ} {runner : Runner σ} {layout : Layout} {s : Session σ}
  {total index : Nat}

/-- What `s` has become when `xs`, the first of `total` boards, have had their turns. -/
def reached (fs : FileSystem σ) (runner : Runner σ) (layout : Layout) (total : Nat)
    (xs : List Board) (s : Session σ) : Session σ :=
  (runFrom fs runner layout total 1 xs s).2

/-- A run over two lists goes on with the second where it has finished the first. -/
theorem runFrom_append (xs ys : List Board) (index : Nat) (s : Session σ) :
    runFrom fs runner layout total index (xs ++ ys) s =
      match runFrom fs runner layout total index xs s with
      | (true, s') => runFrom fs runner layout total (index + xs.length) ys s'
      | (false, s') => (false, s') := by
  induction xs generalizing index s with
  | nil => rfl
  | cons b xs ih =>
    simp only [List.cons_append, runFrom, StateM.bind_apply]
    rcases buildBoard fs runner layout index total b s with ⟨_ | result, s₁⟩
    · rfl
    · simp only [StateM.bind_apply]
      rw [ih, List.length_cons, Nat.add_right_comm, Nat.add_assoc]

/-- One outcome for each board in order, up to the one whose command is still running. -/
theorem Turns.boards_eq {ws ws' : Workspace} {w w' : σ} {boards : List Board}
    {cs : List Command} {outs : List Outcome} {fin : Bool}
    (h : Turns fs runner layout ws w boards cs outs fin ws' w') :
    outs.map Outcome.board <+: boards.map Board.name ∧
      (fin = true → outs.map Outcome.board = boards.map Board.name) := by
  induction h with
  | done => exact ⟨List.prefix_rfl, fun _ => rfl⟩
  | hung => exact ⟨List.nil_prefix, by simp⟩
  | next look turn rest ih =>
    simp only [List.map_cons]
    exact ⟨(List.prefix_cons_inj _).mpr ih.1, fun hfin => congrArg _ (ih.2 hfin)⟩

theorem Turns.length_outcomes {ws ws' : Workspace} {w w' : σ} {boards : List Board}
    {cs : List Command} {outs : List Outcome} {fin : Bool}
    (h : Turns fs runner layout ws w boards cs outs fin ws' w') :
    outs.length ≤ boards.length ∧ (fin = true → outs.length = boards.length) := by
  obtain ⟨hpre, hall⟩ := h.boards_eq
  exact ⟨by simpa using hpre.length_le,
    fun hfin => by simpa using congrArg List.length (hall hfin)⟩

/-- The turn of a single board either hangs or ends with the outcome that is recorded. -/
theorem Turns.of_single {ws ws' : Workspace} {w w' : σ} {b : Board} {cs : List Command}
    {outs : List Outcome} {fin : Bool}
    (h : Turns fs runner layout ws w [b] cs outs fin ws' w') :
    outs = [] ∧ fin = false ∨
      ∃ ws₁ w₁ r, ws.refresh fs layout.marker w = (ws₁, w₁) ∧ outs = [⟨b.name, r⟩] ∧ fin = true ∧
        ∃ cs, Turn fs runner layout ws₁ b w₁ cs (some r) w' := by
  cases h with
  | hung look turn => exact .inl ⟨rfl, rfl⟩
  | next look turn rest =>
    cases rest
    exact .inr ⟨_, _, _, look, rfl, rfl, _, turn⟩

theorem outcomes_of_run (boards : List Board) :
    (run fs runner layout boards s).2.outcomes =
      (runFrom fs runner layout boards.length 1 boards s).2.outcomes := by
  cases h : run fs runner layout boards s with
  | mk summary s' =>
    obtain ⟨s₁, hfrom, hend⟩ := run_eq h
    rw [hfrom]
    cases summary with
    | none =>
      obtain rfl : s' = s₁ := hend
      rfl
    | some summary =>
      obtain ⟨-, rfl⟩ := summarize_eq hend
      rfl

/-- The outcome of the board after `xs` tells how its turn ended. -/
theorem turn_of_outcome {xs ys : List Board} {b : Board} {r : BoardResult}
    (h : (runFrom fs runner layout total 1 (xs ++ b :: ys) s).2.outcomes[s.outcomes.length +
      xs.length]? = some ⟨b.name, r⟩) :
    let before := reached fs runner layout total xs s
    let after := reached fs runner layout total (xs ++ [b]) s
    ∃ ws w cs, before.workspace.refresh fs layout.marker before.world = (ws, w) ∧
      Turn fs runner layout ws b w cs (some r) after.world := by
  intro before after
  rw [show xs ++ b :: ys = xs ++ ([b] ++ ys) from rfl, runFrom_append] at h
  have hafter : after = (runFrom fs runner layout total 1 (xs ++ [b]) s).2 := rfl
  rw [runFrom_append] at hafter
  cases hxs : runFrom fs runner layout total 1 xs s with
  | mk fin s₀ =>
    have hbefore : before = s₀ := congrArg Prod.snd hxs
    obtain ⟨_, outs, hturns, houts, -⟩ := runFrom_turns hxs
    obtain ⟨hle, hall⟩ := hturns.length_outcomes
    simp only [hxs] at h hafter
    cases fin with
    | false =>
      rw [houts, List.getElem?_eq_none (by rw [List.length_append]; omega)] at h
      cases h
    | true =>
      have hlength : s₀.outcomes.length = s.outcomes.length + xs.length := by
        rw [houts, List.length_append, hall rfl]
      dsimp only at h hafter
      rw [runFrom_append] at h
      cases hb : runFrom fs runner layout total (1 + xs.length) [b] s₀ with
      | mk fin s₁ =>
        obtain ⟨_, _, hturn, houts, -⟩ := runFrom_turns hb
        simp only [hb] at h hafter
        rw [hbefore, hafter]
        rcases hturn.of_single with ⟨rfl, rfl⟩ | ⟨ws, w, r', hlook, rfl, rfl, cs, hturn⟩
        · -- a board without an outcome is the last one of its run
          rw [houts, List.append_nil, List.getElem?_eq_none (by omega)] at h
          cases h
        · cases hys : runFrom fs runner layout total (1 + xs.length + [b].length) ys s₁ with
          | mk fin s₂ =>
            obtain ⟨_, _, -, houts₂, -⟩ := runFrom_turns hys
            simp only [hys] at h
            have hr : r' = r := by
              rw [houts₂, houts, ← hlength] at h
              simpa using h
            exact ⟨ws, w, cs, hlook, hr ▸ hturn⟩

end FirmwareMatrix.Matrix
