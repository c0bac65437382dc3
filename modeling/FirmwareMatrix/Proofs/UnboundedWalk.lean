import FirmwareMatrix.Discovery
import FirmwareMatrix.Proofs.OutputSteps

/-! # Walks without a bound

A walk is bounded by the number of turns that it may take. Here it goes on until nothing waits, or
the root cannot be read, whatever that takes: such a walk may have no end, but if it has one, a
bound that leaves it that many turns does not show. -/

namespace FirmwareMatrix.Discovery

variable {σ : Type} {fs : FileSystem σ} {root : Path} {accepts : String → Bool}

/-- One turn of a walk: what waits and what is found after `dir` has been read, `waiting` and
`found` being so before. -/
def visit (fs : FileSystem σ) (root : Path) (accepts : String → Bool) (dir : Path)
    (waiting : List Path) (found : Found) : StateM σ (Except Failure (List Path × Found)) := do
  match ← fs.readDirectory dir with
  | .error f =>
    if dir == root then return .error f
    return .ok (waiting, { found with log := found.log ++ [unreadableDirectory dir f] })
  | .ok entries =>
    let (directories, files) ← sortEntries fs root accepts entries
    return .ok (directories.reverse ++ waiting, { found with files := found.files ++ files })

theorem walk_cons (fuel : Nat) (dir : Path) (waiting : List Path) (found : Found) (s : σ) :
    walk fs root accepts (fuel + 1) (dir :: waiting) found s =
      match visit fs root accepts dir waiting found s with
      | (.error f, s) => (.error f, s)
      | (.ok (waiting, found), s) => walk fs root accepts fuel waiting found s := by
  simp only [walk, visit, StateM.bind_apply]
  rcases fs.readDirectory dir s with ⟨_ | _, s⟩
  · dsimp only
    split <;> rfl
  · rfl

/-- A walk with no bound: the directories that it takes up, in order, its answer and the state that
it leaves. -/
inductive Walks (fs : FileSystem σ) (root : Path) (accepts : String → Bool) :
    List Path → Found → σ → List Path → Except Failure Found → σ → Prop
  | done (found : Found) (s : σ) : Walks fs root accepts [] found s [] (.ok found) s
  | failed {dir : Path} {waiting : List Path} {found : Found} {s s' : σ} {f : Failure}
    (turn : visit fs root accepts dir waiting found s = (.error f, s')) :
    Walks fs root accepts (dir :: waiting) found s [dir] (.error f) s'
  | next {dir : Path} {waiting waiting' dirs : List Path} {found found' : Found} {s s' s'' : σ}
    {answer : Except Failure Found}
    (turn : visit fs root accepts dir waiting found s = (.ok (waiting', found'), s'))
    (rest : Walks fs root accepts waiting' found' s' dirs answer s'') :
    Walks fs root accepts (dir :: waiting) found s (dir :: dirs) answer s''

section Walks

variable {waiting dirs dirs' : List Path} {found : Found} {s s' s'' : σ}
  {answer answer' : Except Failure Found}

/-- No walk has two ends. -/
theorem Walks.unique (h : Walks fs root accepts waiting found s dirs answer s')
    (h' : Walks fs root accepts waiting found s dirs' answer' s'') :
    dirs = dirs' ∧ answer = answer' ∧ s' = s'' := by
  induction h generalizing dirs' answer' s'' with
  | done found s =>
    cases h'
    exact ⟨rfl, rfl, rfl⟩
  | failed turn =>
    cases h' with
    | failed turn' =>
      cases turn.symm.trans turn'
      exact ⟨rfl, rfl, rfl⟩
    | next turn' => cases turn.symm.trans turn'
  | next turn _ ih =>
    cases h' with
    | failed turn' => cases turn.symm.trans turn'
    | next turn' rest' =>
      cases turn.symm.trans turn'
      obtain ⟨rfl, rfl, rfl⟩ := ih rest'
      exact ⟨rfl, rfl, rfl⟩

/-- A bound that is not reached does not show. -/
theorem Walks.walk_eq (h : Walks fs root accepts waiting found s dirs answer s') {fuel : Nat}
    (hfuel : dirs.length ≤ fuel) : walk fs root accepts fuel waiting found s = (answer, s') := by
  induction h generalizing fuel with
  | done found s => cases fuel <;> rfl
  | failed turn =>
    obtain ⟨fuel, rfl⟩ := Nat.exists_eq_add_of_lt hfuel
    rw [walk_cons, turn]
  | next turn _ ih =>
    obtain ⟨fuel, rfl⟩ := Nat.exists_eq_add_of_lt hfuel
    rw [walk_cons, turn]
    exact ih (Nat.le_add_right _ _)

end Walks

/-- A search gives the answer of the unbounded walk, if that takes no more turns than the file
system has directories. -/
theorem Walks.collect_eq [Extent σ] {s s' : σ} {dirs : List Path} {answer : Except Failure Found}
    (h : Walks fs root accepts [root] ⟨[], []⟩ s dirs answer s')
    (hbound : dirs.length ≤ Extent.extent s + 1) :
    collect fs root accepts s = (answer.map Found.ascending, s') := by
  rw [collect_apply, h.walk_eq hbound]

end FirmwareMatrix.Discovery
