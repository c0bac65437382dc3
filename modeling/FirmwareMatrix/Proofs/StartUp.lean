import FirmwareMatrix.Proofs.Looking

/-! # Starts that touch nothing

A run first looks for its settings and boards. Where that fails the run ends with the failure, and
a run on paper ends after it in any case: up to there no file or directory has been made, copied,
written or removed and no command has been run. The run itself goes on to make sure that the output
directory is there, so a run on paper fails exactly if the run itself fails before that. -/

namespace FirmwareMatrix

variable {σ σ' α : Type}

namespace Event

/-- Whether something was only looked at. -/
def isLook : Event σ → Bool
  | write _ _ _ | createDirectories _ _ | copy _ _ _ | removeFile _ _ | ran _ => false
  | readText _ _ | isPresent _ _ | isFile _ _ | isDirectory _ _ | canonicalize _ _
  | readDirectory _ _ => true

/-- Whether a directory was to be made. -/
def isMaking : Event σ → Bool
  | createDirectories _ _ => true
  | _ => false

theorem not_isMaking_of_isLook {e : Event σ} (h : e.isLook = true) : e.isMaking = false := by
  cases e <;> first | rfl | cases h

end Event

/-- Adding events in `P` changes nothing else. -/
theorem Follows.noting {P : Event σ → Prop} {event : α → Event σ} {m : StateM σ α}
    (h : ∀ a, P (event a)) : Follows Observed.world (Observed.Grows P) (noting event m) m :=
  ⟨fun _ => rfl, fun _ => (AddsOnly.noting h).grows (Prod.eta _).symm⟩

instance [Extent σ] : Extent (Observed σ) := ⟨fun w => Extent.extent w.world⟩

/-- On an observed file system every looking operation leaves a look. -/
theorem FileSystem.observed_looks [Extent σ] (fs : FileSystem σ) :
    fs.observed.Looks Observed.world (Observed.Grows fun e => e.isLook = true) fs where
  refl w := .refl _ w
  trans _ _ _ := .trans
  readText _ := .noting fun _ => rfl
  isFile _ := .noting fun _ => rfl
  isDirectory _ := .noting fun _ => rfl
  readDirectory _ := .noting fun _ => rfl
  extent _ := rfl

/-- The commands of an observed world, each with the worlds before and after it. -/
def Tool.observed (tool : Tool σ) : Tool (Observed σ) where
  run c := fun w =>
    let (reply, world) := tool.run c w.world
    (reply, ⟨world, w.events ++ [.ran ⟨c, w.world, reply.ending, world⟩]⟩)

theorem Tool.observed_over (tool : Tool σ) :
    Runner.Over Observed.world tool.observed.runner tool.runner := by
  intro c (w, screen)
  simp only [Tool.runner, Tool.observed]
  cases tool.run c w.world with
  | mk reply world =>
    cases hstream : ToolOutput.stream reply screen with
    | mk result screen => rcases result with _ | _ | _ <;> simp only [hstream]

namespace Launch

variable {around : Surroundings σ} {o : Options} {st : State σ} {s : Settings}
  {boards : List Board} {log : List LogEntry} {e : Error} {w : σ}

/-- Surroundings in which all that is asked of the world is kept. -/
def Surroundings.observed (around : Surroundings σ) : Surroundings (Observed σ) where
  fs := around.fs.observed
  tool s := (around.tool s).observed
  backend := around.backend
  directory := around.directory
  patience := around.patience

def State.viewed (view : σ' → σ) (st : State σ') : State σ := ⟨view st.world, st.screen⟩

/-- A state of whose world nothing has been asked yet. -/
def State.watched (st : State σ) : State (Observed σ) := ⟨⟨st.world, []⟩, st.screen⟩

theorem openOutput_observed (fs : FileSystem σ) (s : Settings) :
    Mirrors (State.viewed Observed.world) (openOutput fs.observed s) (openOutput fs s) := by
  intro st
  simp only [openOutput, State.viewed, fs.observed_over.isDirectory s.outputDir st.world]
  cases fs.observed.isDirectory s.outputDir st.world with
  | mk present w =>
    cases present with
    | true => rfl
    | false =>
      simp only [fs.observed_over.createDirectories s.outputDir w]
      cases fs.observed.createDirectories s.outputDir w with
      | mk made w => cases made <;> rfl

theorem build_observed (around : Surroundings σ) (s : Settings) (boards : List Board) :
    Mirrors (State.viewed Observed.world) (build around.observed s boards)
      (build around s boards) := by
  intro st
  have hfs := around.fs.observed_over
  have hrun := Matrix.runToSummary_mirrors hfs (around.tool s).observed_over (layoutOf s)
    around.patience boards
  simp only [build, State.viewed, Matrix.begin_mirrors hfs, hrun _]
  rfl

/-- A failure to open the output directory is a failure to make it. -/
theorem openOutput_error {fs : FileSystem σ} {st st' : State (Observed σ)}
    (h : openOutput fs.observed s st = (.error e, st')) :
    ∃ event ∈ st'.world.events, event.isMaking = true := by
  cases hlook : fs.observed.isDirectory s.outputDir st.world with
  | mk present w =>
    cases hmake : fs.observed.createDirectories s.outputDir w with
    | mk made w' =>
      have hmade : w'.events = w.events ++ [.createDirectories s.outputDir made] := by
        obtain ⟨rfl, rfl⟩ := Prod.mk.inj hmake
        rfl
      simp only [openOutput, hlook, hmake] at h
      cases present with
      | true => cases h
      | false =>
        cases made with
        | ok _ => cases h
        | error f =>
          obtain ⟨-, rfl⟩ := Prod.mk.inj h
          exact ⟨_, by rw [hmade]; exact List.mem_append_right _ (List.mem_singleton.mpr rfl), rfl⟩

/-! ## How a launch goes on from its survey -/

/-- What a survey leaves, with what it reported on the screen. -/
def surveyed (st : State σ) (log : List LogEntry) (w : σ) : State σ :=
  ⟨w, log.foldl (fun screen entry => screen.report entry) st.screen⟩

variable [Extent σ]

theorem run_of_error (h : survey around.fs o st.world = ((.error e, log), w)) :
    run around o st = (.error e, surveyed st log w) := by
  simp only [run, h]
  rfl

theorem run_on_paper (h : survey around.fs o st.world = ((.ok (s, boards), log), w))
    (hdry : o.dryRun = true) :
    run around o st = (.ok .succeeded, ⟨w,
      DryRun.print s around.directory boards (surveyed st log w).screen⟩) := by
  simp only [run, h, if_pos hdry]
  rfl

theorem run_unopened (h : survey around.fs o st.world = ((.ok (s, boards), log), w))
    (hdry : o.dryRun = false) {st' : State σ}
    (hopen : openOutput around.fs s (surveyed st log w) = (.error e, st')) :
    run around o st = (.error e, st') := by
  simp only [surveyed] at hopen
  simp [run, h, hdry, hopen]

theorem run_opened (h : survey around.fs o st.world = ((.ok (s, boards), log), w))
    (hdry : o.dryRun = false) {st' : State σ}
    (hopen : openOutput around.fs s (surveyed st log w) = (.ok (), st')) :
    run around o st = (.ok (build around s boards st').1.status, (build around s boards st').2) := by
  simp only [surveyed] at hopen
  simp only [run, h, hdry, Bool.false_eq_true, if_false, hopen]
  rfl

/-- An observed launch is the launch itself, seen without the events. -/
theorem run_observed (around : Surroundings σ) (o : Options) :
    Mirrors (State.viewed Observed.world) (run around.observed o) (run around o) := by
  intro st
  cases hfound : survey around.observed.fs o st.world with
  | mk found w =>
    obtain ⟨found, log⟩ := found
    have hsurvey : survey around.fs o (st.viewed Observed.world).world = ((found, log), w.world) :=
      (around.fs.observed_looks.survey o).mirrors.apply_eq hfound
    cases found with
    | error e =>
      rw [run_of_error hfound, run_of_error hsurvey]
      rfl
    | ok found =>
      obtain ⟨s, boards⟩ := found
      cases hdry : o.dryRun with
      | true =>
        rw [run_on_paper hfound hdry, run_on_paper hsurvey hdry]
        rfl
      | false =>
        cases hopened : openOutput around.observed.fs s (surveyed st log w) with
        | mk opened st' =>
          have hopen : openOutput around.fs s (surveyed (st.viewed Observed.world) log w.world) =
              (opened, st'.viewed Observed.world) :=
            (openOutput_observed around.fs s).apply_eq hopened
          cases opened with
          | error e => rw [run_unopened hfound hdry hopened, run_unopened hsurvey hdry hopen]
          | ok _ =>
            rw [run_opened hfound hdry hopened, run_opened hsurvey hdry hopen,
              build_observed around s boards st']

/-! ## What a launch that does not start leaves -/

/-- A run on paper, and one whose settings or boards are not found, ends with its survey. -/
theorem run_world (h : o.dryRun = true ∨ ∃ e, (survey around.fs o st.world).1.1 = .error e) :
    (run around o st).2.world = (survey around.fs o st.world).2 := by
  cases hfound : survey around.fs o st.world with
  | mk found w =>
    obtain ⟨found, log⟩ := found
    cases found with
    | error e =>
      rw [run_of_error hfound]
      rfl
    | ok found =>
      have hdry : o.dryRun = true := by simpa [hfound] using h
      rw [run_on_paper hfound hdry]

theorem run_error_of_survey (h : (survey around.fs o st.world).1.1 = .error e) :
    (run around o st).1 = .error e := by
  cases hfound : survey around.fs o st.world with
  | mk found w =>
    obtain ⟨found, log⟩ := found
    rw [hfound] at h
    obtain rfl : found = .error e := h
    rw [run_of_error hfound]

theorem run_on_paper_error_iff (hdry : o.dryRun = true) :
    (run around o st).1 = .error e ↔ (survey around.fs o st.world).1.1 = .error e := by
  refine ⟨fun h => ?_, run_error_of_survey⟩
  cases hfound : survey around.fs o st.world with
  | mk found w =>
    obtain ⟨found, log⟩ := found
    cases found with
    | error e' =>
      rw [run_of_error hfound] at h
      exact congrArg _ (Except.error.inj h)
    | ok found =>
      rw [run_on_paper hfound hdry] at h
      cases h

/-- Of a survey that goes on from a world that nothing has been asked of, only looks are left. -/
theorem survey_looks (around : Surroundings σ) (o : Options) {w : Observed σ} (hw : w.events = []) :
    ∀ event ∈ (survey around.observed.fs o w).2.events, event.isLook = true :=
  ((around.fs.observed_looks.survey o).keeps w).forall_mem hw

theorem run_on_disk_error_iff {st : State (Observed σ)} (hdry : o.dryRun = false)
    (hst : st.world.events = []) :
    ((run around.observed o st).1 = .error e ∧
        ∀ event ∈ (run around.observed o st).2.world.events, event.isMaking = false) ↔
      (survey around.observed.fs o st.world).1.1 = .error e := by
  constructor
  · rintro ⟨h, hmaking⟩
    cases hfound : survey around.observed.fs o st.world with
    | mk found w =>
      obtain ⟨found, log⟩ := found
      cases found with
      | error e' =>
        rw [run_of_error hfound] at h
        exact congrArg _ (Except.error.inj h)
      | ok found =>
        obtain ⟨s, boards⟩ := found
        cases hopened : openOutput around.observed.fs s (surveyed st log w) with
        | mk opened st' =>
          cases opened with
          | ok _ =>
            rw [run_opened hfound hdry hopened] at h
            cases h
          | error e' =>
            obtain ⟨event, hevent, hmade⟩ := openOutput_error hopened
            rw [run_unopened hfound hdry hopened] at hmaking
            rw [hmaking event hevent] at hmade
            cases hmade
  · intro h
    refine ⟨run_error_of_survey h, fun event hevent => ?_⟩
    rw [run_world (.inr ⟨e, h⟩)] at hevent
    exact Event.not_isMaking_of_isLook (survey_looks around o hst event hevent)

/-- Watching a launch changes nothing. If it is a run on paper, or if its settings or its boards are
not found, then all that is asked of the world is to look, and where looking changes nothing the
world is left as it was. A run on paper fails exactly if the run itself fails, with the same error,
before a directory was to be made. -/
theorem run_touches_nothing (around : Surroundings σ) (o : Options) (st : State σ) :
    let watched (o : Options) := run around.observed o st.watched
    ((watched o).1, (watched o).2.viewed Observed.world) = run around o st ∧
    (∀ e, (survey around.fs o st.world).1.1 = .error e → (run around o st).1 = .error e) ∧
    (o.dryRun = true ∨ (∃ e, (survey around.fs o st.world).1.1 = .error e) →
      (∀ event ∈ (watched o).2.world.events, event.isLook = true) ∧
      (around.fs.LooksInPlace → (run around o st).2.world = st.world)) ∧
    ∀ e, (watched { o with dryRun := true }).1 = .error e ↔
      (watched { o with dryRun := false }).1 = .error e ∧
      ∀ event ∈ (watched { o with dryRun := false }).2.world.events, event.isMaking = false := by
  intro watched
  refine ⟨(run_observed around o st.watched).symm, fun e => run_error_of_survey, fun h => ⟨?_, ?_⟩,
    fun e => ?_⟩
  · have hsame : (survey around.fs o st.world).1 =
        (survey around.observed.fs o st.watched.world).1 :=
      congrArg Prod.fst ((around.fs.observed_looks.survey o).mirrors st.watched.world)
    rw [hsame] at h
    have hworld : (watched o).2.world = (survey around.observed.fs o st.watched.world).2 :=
      run_world h
    rw [hworld]
    exact survey_looks around o rfl
  · intro inPlace
    rw [run_world h]
    exact ((inPlace.looks.survey o).keeps st.world).symm
  · have hpaper : (watched { o with dryRun := true }).1 = .error e ↔
        (survey around.observed.fs o st.watched.world).1.1 = .error e :=
      run_on_paper_error_iff rfl
    rw [hpaper]
    exact (run_on_disk_error_iff (o := { o with dryRun := false }) rfl rfl).symm

/-- A machine whose build tool does nothing. -/
def idle : Surroundings Tree where
  fs := Tree.fileSystem
  tool _ := ⟨fun _ t => (⟨[], [], .exited 0⟩, t)⟩
  backend := .silent
  directory := ⟨"/work"⟩
  patience := 0

/-- A launch in an empty tree does not find its headers and leaves the tree empty, on paper or
not. -/
theorem idle_touches_nothing :
    let st : State Tree := ⟨Tree.empty, Screen.blank .open false⟩
    let fault : Error := .missingRoot ⟨"main/hwconf"⟩
    (survey Tree.fileSystem .none Tree.empty).1.1 = .error fault ∧
      Tree.fileSystem.LooksInPlace ∧
      (run idle .none st).1 = .error fault ∧ (run idle .none st).2.world = Tree.empty ∧
      (run idle.observed { Options.none with dryRun := true } st.watched).1 = .error fault := by
  intro st fault
  have hfault : (survey Tree.fileSystem .none Tree.empty).1.1 = .error fault := rfl
  obtain ⟨-, herror, htouch, hiff⟩ := run_touches_nothing idle .none st
  obtain ⟨hlooks, hworld⟩ := htouch (.inr ⟨fault, hfault⟩)
  refine ⟨hfault, Tree.fileSystem_looksInPlace, herror fault hfault,
    hworld Tree.fileSystem_looksInPlace, (hiff fault).mpr ⟨?_, ?_⟩⟩
  · exact run_error_of_survey hfault
  · exact fun event hevent => Event.not_isMaking_of_isLook (hlooks event hevent)

end Launch

end FirmwareMatrix
