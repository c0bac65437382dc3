import FirmwareMatrix.Proofs.CacheText
import FirmwareMatrix.Proofs.TreeTurns

/-! # What a scripted tool does

A scripted tool looks at nothing but the tree. A set-up that succeeds puts a cache text at the
marker and one that does not changes nothing; a build writes outputs and nothing else. -/

namespace FirmwareMatrix

namespace ScriptedTool

variable {tool : ScriptedTool} {c : Command} {e : Ending} {t t' : Tree}

/-- Nothing is changed after a command. -/
def Steady (tool : ScriptedTool) : Prop := ∀ kind name t, tool.afterwards kind name t = t

/-- Where the cache is. -/
def cachePlace (tool : ScriptedTool) : List Component :=
  (tool.buildDir.child tool.marker).components

theorem ends_iff : tool.tool.Ends c t e t' ↔ tool.run c t = (e, t') := by
  constructor
  · rintro ⟨screen, screen', h⟩
    cases h
    rfl
  · intro h
    refine ⟨Screen.blank .open false, Screen.blank .open false, ?_⟩
    simp only [ScriptedTool.tool, h]

/-- What a command is asked to do does not depend on anything but the tree. -/
theorem ends_unique {e' : Ending} {t'' : Tree} (h : tool.tool.Ends c t e t')
    (h' : tool.tool.Ends c t e' t'') : e = e' ∧ t' = t'' := by
  have h := (ends_iff.mp h).symm.trans (ends_iff.mp h')
  exact Prod.mk.inj h

theorem determined (tool : ScriptedTool) : tool.tool.Determined :=
  fun _ _ _ _ _ _ h h' => ends_unique h h'

theorem run_of_steady (hs : tool.Steady) (c : Command) (t : Tree) :
    tool.run c t = tool.perform c t := by
  unfold run
  split
  · next heq => exact heq.symm
  · next heq => rw [heq, hs]

/-- A command works and exits with zero, or leaves the tree as it is. -/
theorem perform_cases (tool : ScriptedTool) (c : Command) (t : Tree) :
    (∃ t', tool.work t c = .ok t' ∧ tool.perform c t = (.exited 0, t')) ∨
      ∃ e, e.code? ≠ some 0 ∧ tool.perform c t = (e, t) := by
  unfold perform
  split
  · exact .inr ⟨_, by simp [Ending.code?], rfl⟩
  · split
    · exact .inr ⟨_, by simp [Ending.code?], rfl⟩
    · dsimp only
      split
      · cases hw : tool.work t c with
        | ok t' => exact .inl ⟨t', rfl, rfl⟩
        | error f => exact .inr ⟨_, by simp [Ending.code?], rfl⟩
      · next hcode => exact .inr ⟨_, by simpa [Ending.code?] using hcode, rfl⟩

/-- A tool for some settings that does what it is asked to. -/
def willing (s : Settings) : ScriptedTool where
  buildDir := s.buildDir
  marker := s.marker
  artifacts := s.artifacts.artifacts
  exitCode _ _ := 0
  unavailable _ _ := false
  hangs _ _ := false
  omits _ := none
  afterwards _ _ t := t

/-! ## Working -/

theorem setUp_ok {name target : String} (h : tool.setUp name target t = .ok t') :
    t' = (t.addDirectory tool.buildDir.components).addFile tool.cachePlace
      (textBytes (cacheText name target)) := by
  unfold setUp at h
  cases hd : t.createDirectories tool.buildDir with
  | error f =>
    rw [hd] at h
    cases h
  | ok t₁ =>
    rw [hd] at h
    obtain rfl := Tree.createDirectories_ok hd
    exact (Except.ok.inj h).symm

/-- Outputs are all that a build writes. -/
theorem file?_writeOutputs (name : String) {q : List Component}
    (hq : q ∉ tool.artifacts.toList.map (Artifact.place tool.buildDir)) (t : Tree) :
    (tool.writeOutputs name t).file? q = t.file? q := by
  unfold writeOutputs
  generalize tool.artifacts.toList = as at hq ⊢
  induction as generalizing t with
  | nil => rfl
  | cons a as ih =>
    obtain ⟨ha, has⟩ := not_or.mp (mt List.mem_cons.mpr hq)
    rw [List.foldl_cons, ih _ has]
    split
    · rfl
    · rw [Tree.file?_addFile]
      exact if_neg ha

/-! ## The cache -/

/-- A set-up leaves its cache text, or the tree as it was. -/
theorem ends_configure (hs : tool.Steady) (hc : c.isConfigure = true) {target : String}
    (ht : c.target? = some target) (h : tool.tool.Ends c t e t') :
    e.code? = some 0 ∧ t'.file? tool.cachePlace = some (textBytes (cacheText c.boardName target)) ∨
      e.code? ≠ some 0 ∧ t' = t := by
  have h := ends_iff.mp h
  rw [run_of_steady hs] at h
  rcases perform_cases tool c t with ⟨t₁, hwork, hrun⟩ | ⟨e', hcode, hrun⟩
  · obtain ⟨rfl, rfl⟩ := Prod.mk.inj (hrun.symm.trans h)
    refine .inl ⟨rfl, ?_⟩
    have hsetUp : tool.setUp c.boardName target t = .ok t₁ := by
      cases c with
      | build name => cases hc
      | configureFresh name target' | retarget name target' =>
        cases ht
        exact hwork
    rw [setUp_ok hsetUp, Tree.file?_addFile]
    exact if_pos rfl
  · obtain ⟨rfl, rfl⟩ := Prod.mk.inj (hrun.symm.trans h)
    exact .inr ⟨hcode, rfl⟩

/-- A build leaves every file that is no output as it was. -/
theorem ends_build (hs : tool.Steady) {name : String} (h : tool.tool.Ends (.build name) t e t')
    {q : List Component} (hq : q ∉ tool.artifacts.toList.map (Artifact.place tool.buildDir)) :
    t'.file? q = t.file? q := by
  have h := ends_iff.mp h
  rw [run_of_steady hs] at h
  rcases perform_cases tool (.build name) t with ⟨t₁, hwork, hrun⟩ | ⟨e', hcode, hrun⟩
  · obtain ⟨rfl, rfl⟩ := Prod.mk.inj (hrun.symm.trans h)
    rw [← Except.ok.inj hwork]
    exact file?_writeOutputs name hq t
  · obtain ⟨rfl, rfl⟩ := Prod.mk.inj (hrun.symm.trans h)
    rfl

/-! ## Staying out of a directory -/

theorem agreeBelow_writeOutputs {out : List Component} (hout : Tree.Proper out)
    (hplace : ∀ a ∈ tool.artifacts.toList, ¬ out <+: a.place tool.buildDir) (name : String)
    (t : Tree) : Tree.AgreeBelow out t (tool.writeOutputs name t) := by
  unfold writeOutputs
  generalize tool.artifacts.toList = as at hplace ⊢
  induction as generalizing t with
  | nil => exact .refl out t
  | cons a as ih =>
    obtain ⟨ha, has⟩ := List.forall_mem_cons.mp hplace
    rw [List.foldl_cons]
    refine Tree.AgreeBelow.trans ?_ (ih _ has)
    split
    · exact .refl out t
    · exact Tree.agreeBelow_addFile hout ha _

/-- A steady tool whose build directory, cache and outputs lie elsewhere stays out. -/
theorem spares (hs : tool.Steady) {out : List Component} (hout : Tree.Proper out)
    (hdir : ¬ out <+: tool.buildDir.components) (hcache : ¬ out <+: tool.cachePlace)
    (hplace : ∀ a ∈ tool.artifacts.toList, ¬ out <+: a.place tool.buildDir) :
    tool.tool.Spares id out := by
  intro c t e t' h
  have h := ends_iff.mp h
  rw [run_of_steady hs] at h
  rcases perform_cases tool c t with ⟨t₁, hwork, hrun⟩ | ⟨e', hcode, hrun⟩
  · obtain ⟨rfl, rfl⟩ := Prod.mk.inj (hrun.symm.trans h)
    cases c with
    | configureFresh name target | retarget name target =>
      rw [setUp_ok hwork]
      exact (Tree.agreeBelow_addDirectory hout hdir).trans (Tree.agreeBelow_addFile hout hcache _)
    | build name =>
      rw [← Except.ok.inj hwork]
      exact agreeBelow_writeOutputs hout hplace name t
  · obtain ⟨rfl, rfl⟩ := Prod.mk.inj (hrun.symm.trans h)
    exact .refl out t

/-- The build directory and the output directory of the settings being apart is enough. -/
theorem spares_layoutOf {s : Settings} (hs : tool.Steady) (hdir : tool.buildDir = s.buildDir)
    (hart : tool.artifacts = s.artifacts.artifacts) (hout : s.outputDir.IsPlain)
    (hapart : Path.Apart s.buildDir s.outputDir) :
    tool.tool.Spares id (Launch.layoutOf s).outputDir.components := by
  have hsep := Launch.separate_layoutOf hout hapart
  refine spares hs hsep.proper (hdir ▸ hapart.2) ?_ (hart ▸ hdir ▸ hsep.place)
  rw [cachePlace, hdir]
  exact hapart.not_prefix_join hout _

end ScriptedTool

end FirmwareMatrix
