import FirmwareMatrix.Proofs.Configured

/-! # Leaving a run and taking it up again

A session begins with what the cache of its directory names; a session that goes on remembers the
target of the board before. As long as every set-up succeeds the two are one, after any board. So
a run that is left between two boards and taken up again in a new session hands over the same
commands, has the same outcomes and leaves the same tree as a run that is not. -/

namespace FirmwareMatrix

theorem smooth_append {σ : Type} {cs cs' : List (Call σ)} :
    Smooth (cs ++ cs') ↔ Smooth cs ∧ Smooth cs' := List.forall_mem_append

theorem Smooth.settled {cs : List (Call Tree)} (h : Smooth cs) (cache : Path) (target : String) :
    Settled cache target cs := by
  intro c hc
  obtain ⟨hmem, hconf⟩ := List.mem_filter.mp (List.mem_of_getLast? hc)
  exact .inl ((h c hmem).2 hconf)

/-- The target that is found is the one that the cache names. -/
theorem previous_probe (dir : Path) (marker : String) (t : Tree) (target : String) :
    (Workspace.probe Tree.fileSystem dir marker t).1.previous = some target ↔
      ConfiguredFor t (dir.child marker) target := by
  constructor
  · intro h
    exact (remembers_probe dir marker t target h).mpr settled_nil
  · rintro ⟨text, hread, htarget⟩
    have hthere : t.contains (dir.child marker).components = true := by
      obtain ⟨bytes, -, hbytes, -, -⟩ := readText_eq_ok.mp hread
      cases hc : t.contains (dir.child marker).components with
      | true => rfl
      | false =>
        rw [Tree.file?_eq_none_of_not_contains hc] at hbytes
        cases hbytes
    rw [probe_tree, if_pos hthere, hread]
    exact htarget

/-- The workspace remembers what a new session would find in the directory. Whether the directory
is fresh is left out, since every turn looks at that again. -/
structure Workspace.Current (layout : Layout) (ws : Workspace) (t : Tree) : Prop where
  directory : ws.directory = layout.buildDir
  previous : ws.previous =
    (Workspace.probe Tree.fileSystem layout.buildDir layout.marker t).1.previous

namespace Workspace.Current

variable {layout : Layout} {ws : Workspace} {t : Tree}

theorem of_configuredFor {target : String} (hdir : ws.directory = layout.buildDir)
    (hprevious : ws.previous = some target) (h : ConfiguredFor t layout.cache target) :
    ws.Current layout t :=
  ⟨hdir, hprevious.trans ((previous_probe _ _ t target).mpr h).symm⟩

theorem remembers (h : ws.Current layout t) : Remembers layout.cache ws t [] := by
  intro target htarget
  rw [h.previous] at htarget
  exact remembers_probe _ _ t target htarget

end Workspace.Current

theorem begin_tree (layout : Layout) (screen : Screen) (t : Tree) :
    Matrix.begin Tree.fileSystem layout screen t =
      ⟨t, (Workspace.probe Tree.fileSystem layout.buildDir layout.marker t).1, [], [], screen⟩ := by
  have hworld : (Workspace.probe Tree.fileSystem layout.buildDir layout.marker t).2 = t := by
    rw [probe_tree]
    split
    · split <;> rfl
    · rfl
  cases hp : Workspace.probe Tree.fileSystem layout.buildDir layout.marker t with
  | mk ws t' =>
    obtain rfl : t' = t := (congrArg Prod.snd hp).symm.trans hworld
    simp only [Matrix.begin, hp]

namespace Matrix

variable {tool : ScriptedTool} {layout : Layout}

section Steps

variable (fits : tool.Fits layout) {boards : List Board} (apart : layout.CacheApart boards)
  {b : Board} {ws ws' : Workspace} {w w₁ w' : Observed Tree} {cs : List Command}

include fits apart

theorem Turn.current (hmem : b ∈ boards) {r : Option BoardResult} (hb : b.Legible)
    (hcur : ws.Current layout w.world)
    (look : ws.refresh Tree.fileSystem.observed layout.marker w = (ws', w₁))
    (turn : Turn Tree.fileSystem.observed tool.tool.observed layout ws' b w₁ cs r w')
    (smooth : Smooth (calls w'.events)) : (ws'.record b.target).Current layout w'.world := by
  obtain ⟨hworld, hws⟩ := Tree.fileSystem.observed_over.refresh_view look
  have hrem : Remembers layout.cache ws' w₁.world [] := by
    rw [hws, hworld]
    exact hcur.remembers
  obtain ⟨es, hes, hrem', -⟩ := turn.remembers fits apart hmem hb hrem
  rw [hes, calls_append] at smooth
  have hsettled : Settled layout.cache b.target ([] ++ calls es) :=
    (smooth_append.mp smooth).2.settled _ _
  have hdir : ws'.directory = layout.buildDir := (refresh_event look).1.trans hcur.directory
  exact .of_configuredFor hdir rfl ((hrem' b.target rfl).mpr hsettled)

theorem Turns.current {outs : List Outcome} (hboards : ∀ b ∈ boards, b.Legible)
    (hcur : ws.Current layout w.world)
    (h : Turns Tree.fileSystem.observed tool.tool.observed layout ws w boards cs outs true ws' w')
    (smooth : Smooth (calls w'.events)) : ws'.Current layout w'.world := by
  generalize hfin : true = fin at h
  induction h with
  | done => exact hcur
  | hung => cases hfin
  | next look turn rest ih =>
    obtain ⟨hb, hrest⟩ := List.forall_mem_cons.mp hboards
    obtain ⟨es, -, hes, -⟩ := rest.runs
    have smooth₁ := smooth
    rw [hes, calls_append] at smooth₁
    have hnext :=
      turn.current fits apart List.mem_cons_self hb hcur look (smooth_append.mp smooth₁).1
    exact ih (apart.of_subset (List.subset_cons_self _ _)) hrest hnext smooth hfin

end Steps

/-- A tool that cannot build board `B` and leaves an output of board `C` out. -/
def clumsy : ScriptedTool :=
  { ScriptedTool.willing Settings.default with
    exitCode := fun kind name => if kind = .build ∧ name = "B" then 2 else 0
    omits := fun name => if name = "C" then some ⟨"bootloader/bootloader.bin"⟩ else none }

def firstHalf : List Board := [⟨"A", "esp32c3", ⟨"hw_a.h"⟩⟩, ⟨"B", "esp32c3", ⟨"hw_b.h"⟩⟩]

def secondHalf : List Board := [⟨"C", "esp32c3", ⟨"hw_c.h"⟩⟩, ⟨"D", "esp32s3", ⟨"hw_d.h"⟩⟩]

end Matrix

end FirmwareMatrix
