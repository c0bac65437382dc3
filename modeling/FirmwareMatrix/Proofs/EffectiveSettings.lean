import FirmwareMatrix.Proofs.Configured
import FirmwareMatrix.Proofs.Confinement
import FirmwareMatrix.Proofs.OutputSteps

/-! # The settings in force, key by key

Every value of the settings comes from the command line if that gives it, else from the project
file if that gives it, and else it is the usual one. A key that a section leaves out and a section
that is left out whole get their usual values in two different ways, and the command line takes the
place of what came out of either. That these come to the same is shown here, for any part of the
keys. -/

namespace FirmwareMatrix

variable {σ : Type}

namespace ProjectFile

/-- Texts under some keys of some sections. -/
abbrev Given := String → String → Option String

/-- A table that gives some of `keys` a text. -/
def IsSection (keys : List String) : Toml.Value → Prop
  | .table _ entries => ∀ entry ∈ entries, entry.1 ∈ keys ∧ (text? entry.2).isSome = true
  | .text _ | .plain | .list _ | .tables _ => False

instance (keys : List String) : DecidablePred (IsSection keys)
  | .table _ entries => inferInstanceAs (Decidable (∀ entry ∈ entries, _))
  | .text _ | .plain | .list _ | .tables _ => inferInstanceAs (Decidable False)

/-- A document that has no other sections than those of a project file, each with texts under known
keys. -/
def WellTyped (t : Toml.Table) : Prop :=
  ∀ entry ∈ t, (entry.1 = "project" ∧ IsSection ProjectSection.keys entry.2) ∨
    (entry.1 = "artifacts" ∧ IsSection ArtifactPaths.keys entry.2)

instance : DecidablePred WellTyped := fun t => inferInstanceAs (Decidable (∀ entry ∈ t, _))

/-- The text that a section gives a key. -/
def textIn (v : Option Toml.Value) (key : String) : Option String :=
  match v with
  | some (.table _ entries) => (entries.lookup key).bind text?
  | _ => none

/-- What a document gives. -/
def given (t : Toml.Table) : Given := fun part key => textIn (t.lookup part) key

/-- What the project file that a run finds in a world gives. -/
inductive Supplies (fs : FileSystem σ) (o : Options) (w : σ) : Given → Prop where
  /-- None is named, and there is none in the usual place. -/
  | nothing (unnamed : o.config = none) (absent : (fs.isFile usualPlace w).1 = false) :
    Supplies fs o w fun _ _ => none
  /-- The one that is named, or the one in the usual place, is there. -/
  | document {p : Path} {text : String} {t : Toml.Table} (place : p = o.config.getD usualPlace)
    (present : (fs.isFile p w).1 = true)
    (reads : (fs.readText p (fs.isFile p w).2).1 = .ok text)
    (parses : Toml.Document.read text = some t) (typed : WellTyped t) :
    Supplies fs o w (given t)

end ProjectFile

namespace Settings

open ProjectFile (Given)

/-- Each value from the command line, else from the file, else the usual one. -/
def effective (o : Options) (given : Given) : Settings where
  root := (o.root.or ((given "project" "hwconf_dir").map Path.mk)).getD
    ProjectSection.usualRoot
  pattern := (given "project" "pattern").getD ProjectSection.usualPattern
  buildDir := (o.buildDir.or ((given "project" "build_dir").map Path.mk)).getD
    ProjectSection.usualBuildDir
  outputDir := (o.output.or ((given "project" "output_dir").map Path.mk)).getD
    ProjectSection.usualOutputDir
  tool := (o.tool.or (given "project" "tool")).getD ProjectSection.usualTool
  marker := (given "project" "cache_marker").getD ProjectSection.usualMarker
  artifacts :=
    { image := ((given "artifacts" "image").map Path.mk).getD ArtifactPaths.usualImage
      bootloader := ((given "artifacts" "bootloader").map Path.mk).getD
        ArtifactPaths.usualBootloader
      partitionTable := ((given "artifacts" "partition_table").map Path.mk).getD
        ArtifactPaths.usualPartitionTable }

/-- Whether the command line gives what a file has under a key. -/
def hides (o : Options) : String → String → Bool
  | "project", "hwconf_dir" => o.root.isSome
  | "project", "output_dir" => o.output.isSome
  | "project", "build_dir" => o.buildDir.isSome
  | "project", "tool" => o.tool.isSome
  | _, _ => false

end Settings

/-! ## Reading a document -/

namespace ProjectFile

variable {keys : List String} {v : Toml.Value} {t : Toml.Table}

/-- A section is read into texts that are found where the section has them. -/
theorem readEntries_of_isSection (h : IsSection keys v) :
    ∃ texts, readEntries keys v = some texts ∧ ∀ key, texts.lookup key = textIn (some v) key := by
  cases v with
  | text _ | plain | list _ | tables _ => exact h.elim
  | table origin entries =>
    have hentries : ∀ entry ∈ entries, entry.1 ∈ keys ∧ (text? entry.2).isSome = true := h
    simp only [readEntries, textIn]
    clear h
    induction entries with
    | nil => exact ⟨[], rfl, fun _ => rfl⟩
    | cons entry entries ih =>
      obtain ⟨⟨hkey, hs⟩, hrest⟩ := List.forall_mem_cons.mp hentries
      obtain ⟨texts, hread, hlookup⟩ := ih hrest
      obtain ⟨s, hs⟩ := Option.isSome_iff_exists.mp hs
      obtain ⟨k, v⟩ := entry
      have hhead : (if keys.contains k = true then (text? v).map fun s => (k, s) else none) =
          some (k, s) := by
        rw [if_pos (List.contains_iff_mem.mpr hkey), show text? v = some s from hs, Option.map_some]
      refine ⟨(k, s) :: texts, ?_, fun key => ?_⟩
      · simp only [List.mapM_cons, hhead, hread]
        rfl
      · rw [List.lookup_cons, List.lookup_cons, hlookup]
        cases key == k with
        | true => exact hs.symm
        | false => rfl

/-- Both ways to leave a key out give it its usual value. -/
theorem readSection_eq {α : Type} {usual : α} {ofEntries : List (String × String) → α}
    (husual : usual = ofEntries []) {v : Option Toml.Value}
    (h : ∀ v', v = some v' → IsSection keys v') :
    ∃ texts, readSection keys usual ofEntries v = some (ofEntries texts) ∧
      ∀ key, texts.lookup key = textIn v key := by
  cases v with
  | none => exact ⟨[], by rw [readSection, husual], fun _ => rfl⟩
  | some v =>
    obtain ⟨texts, hread, hlookup⟩ := readEntries_of_isSection (h v rfl)
    exact ⟨texts, by rw [readSection, hread]; rfl, hlookup⟩

theorem mem_of_lookup {name : String} (h : t.lookup name = some v) : (name, v) ∈ t := by
  obtain ⟨l₁, l₂, rfl, -⟩ := List.lookup_eq_some_iff.mp h
  simp

theorem WellTyped.project (h : WellTyped t) (v : Toml.Value) (hv : t.lookup "project" = some v) :
    IsSection ProjectSection.keys v := by
  rcases h _ (mem_of_lookup hv) with ⟨-, hsection⟩ | ⟨hname, -⟩
  · exact hsection
  · simp at hname

theorem WellTyped.artifacts (h : WellTyped t) (v : Toml.Value)
    (hv : t.lookup "artifacts" = some v) : IsSection ArtifactPaths.keys v := by
  rcases h _ (mem_of_lookup hv) with ⟨hname, -⟩ | ⟨-, hsection⟩
  · simp at hname
  · exact hsection

/-- A section that is left out is one that leaves every key out. -/
theorem projectSection_default : ProjectSection.default = ProjectSection.ofEntries [] := rfl

theorem artifactPaths_default : ArtifactPaths.default = ArtifactPaths.ofEntries [] := rfl

/-- A document of the right shape is read into what it gives, with usual values for the rest. -/
theorem ofDocument_of_wellTyped (h : WellTyped t) :
    ofDocument t = some (Settings.effective .none (given t)) := by
  have hnames : (t.all fun entry => entry.1 == "project" || entry.1 == "artifacts") = true := by
    refine List.all_eq_true.mpr fun entry hentry => ?_
    rcases h entry hentry with ⟨hname, -⟩ | ⟨hname, -⟩ <;> simp [hname]
  obtain ⟨texts, hproject, htexts⟩ := readSection_eq projectSection_default h.project
  obtain ⟨texts', hartifacts, htexts'⟩ := readSection_eq artifactPaths_default h.artifacts
  rw [ofDocument, hnames]
  simp only [Bool.not_true, Bool.false_eq_true, if_false, hproject, hartifacts, Option.bind_eq_bind,
    Option.bind_some, Settings.effective, given, ← htexts, ← htexts']
  rfl

section Find

variable {fs : FileSystem σ} {o : Options} {w : σ} {p : Path} {given : Given}

theorem find_present (place : p = o.config.getD usualPlace) (present : (fs.isFile p w).1 = true) :
    find fs o w = load fs p (fs.isFile p w).2 := by
  subst place
  cases hconfig : o.config <;> rw [hconfig] at present <;>
    simp only [find, hconfig, StateM.bind_apply] <;> exact congrFun (if_pos present) _

theorem find_unnamed (unnamed : o.config = none) (absent : (fs.isFile usualPlace w).1 = false) :
    (find fs o w).1 = .ok .default := by
  simp only [find, unnamed, StateM.bind_apply, absent]
  rfl

theorem find_missing (named : o.config = some p) (absent : (fs.isFile p w).1 = false) :
    (find fs o w).1 = .error (.settings (.noProjectFile p)) := by
  simp only [find, named, StateM.bind_apply, absent]
  rfl

/-- What is supplied is what is found, before the command line is looked at. -/
theorem find_of_supplies (h : Supplies fs o w given) :
    (find fs o w).1 = .ok (Settings.effective .none given) := by
  cases h with
  | nothing unnamed absent => exact find_unnamed unnamed absent
  | @document p text t place present reads parses typed =>
    have htext : ofText text = .ok (Settings.effective .none (ProjectFile.given t)) := by
      simp only [ofText, parses, Option.bind_some, ofDocument_of_wellTyped typed]
    rw [find_present place present]
    simp only [load, StateM.bind_apply, reads]
    exact htext

end Find

/-- Sections without keys give nothing, and neither does a document without sections. -/
theorem given_of_empty
    (h : ∀ entry ∈ t, (entry.1 = "project" ∨ entry.1 = "artifacts") ∧
      ∃ origin, entry.2 = .table origin []) :
    WellTyped t ∧ given t = fun _ _ => none := by
  have hsection {keys : List String} {v : Toml.Value} (hv : ∃ origin, v = .table origin []) :
      IsSection keys v := by
    obtain ⟨origin, rfl⟩ := hv
    exact fun _ hentry => absurd hentry List.not_mem_nil
  refine ⟨fun entry hentry => ?_, funext fun part => funext fun key => ?_⟩
  · obtain ⟨hname | hname, hv⟩ := h entry hentry
    · exact .inl ⟨hname, hsection hv⟩
    · exact .inr ⟨hname, hsection hv⟩
  · cases hv : t.lookup part with
    | none => simp [given, hv, textIn]
    | some v =>
      obtain ⟨-, origin, rfl⟩ := h _ (mem_of_lookup hv)
      simp [given, hv, textIn]

end ProjectFile

/-! ## The command line over the file -/

namespace Settings

open ProjectFile (Given Supplies)

variable {fs : FileSystem σ} {o : Options} {w : σ} {given given' : Given} {s r : Settings}

/-- The command line takes the place of what the file gives. -/
theorem override_effective (o : Options) (given : Given) :
    (effective .none given).override o = effective o given := by
  simp [override, effective, Options.none]

theorem resolve_of_supplies (h : Supplies fs o w given) :
    (resolve fs o w).1 = (effective o given).validate := by
  simp only [resolve, StateM.bind_apply, ProjectFile.find_of_supplies h]
  exact congrArg validate (override_effective o given)

theorem resolve_missing {p : Path} (named : o.config = some p) (absent : (fs.isFile p w).1 = false) :
    (resolve fs o w).1 = .error (.settings (.noProjectFile p)) := by
  simp only [resolve, StateM.bind_apply, ProjectFile.find_missing named absent]
  rfl

/-- What the command line hides makes no difference. -/
theorem effective_congr
    (h : ∀ part key, hides o part key = false → given part key = given' part key) :
    effective o given = effective o given' := by
  have hor {α : Type} {a b b' : Option α} (hb : a.isSome = false → b = b') : a.or b = a.or b' := by
    cases a with
    | none => exact hb rfl
    | some a => rfl
  have hroot := hor fun hnone => congrArg (Option.map Path.mk) (h "project" "hwconf_dir" hnone)
  have hbuild := hor fun hnone => congrArg (Option.map Path.mk) (h "project" "build_dir" hnone)
  have houtput := hor fun hnone => congrArg (Option.map Path.mk) (h "project" "output_dir" hnone)
  have htool := hor fun hnone => h "project" "tool" hnone
  simp only [effective, hroot, hbuild, houtput, htool, h "project" "pattern" rfl,
    h "project" "cache_marker" rfl, h "artifacts" "image" rfl, h "artifacts" "bootloader" rfl,
    h "artifacts" "partition_table" rfl]

/-! ## What is accepted -/

theorem validate_error_iff {e : Error} :
    s.validate = .error e ↔ ∃ f, e = .settings f ∧ s.check = .error f := by
  unfold validate
  cases s.check with
  | ok _ => simp
  | error f => simp [eq_comm]

theorem check_of_blank_tool (h : isBlankText s.tool = true) : s.check = .error .emptyTool := by
  simp only [check, h]
  rfl

theorem check_of_shared (h : (s.outputDir == s.buildDir) = true) : ∃ f, s.check = .error f := by
  have hsame : s.outputDir.components = s.buildDir.components := beq_iff_eq.mp h
  cases hcheck : s.check with
  | ok _ => exact absurd hsame (accepted_of_check hcheck).distinct
  | error f => exact ⟨f, rfl⟩

/-- A run works with exactly the settings whose values come from the command line, else from the
project file, else are the usual ones, and it refuses them exactly if these do not hold together.
What a file has under a key that the command line gives makes no difference, good or bad; a bad
value from the command line is refused whatever the file has. A document that has no keys gives
nothing, as no file does. Only a file that the command line names has to be there. -/
theorem resolve_effective (fs : FileSystem σ) (o : Options) (w : σ) :
    (∀ given, Supplies fs o w given →
      let s := effective o given
      (∀ r, (resolve fs o w).1 = .ok r ↔ r = s ∧ s.check = .ok ()) ∧
      (∀ e, (resolve fs o w).1 = .error e ↔ ∃ f, e = .settings f ∧ s.check = .error f) ∧
      (∀ {τ : Type} (fs' : FileSystem τ) (w' : τ) given', Supplies fs' o w' given' →
        (∀ part key, hides o part key = false → given part key = given' part key) →
        (resolve fs' o w').1 = (resolve fs o w).1) ∧
      (∀ tool, o.tool = some tool → isBlankText tool = true →
        (resolve fs o w).1 = .error (.settings .emptyTool)) ∧
      ((s.outputDir == s.buildDir) = true → ∃ f, (resolve fs o w).1 = .error (.settings f))) ∧
    (∀ t : Toml.Table,
      (∀ entry ∈ t, (entry.1 = "project" ∨ entry.1 = "artifacts") ∧
        ∃ origin, entry.2 = .table origin []) →
      ProjectFile.WellTyped t ∧ ProjectFile.given t = fun _ _ => none) ∧
    ∀ p, o.config = some p → (fs.isFile p w).1 = false →
      (resolve fs o w).1 = .error (.settings (.noProjectFile p)) := by
  refine ⟨fun given supplies => ?_, fun t => ProjectFile.given_of_empty,
    fun p => resolve_missing⟩
  intro s
  have hresolve : (resolve fs o w).1 = s.validate := resolve_of_supplies supplies
  rw [hresolve]
  refine ⟨fun r => validate_ok_iff, fun e => validate_error_iff,
    fun fs' w' given' supplies' hagree => ?_, fun tool htool hblank => ?_, fun hshared => ?_⟩
  · rw [resolve_of_supplies supplies', ← effective_congr hagree]
  · have hs : s.tool = tool := by
      show (o.tool.or _).getD _ = tool
      rw [htool]
      rfl
    exact validate_error_iff.mpr ⟨_, rfl, check_of_blank_tool (hs ▸ hblank)⟩
  · obtain ⟨f, hf⟩ := check_of_shared hshared
    exact ⟨f, validate_error_iff.mpr ⟨f, rfl, hf⟩⟩

/-- A project file whose tool is blank, and which says where outputs go. -/
def blankTool : String := "[project]\ntool = \" \"\noutput_dir = \"out\"\n\n[artifacts]\n"

/-- The tool that the command line gives hides the blank one of the file. -/
theorem blankTool_hidden :
    let o : Options := { Options.none with tool := some "ninja" }
    let t : Tree := Tree.empty.addFile [.name "Buildmatrix.toml"] (Text.Utf8.encode blankTool.toList)
    ∃ given, Supplies Tree.fileSystem o t given ∧
      given "project" "tool" = some " " ∧
      ∃ s, (resolve Tree.fileSystem o t).1 = .ok s ∧ s.tool = "ninja" ∧ s.outputDir.text = "out" := by
  intro o t
  have hdocument : (Toml.Document.read blankTool).any (fun document =>
      ProjectFile.WellTyped document ∧ ProjectFile.given document "project" "tool" = some " " ∧
        (effective o (ProjectFile.given document)).check.isOk = true ∧
        (effective o (ProjectFile.given document)).outputDir.text = "out") = true := by
    decide +kernel
  obtain ⟨document, parses, hdocument⟩ := (Option.any_eq_true _ _).mp hdocument
  obtain ⟨typed, htool, hcheck, houtput⟩ := of_decide_eq_true hdocument
  have hfile : t.file? ProjectFile.usualPlace.components = some (Text.Utf8.encode blankTool.toList) :=
    rfl
  have present : (Tree.fileSystem.isFile ProjectFile.usualPlace t).1 = true := by
    show (t.file? ProjectFile.usualPlace.components).isSome = true
    rw [hfile, Option.isSome_some]
  have reads : t.readText ProjectFile.usualPlace = .ok blankTool :=
    readText_eq_ok.mpr ⟨_, _, hfile, Text.Utf8.decode_encode _, String.ofList_toList⟩
  have supplies : Supplies Tree.fileSystem o t (ProjectFile.given document) :=
    .document (p := ProjectFile.usualPlace) rfl present reads parses typed
  have hok : (effective o (ProjectFile.given document)).check = .ok () := by
    cases h : (effective o (ProjectFile.given document)).check with
    | ok _ => rfl
    | error f => simp [h, Except.isOk, Except.toBool] at hcheck
  refine ⟨_, supplies, htool, _, ?_, rfl, houtput⟩
  exact (((resolve_effective Tree.fileSystem o t).1 _ supplies).1 _).mpr ⟨rfl, hok⟩

end Settings

end FirmwareMatrix
