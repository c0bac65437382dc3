import FirmwareMatrix.Artifact
import FirmwareMatrix.Error
import FirmwareMatrix.Options
import FirmwareMatrix.Toml.Document

/-! The settings in force. A project file has two sections; a section that it leaves out counts as
one of usual values, and so does a key that a section leaves out. Values from the command line take
the place of those, and settings that do not hold together then are refused. -/

namespace FirmwareMatrix

/-- Where a project has its files and how it is built. -/
structure ProjectSection where
  /-- Where board headers are searched. -/
  root : Path
  /-- Which headers count, by their path from there. -/
  pattern : String
  buildDir : Path
  outputDir : Path
  tool : String
  /-- The file in the build directory that shows that it has been set up. -/
  marker : String
  deriving Repr

/-- What a run works with. -/
structure Settings extends ProjectSection where
  artifacts : ArtifactPaths
  deriving Repr

namespace ProjectSection

/-! The value of each key that a section leaves out. -/

def usualRoot : Path := ⟨"main/hwconf"⟩

def usualPattern : String := "**/hw_*.h"

def usualBuildDir : Path := ⟨"build"⟩

def usualOutputDir : Path := ⟨"build_output"⟩

def usualTool : String := "idf.py"

def usualMarker : String := "CMakeCache.txt"

/-- The section of a file that leaves it out. -/
def default : ProjectSection :=
  { root := usualRoot
    pattern := usualPattern
    buildDir := usualBuildDir
    outputDir := usualOutputDir
    tool := usualTool
    marker := usualMarker }

def keys : List String :=
  ["hwconf_dir", "pattern", "build_dir", "output_dir", "tool", "cache_marker"]

/-- The section that gives some of its keys a text. -/
def ofEntries (entries : List (String × String)) : ProjectSection :=
  { root := ((entries.lookup "hwconf_dir").map Path.mk).getD usualRoot
    pattern := (entries.lookup "pattern").getD usualPattern
    buildDir := ((entries.lookup "build_dir").map Path.mk).getD usualBuildDir
    outputDir := ((entries.lookup "output_dir").map Path.mk).getD usualOutputDir
    tool := (entries.lookup "tool").getD usualTool
    marker := (entries.lookup "cache_marker").getD usualMarker }

end ProjectSection

namespace ArtifactPaths

def keys : List String := ["image", "bootloader", "partition_table"]

/-- The section that gives some of its keys a text. -/
def ofEntries (entries : List (String × String)) : ArtifactPaths :=
  { image := ((entries.lookup "image").map Path.mk).getD usualImage
    bootloader := ((entries.lookup "bootloader").map Path.mk).getD usualBootloader
    partitionTable := ((entries.lookup "partition_table").map Path.mk).getD usualPartitionTable }

end ArtifactPaths

/-- The settings where nothing gives a key a value. -/
def Settings.default : Settings := { ProjectSection.default with artifacts := .default }

namespace ProjectFile

/-- The file that is read when the command line names none. -/
def usualPlace : Path := ⟨"Buildmatrix.toml"⟩

def text? : Toml.Value → Option String
  | .text s => some s
  | _ => none

/-- The texts of a section: a table of known keys, or a list that gives values in the order of
the keys, which may have more items than there are keys. -/
def readEntries (keys : List String) : Toml.Value → Option (List (String × String))
  | .table _ entries =>
    entries.mapM fun (k, v) =>
      if keys.contains k then (text? v).map fun s => (k, s) else none
  | .list items => (keys.zip items).mapM fun (k, v) => (text? v).map fun s => (k, s)
  | _ => none

/-- A section that is left out is the usual one. -/
def readSection {α : Type} (keys : List String) (usual : α)
    (ofEntries : List (String × String) → α) : Option Toml.Value → Option α
  | none => some usual
  | some v => (readEntries keys v).map ofEntries

/-- The settings that a document gives, if it is a project file: two sections of texts. -/
def ofDocument (t : Toml.Table) : Option Settings := do
  if !t.all (fun (k, _) => k == "project" || k == "artifacts") then none
  let project ← readSection ProjectSection.keys ProjectSection.default ProjectSection.ofEntries
    (t.lookup "project")
  let artifacts ← readSection ArtifactPaths.keys ArtifactPaths.default ArtifactPaths.ofEntries
    (t.lookup "artifacts")
  return { project with artifacts }

def ofText (text : String) : Except Error Settings :=
  match (Toml.Document.read text).bind ofDocument with
  | some file => .ok file
  | none => .error .malformed

variable {σ : Type}

/-- Reads the project file at a path. -/
def load (fs : FileSystem σ) (p : Path) : StateM σ (Except Error Settings) := do
  match ← fs.readText p with
  | .error f => return .error (.unreadable f.cause)
  | .ok text => return ofText text

/-- Reads the project file that the command line names, else the one in its usual place if there
is one. -/
def find (fs : FileSystem σ) (o : Options) : StateM σ (Except Error Settings) := do
  match o.config with
  | some p =>
    if ← fs.isFile p then load fs p else return .error (.settings (.noProjectFile p))
  | none =>
    if ← fs.isFile usualPlace then load fs usualPlace else return .ok .default

end ProjectFile

namespace Settings

/-- Values from the command line take the place of those that the settings have. -/
def override (o : Options) (s : Settings) : Settings :=
  { s with
    root := o.root.getD s.root
    outputDir := o.output.getD s.outputDir
    buildDir := o.buildDir.getD s.buildDir
    tool := o.tool.getD s.tool }

def isBlankText (s : String) : Bool := (Text.trim s.toList).isEmpty

/-- An output is named by a path that does not lead out of the build directory. -/
def checkArtifact (key : ArtifactKey) (p : Path) : Except SettingsFault Unit :=
  if p.isEmpty then .error (.emptyArtifact key)
  else if p.components.any fun c => c == .root || c == .up then
    .error (.artifactOutside key p)
  else .ok ()

/-- The first thing that does not hold, if any. -/
def check (s : Settings) : Except SettingsFault Unit := do
  if isBlankText s.tool then throw .emptyTool
  if isBlankText s.marker then throw .emptyMarker
  if let .error f := Glob.read s.pattern then throw (.badPattern s.pattern f)
  if s.outputDir == s.buildDir then throw (.sharedDirectory s.outputDir)
  checkArtifact .image s.artifacts.image
  checkArtifact .bootloader s.artifacts.bootloader
  checkArtifact .partitionTable s.artifacts.partitionTable

/-- The settings themselves, if they hold together. -/
def validate (s : Settings) : Except Error Settings :=
  match s.check with
  | .ok _ => .ok s
  | .error f => .error (.settings f)

variable {σ : Type}

/-- The settings that a project file alone gives. -/
def load (fs : FileSystem σ) (p : Path) : StateM σ (Except Error Settings) := do
  match ← ProjectFile.load fs p with
  | .error e => return .error e
  | .ok raw => return raw.validate

/-- The settings that the command line and the project file give. -/
def resolve (fs : FileSystem σ) (o : Options) : StateM σ (Except Error Settings) := do
  match ← ProjectFile.find fs o with
  | .error e => return .error e
  | .ok raw => return (raw.override o).validate

end Settings

end FirmwareMatrix
