import FirmwareMatrix.Failure

/-! What stops a run before its first board: settings that do not hold together, a missing header
directory, a project file that cannot be read or understood, or a failing step. -/

namespace FirmwareMatrix

/-- The three outputs of a build, by their keys in the project file. -/
inductive ArtifactKey where
  | image
  | bootloader
  | partitionTable
  deriving DecidableEq, Repr

def ArtifactKey.text : ArtifactKey → String
  | image => "image"
  | bootloader => "bootloader"
  | partitionTable => "partition_table"

inductive SettingsFault where
  | emptyTool
  | emptyMarker
  | badPattern (source : String) (f : Glob.Fault)
  | sharedDirectory (output : Path)
  | emptyArtifact (key : ArtifactKey)
  | artifactOutside (key : ArtifactKey) (p : Path)
  | noProjectFile (p : Path)

def SettingsFault.message : SettingsFault → String
  | emptyTool => "[project].tool must not be empty"
  | emptyMarker => "[project].cache_marker must not be empty"
  | badPattern source f =>
    "[project].pattern is not a valid glob (" ++ source ++ "): " ++
      (Cause.badPattern source f).message
  | sharedDirectory output =>
    "[project].output_dir and [project].build_dir must differ (both are " ++ output.text ++ ")"
  | emptyArtifact key => "[artifacts]." ++ key.text ++ " must not be empty"
  | artifactOutside key p =>
    "[artifacts]." ++ key.text ++ " must be a path inside the build directory (got " ++ p.text ++
      ")"
  | noProjectFile p => "config file not found: " ++ p.text

inductive Error where
  | settings (f : SettingsFault)
  | missingRoot (root : Path)
  /-- The project file could not be read. -/
  | unreadable (c : Cause)
  /-- The project file is no settings document. -/
  | malformed
  | failed (f : Failure)
  /-- No matcher can be made of the pattern, which ends the program. -/
  | tooDeep

namespace Error

/-- The message, with every step of a failure. -/
def message : Error → String
  | settings f => "Configuration error: " ++ f.message
  | missingRoot root => "hardware config directory not found: " ++ root.text
  | unreadable c => "IO error: " ++ c.message
  | malformed => "TOML parsing error"
  | failed f => f.chain
  | tooDeep => "the pattern cannot be compiled"

/-- The message, with the outermost step of a failure only. -/
def headline : Error → String
  | failed f => f.headline
  | e => e.message

end Error

end FirmwareMatrix
