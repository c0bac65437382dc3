import FirmwareMatrix.Launch

/-! The program as it is called: arguments in, an exit code and at most one complaint out. -/

namespace FirmwareMatrix.CommandLine

variable {σ : Type}

/-- How the program ends, and what it says on its error stream. -/
structure Exit where
  code : Nat
  complaint : Option String
  deriving DecidableEq, Repr

def programName : String := "buildmatrix"

def version : String := "0.1.0"

def usage : String :=
  "Usage: " ++ programName ++ " [--config PATH] [--root DIR] [--output DIR] [--build-dir DIR] " ++
    "[--tool PROGRAM] [--log-level LEVEL] [--dry-run]"

def say (text : String) (screen : Screen) : Screen :=
  (screen.write (Text.Utf8.encode (text ++ "\n").toList)).2

/-- Does what the arguments ask for. A fault in the arguments has an exit code of its own. -/
def execute [Extent σ] (around : Launch.Surroundings σ) (args : List String) :
    StateM (Launch.State σ) Exit := fun st =>
  match Options.read args with
  | .error .helpWanted => (⟨0, none⟩, { st with screen := say usage st.screen })
  | .error .versionWanted =>
    (⟨0, none⟩, { st with screen := say (programName ++ " " ++ version) st.screen })
  | .error _ => (⟨2, some usage⟩, st)
  | .ok options =>
    match Launch.run around options st with
    | (.ok status, st) => (⟨status.exitCode, none⟩, st)
    | (.error .tooDeep, st) => (⟨101, some Error.tooDeep.message⟩, st)
    | (.error e, st) => (⟨1, some (programName ++ " error: " ++ e.headline)⟩, st)

end FirmwareMatrix.CommandLine
