import FirmwareMatrix.Board
import FirmwareMatrix.Declarations
import FirmwareMatrix.Error
import FirmwareMatrix.FileSystem
import FirmwareMatrix.Log

/-! Finding boards: the headers below a directory whose path from there matches a pattern, read in
path order. Of several headers with one board name the first counts. -/

namespace FirmwareMatrix.Discovery

variable {σ : Type}

/-- Files found so far and what was reported on the way. -/
structure Found where
  files : List Path
  log : List LogEntry

def unreadableDirectory (dir : Path) (f : Failure) : LogEntry :=
  ⟨.warn, "skipping unreadable directory", [("dir", dir.text), ("error", f.headline)]⟩

def unreadableHeader (file : Path) (f : Failure) : LogEntry :=
  ⟨.warn, "error parsing hardware config; skipping", [("file", file.text), ("error", f.headline)]⟩

def duplicateName (file : Path) (name : String) : LogEntry :=
  ⟨.warn, "duplicate hardware config name; skipping", [("file", file.text), ("name", name)]⟩

/-- Whether `file` is wanted: the pattern sees its path from the root, with backslashes read as
separators. -/
def wanted (root : Path) (accepts : String → Bool) (file : Path) : Bool :=
  match root.relativeTo file with
  | some relative =>
    accepts (String.ofList (relative.text.toList.map fun c => if c = '\\' then '/' else c))
  | none => false

/-- The directories among `entries` and the wanted files among them, in order. -/
def sortEntries (fs : FileSystem σ) (root : Path) (accepts : String → Bool) :
    List Path → StateM σ (List Path × List Path)
  | [] => pure ([], [])
  | entry :: entries => do
    if ← fs.isDirectory entry then
      let (directories, files) ← sortEntries fs root accepts entries
      return (entry :: directories, files)
    else if ← fs.isFile entry then
      let (directories, files) ← sortEntries fs root accepts entries
      return (directories, if wanted root accepts entry then entry :: files else files)
    else sortEntries fs root accepts entries

/-- Reads the directories still to visit, the last one found first. A directory that cannot be
read is passed over, unless it is the root. -/
def walk (fs : FileSystem σ) (root : Path) (accepts : String → Bool) :
    Nat → List Path → Found → StateM σ (Except Failure Found)
  | _, [], found => pure (.ok found)
  | 0, _, found => pure (.ok found)
  | fuel + 1, dir :: waiting, found => do
    match ← fs.readDirectory dir with
    | .error f =>
      if dir == root then return .error f
      let found := { found with log := found.log ++ [unreadableDirectory dir f] }
      walk fs root accepts fuel waiting found
    | .ok entries =>
      let (directories, files) ← sortEntries fs root accepts entries
      let found := { found with files := found.files ++ files }
      walk fs root accepts fuel (directories.reverse ++ waiting) found

/-- What is found, the files in path order. -/
def Found.ascending (found : Found) : Found :=
  { found with files := found.files.mergeSort fun p q => (compare p q).isLE }

/-- All wanted files below `root`, in path order. -/
def collect [Extent σ] (fs : FileSystem σ) (root : Path) (accepts : String → Bool) :
    StateM σ (Except Failure Found) := do
  let bound ← Extent.extent <$> get
  return (← walk fs root accepts (bound + 1) [root] ⟨[], []⟩).map Found.ascending

theorem collect_apply [Extent σ] (fs : FileSystem σ) (root : Path) (accepts : String → Bool)
    (w : σ) :
    collect fs root accepts w =
      ((walk fs root accepts (Extent.extent w + 1) [root] ⟨[], []⟩ w).1.map Found.ascending,
        (walk fs root accepts (Extent.extent w + 1) [root] ⟨[], []⟩ w).2) := rfl

/-- The boards that `files` describe, `seen` being the names taken before, and what was reported.
Files without declarations are no board headers and are passed over in silence. -/
def readBoards (fs : FileSystem σ) (seen : List String) :
    List Path → StateM σ (List Board × List LogEntry)
  | [] => pure ([], [])
  | file :: files => do
    match ← fs.readText file with
    | .error f =>
      let (boards, log) ← readBoards fs seen files
      return (boards, unreadableHeader file f :: log)
    | .ok text =>
      match Declarations.read text with
      | none => readBoards fs seen files
      | some d =>
        if seen.contains d.name then
          let (boards, log) ← readBoards fs seen files
          return (boards, duplicateName file d.name :: log)
        else
          let (boards, log) ← readBoards fs (d.name :: seen) files
          return (⟨d.name, d.target, file⟩ :: boards, log)

/-- Reads a pattern that `compiler` is to make a matcher of. -/
def compile (compiler : Glob.Compiler) (pattern : String) : Except Error Glob :=
  match Glob.read pattern with
  | .ok g => if compiler.compiles g then .ok g else .error .tooDeep
  | .error f =>
    .error (.failed
      ((Failure.ofCause (.badPattern pattern f)).during (.readingPattern pattern)))

/-- Every board below `root`, ordered for building, and what was reported. -/
def search [Extent σ] (compiler : Glob.Compiler) (fs : FileSystem σ) (root : Path)
    (pattern : String) : StateM σ (Except Error (List Board) × List LogEntry) := do
  if !(← fs.isDirectory root) then return (.error (.missingRoot root), [])
  match compile compiler pattern with
  | .error e => return (.error e, [])
  | .ok glob =>
    match ← collect fs root (compiler.accepts glob) with
    | .error f => return (.error (.failed f), [])
    | .ok found =>
      let (boards, log) ← readBoards fs [] found.files
      return (.ok (Board.sort boards), found.log ++ log)

def readPattern (pattern : String) : Except Error Glob := compile .nesting pattern

def discover [Extent σ] (fs : FileSystem σ) (root : Path) (pattern : String) :
    StateM σ (Except Error (List Board) × List LogEntry) := search .nesting fs root pattern

end FirmwareMatrix.Discovery
