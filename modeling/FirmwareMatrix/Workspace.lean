import FirmwareMatrix.Board
import FirmwareMatrix.Command
import FirmwareMatrix.FileSystem

/-! The build directory that all boards share: whether the tool has set it up yet and for which
target it was set up last. From these two facts follows which commands a board needs. -/

namespace FirmwareMatrix

/-- The target that the text of a tool's cache names: the first entry `IDF_TARGET`, with or
without a type, whose value is not empty. -/
def cachedTarget? (text : String) : Option String :=
  (Text.splitAt '\n' text.toList).findSome? fun line => do
    let (key, value) ← Text.cutAt '=' (Text.trim line)
    let name := key.takeWhile (· != ':')
    if name = "IDF_TARGET".toList ∧ value ≠ [] then some (String.ofList value) else none

structure Workspace where
  directory : Path
  /-- Whether the directory holds no state of the tool. -/
  fresh : Bool
  /-- The target of the board processed last, whatever came of its build. -/
  previous : Option String
  deriving Repr

/-- The commands for one board: a set-up step if one is needed, then the build. -/
structure Plan where
  configure : Option Command
  build : Command
  deriving Repr

def Plan.commands (p : Plan) : List Command := p.configure.toList ++ [p.build]

namespace Workspace

variable {σ : Type}

/-- The state a directory is found in. The tool's marker file shows that it was set up, and names
the target. -/
def probe (fs : FileSystem σ) (directory : Path) (marker : String) : StateM σ Workspace := do
  let file := directory.child marker
  if ← fs.isPresent file then
    match ← fs.readText file with
    | .ok text => return ⟨directory, false, cachedTarget? text⟩
    | .error _ => return ⟨directory, false, none⟩
  else return ⟨directory, true, none⟩

/-- Looks again whether the directory is set up. -/
def refresh (fs : FileSystem σ) (w : Workspace) (marker : String) : StateM σ Workspace := do
  return { w with fresh := !(← fs.isPresent (w.directory.child marker)) }

def record (w : Workspace) (target : String) : Workspace := { w with previous := some target }

/-- Whether the directory has to be switched over for `target`; an unknown target counts as
another one. -/
def targetChanged (w : Workspace) (target : String) : Bool := w.previous != some target

/-- A fresh directory is set up, one set up for another target is switched over, and one set up
for this target is used as it is. -/
def plan (w : Workspace) (b : Board) : Plan :=
  { configure :=
      if w.fresh then some (.configureFresh b.name b.target)
      else if w.targetChanged b.target then some (.retarget b.name b.target)
      else none
    build := .build b.name }

end Workspace

end FirmwareMatrix
