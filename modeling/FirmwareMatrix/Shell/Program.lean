import FirmwareMatrix.Shell.Machine

/-! Programs by name: a name without a separator is looked for in the directories that the variable
`PATH` lists. A file is a program if it may be run; its first line may name the program that
reads it. -/

namespace FirmwareMatrix.Shell

/-- A program of the system, and the arguments that it gets before those of its caller. -/
structure Program where
  name : String
  before : List String
  deriving Repr

namespace Program

/-- Where programs are looked for if nothing else is said. -/
def usualPath : String := "/usr/local/sbin:/usr/local/bin:/usr/sbin:/usr/bin:/sbin:/bin"

/-- The program and the options that the first line of a script names. -/
def interpreter? (bytes : List Char) : Option (String × List String) :=
  match bytes with
  | '#' :: '!' :: cs =>
    let isBlank (c : Char) : Bool := c == ' ' || c == '\t'
    let line := ((cs.takeWhile (· != '\n')).dropWhile isBlank).reverse.dropWhile isBlank |>.reverse
    let path := line.takeWhile fun c => !isBlank c
    let rest := (line.drop path.length).dropWhile isBlank
    if path.isEmpty then none
    else some (String.ofList path, if rest.isEmpty then [] else [String.ofList rest])
  | _ => none

/-- The most scripts that read each other. -/
def mostInterpreters : Nat := 4

/-- The program at a path. -/
def atPath (d : Disk) (here : Disk.Place) : Nat → String → Except Errno Program
  | 0, _ => .error .tooManyLinks
  | fuel + 1, path =>
    match d.find here ⟨Bytes.toText path⟩ with
    | .ok (_, .program name) => .ok ⟨name, []⟩
    | .ok (_, .file bytes true) =>
      match interpreter? (Bytes.ofList bytes) with
      | none => .error .badFormat
      | some (interpreter, options) =>
        (atPath d here fuel interpreter).map fun p =>
          { p with before := p.before ++ options ++ [path] }
    | .ok _ => .error .accessDenied
    | .error e => .error e

/-- The directories that a list of paths names; an empty one is the working directory. -/
def directories (path : String) : List String :=
  (Text.splitAt ':' path.toList).map String.ofList

/-- Whether something at a path can be run. -/
def canRun (d : Disk) (here : Disk.Place) (path : String) : Bool :=
  match d.find here ⟨Bytes.toText path⟩ with
  | .ok (_, .program _) | .ok (_, .file _ true) => true
  | _ => false

/-- The path of a program by its name, or what is wrong. -/
def locate (d : Disk) (here : Disk.Place) (path name : String) : Except Errno String :=
  if name.toList.contains '/' then
    match d.find here ⟨Bytes.toText name⟩ with
    | .ok (_, .program _) | .ok (_, .file _ true) => .ok name
    | .ok _ => .error .accessDenied
    | .error e => .error e
  else
    let found := (directories path).map fun dir =>
      if dir.isEmpty then name else dir ++ "/" ++ name
    match found.find? (canRun d here) with
    | some p => .ok p
    | none =>
      let isFile (p : String) : Bool := d.isFile here ⟨Bytes.toText p⟩
      if !name.isEmpty && found.any isFile then .error .accessDenied else .error .noEntry

end Program

end FirmwareMatrix.Shell
