import FirmwareMatrix.FileSystem

/-! A disk: the files and directories below one root, each at a place named by the names that lead
to it. A path is followed from the root or from the directory that a process works in, one piece
at a time, every piece but the last being a directory; a link on the way is replaced by the path
that it holds. Names on the disk are texts, and a path that is none is refused. -/

namespace FirmwareMatrix

/-- Files that hold nothing of their own. -/
inductive Disk.Device where
  /-- Takes everything and holds nothing. -/
  | null
  /-- Holds zeros without end. -/
  | zero
  /-- Takes nothing, as if the disk were full. -/
  | full
  deriving DecidableEq, Repr

inductive Disk.Entry where
  | file (bytes : List UInt8) (executable : Bool)
  | directory
  | link (target : String)
  /-- A program of the system itself. -/
  | program (name : String)
  | device (d : Disk.Device)
  deriving DecidableEq, Repr

/-- Everything but the root itself. -/
structure Disk where
  entries : List (List String × Disk.Entry)
  deriving Repr

namespace Disk

/-- The names that lead to an entry from the root. -/
abbrev Place := List String

def empty : Disk := ⟨[]⟩

def lookup (d : Disk) (place : Place) : Option Entry :=
  if place.isEmpty then some .directory else d.entries.lookup place

def erase (d : Disk) (place : Place) : Disk := ⟨d.entries.filter fun e => e.1 != place⟩

def insert (d : Disk) (place : Place) (e : Entry) : Disk := ⟨(place, e) :: (d.erase place).entries⟩

/-- The names of the entries right below a place. -/
def names (d : Disk) (place : Place) : List String :=
  d.entries.filterMap fun e =>
    if e.1.dropLast == place then e.1.getLast? else none

/-- A place as an absolute path. -/
def pathOf (place : Place) : Path := ⟨"/" ++ String.intercalate "/" place⟩

/-! ## Following paths -/

/-- The most links that are followed on the way. -/
def mostLinks : Nat := 40

/-- Where a path leads: to an entry, or to a name that is free in a directory. -/
inductive Spot where
  | taken (place : Place) (e : Entry)
  | free (place : Place)

/-- The most bytes that a name may have. -/
def longestName : Nat := 255

/-- The most bytes that a path may have. -/
def longestPath : Nat := 4095

/-- Follows the pieces of a path from a place. A link that ends the path is followed only if
`toEnd` says so. -/
def follow (d : Disk) (toEnd : Bool) (links : Nat) (place : Place) (pieces : List (List Char)) :
    Except Errno Spot :=
  match pieces with
  | [] =>
    match d.lookup place with
    | some e => .ok (.taken place e)
    | none => .error .noEntry
  | piece :: rest =>
    match d.lookup place with
    | none => .error .noEntry
    | some .directory =>
      if piece = [] ∨ piece = ['.'] then follow d toEnd links place rest
      else if piece = ['.', '.'] then follow d toEnd links place.dropLast rest
      else
        let name := String.ofList piece
        let next := place ++ [name]
        if longestName < name.utf8ByteSize then .error .nameTooLong
        else match d.lookup next with
        | none => if rest.isEmpty then .ok (.free next) else .error .noEntry
        | some (.link target) =>
          if rest.isEmpty ∧ !toEnd then .ok (.taken next (.link target))
          else match links with
          | 0 => .error .tooManyLinks
          | links + 1 =>
            let start := if target.toList.head? == some '/' then [] else place
            follow d toEnd links start (Text.splitAt '/' target.toList ++ rest)
        | some _ => follow d toEnd links next rest
    | some _ => .error .notDirectory
termination_by (links, pieces.length)

/-- Where a path leads for a process that works in `here`. -/
def locateTo (d : Disk) (toEnd : Bool) (here : Place) (p : Path) : Except Errno Spot :=
  match p.native with
  | .stray _ => .error .malformedName
  | .text s =>
    if s.toList.contains '\x00' then .error .endInPath
    else if s.isEmpty then .error .noEntry
    else if longestPath < s.utf8ByteSize then .error .nameTooLong
    else d.follow toEnd mostLinks (if p.isAbsolute then [] else here) (Text.splitAt '/' s.toList)

def locate (d : Disk) (here : Place) (p : Path) : Except Errno Spot := d.locateTo true here p

def Spot.entry : Except Errno Spot → Except Errno (Place × Entry)
  | .ok (.taken place e) => .ok (place, e)
  | .ok (.free _) => .error .noEntry
  | .error e => .error e

/-- The entry that a path leads to. -/
def find (d : Disk) (here : Place) (p : Path) : Except Errno (Place × Entry) :=
  Spot.entry (d.locate here p)

/-- The entry that a path names, which may be a link. -/
def findName (d : Disk) (here : Place) (p : Path) : Except Errno (Place × Entry) :=
  Spot.entry (d.locateTo false here p)

def isPresent (d : Disk) (here : Place) (p : Path) : Bool :=
  match d.find here p with
  | .ok _ => true
  | .error _ => false

def isFile (d : Disk) (here : Place) (p : Path) : Bool :=
  match d.find here p with
  | .ok (_, .file _ _) | .ok (_, .program _) => true
  | _ => false

def isDirectory (d : Disk) (here : Place) (p : Path) : Bool :=
  match d.find here p with
  | .ok (_, .directory) => true
  | _ => false

/-- The path without separators at its end. -/
def withoutTrailing (p : Path) : Path :=
  match p.native with
  | .stray _ => p
  | .text s =>
    match (s.toList.reverse.dropWhile (· == '/')).reverse with
    | [] => if s.isEmpty then p else ⟨"/"⟩
    | cs => ⟨String.ofList cs⟩

def hasTrailing (p : Path) : Bool := p.read fun s xs => xs.getLast? == some s.separator

/-! ## Changing entries -/

def readBytes (d : Disk) (here : Place) (p : Path) : Except Errno (List UInt8) :=
  match d.find here p with
  | .ok (_, .file bytes _) => .ok bytes
  | .ok (_, .directory) => .error .isDirectory
  | .ok _ => .ok []
  | .error e => .error e

/-- Makes one directory. -/
def makeDirectory (d : Disk) (here : Place) (p : Path) : Except Errno Disk :=
  match d.locateTo false here (withoutTrailing p) with
  | .ok (.free place) => .ok (d.insert place .directory)
  | .ok (.taken _ _) => .error .exists
  | .error e => .error e

/-- Makes the first of `paths`, each of which lies in the next; those above are made where they
are missing, and remain even if a later one cannot be made. -/
def makeEach (here : Place) : List Path → StateM Disk (Except Errno Unit)
  | [] => pure (.ok ())
  | p :: above => do
    if p.isEmpty then return .ok ()
    let finish (d : Disk) : Except Errno Disk → Except Errno Unit × Disk
      | .ok d => (.ok (), d)
      | .error e => (if d.isDirectory here p then .ok () else .error e, d)
    match (← get).makeDirectory here p with
    | .error .noEntry =>
      match ← makeEach here above with
      | .error e => return .error e
      | .ok _ => fun d => finish d (d.makeDirectory here p)
    | made => fun d => finish d made

/-- A path and the paths above it. -/
def upwards : Nat → Path → List Path
  | 0, p => [p]
  | fuel + 1, p =>
    match p.parent with
    | none => [p]
    | some q => p :: upwards fuel q

/-- Makes a directory and those above it that are missing. -/
def makeDirectories (here : Place) (p : Path) : StateM Disk (Except Errno Unit) :=
  makeEach here (upwards p.bytes.length p)

/-- Opens a file for writing from its start: it is made if it is missing and emptied if not. The
place of the file. -/
def createFile (here : Place) (p : Path) : StateM Disk (Except Errno Place) := fun d =>
  match d.locate here (if hasTrailing p then withoutTrailing p else p) with
  | .error e => (.error e, d)
  | .ok (.taken _ .directory) => (.error .isDirectory, d)
  | .ok (.taken place (.file _ executable)) =>
    if hasTrailing p then (.error .notDirectory, d)
    else (.ok place, d.insert place (.file [] executable))
  | .ok (.taken place _) => if hasTrailing p then (.error .notDirectory, d) else (.ok place, d)
  | .ok (.free place) =>
    if hasTrailing p then (.error .isDirectory, d) else (.ok place, d.insert place (.file [] false))

/-- Adds bytes to the end of a file. -/
def append (d : Disk) (place : Place) (bytes : List UInt8) : Disk :=
  match d.lookup place with
  | some (.file old executable) => d.insert place (.file (old ++ bytes) executable)
  | _ => d

def writeBytes (here : Place) (p : Path) (bytes : List UInt8) :
    StateM Disk (Except Errno Unit) := do
  match ← createFile here p with
  | .error e => return .error e
  | .ok place =>
    modify fun d => d.append place bytes
    return .ok ()

def setExecutable (d : Disk) (here : Place) (p : Path) : Disk :=
  match d.find here p with
  | .ok (place, .file bytes _) => d.insert place (.file bytes true)
  | _ => d

/-- Removes a file. -/
def unlink (d : Disk) (here : Place) (p : Path) : Except Errno Disk :=
  match d.findName here p with
  | .ok (_, .directory) => .error .isDirectory
  | .ok (place, _) => .ok (d.erase place)
  | .error e => .error e

/-- Whether an entry lies at a place or below it. -/
def isWithin (place : Place) (e : Place × Entry) : Bool := place.isPrefixOf e.1

/-- Removes an entry and all that lies below it. -/
def eraseTree (d : Disk) (place : Place) : Disk := ⟨d.entries.filter fun e => !isWithin place e⟩

/-- What lies at a place and below it, as if it lay elsewhere. -/
def relocated (d : Disk) (source dest : Place) : List (Place × Entry) :=
  (d.entries.filter (isWithin source)).map fun e => (dest ++ e.1.drop source.length, e.2)

/-- Moves an entry with all that lies below it in the place of another. -/
def moveTree (d : Disk) (source dest : Place) : Disk :=
  if source = dest then d
  else ⟨d.relocated source dest ++ ((d.eraseTree source).eraseTree dest).entries⟩

/-- Copies a file with its permission. The target is opened before the source is read, so a file
that is copied over itself ends up empty. -/
def copyFile (here : Place) (source dest : Path) : StateM Disk (Except Cause Unit) := do
  match (← get).find here source with
  | .error e => return .error (.system e)
  | .ok (origin, .file _ executable) =>
    match ← createFile here dest with
    | .error e => return .error (.system e)
    | .ok target =>
      modify fun d =>
        match d.lookup origin, d.lookup target with
        | some (.file bytes _), some (.file _ _) => d.insert target (.file bytes executable)
        | _, _ => d
      return .ok ()
  | .ok _ => return .error .notRegularFile

/-! ## The disk as a file system -/

def failing {α : Type} (s : Step) (c : Cause) : Except Failure α :=
  .error ((Failure.ofCause c).during s)

def readText (d : Disk) (here : Place) (p : Path) : Except Failure String :=
  match d.readBytes here p with
  | .error e => failing (.readingFile p) (.system e)
  | .ok bytes =>
    match Text.Utf8.decode bytes with
    | .ok cs => .ok (String.ofList cs)
    | .error _ => failing (.readingFile p) .notText

def createDirectories (here : Place) (p : Path) : StateM Disk (Except Failure Unit) := do
  match ← makeDirectories here p with
  | .ok _ => return .ok ()
  | .error e => return failing (.creatingDirectory p) (.system e)

/-- Writes a file, making the directories that it lies in. -/
def write (here : Place) (p : Path) (bytes : List UInt8) : StateM Disk (Except Failure Unit) := do
  let above ← match p.parent with
    | some q => createDirectories here q
    | none => pure (.ok ())
  match above with
  | .error f => return .error f
  | .ok _ =>
    match ← writeBytes here p bytes with
    | .ok _ => return .ok ()
    | .error e => return failing (.creatingFile p) (.system e)

def removeFile (d : Disk) (here : Place) (p : Path) : Except Failure Disk :=
  match d.unlink here p with
  | .ok d => .ok d
  | .error e => failing (.removingFile p) (.system e)

def canonicalize (d : Disk) (here : Place) (p : Path) : Except Failure Path :=
  match d.find here p with
  | .ok (place, _) => .ok (pathOf place)
  | .error e => failing (.canonicalizing p) (.system e)

def readDirectory (d : Disk) (here : Place) (p : Path) : Except Failure (List Path) :=
  match d.find here p with
  | .ok (place, .directory) => .ok ((d.names place).map p.child)
  | .ok _ => failing (.readingDirectory p) (.system .notDirectory)
  | .error e => failing (.readingDirectory p) (.system e)

/-- The file operations of a process that works in `here`. -/
def fileSystem (here : Place) : FileSystem Disk where
  readText p := fun d => (d.readText here p, d)
  write := write here
  isPresent p := fun d => (d.isPresent here p, d)
  isFile p := fun d => (d.isFile here p, d)
  isDirectory p := fun d => (d.isDirectory here p, d)
  canonicalize p := fun d => (d.canonicalize here p, d)
  createDirectories := createDirectories here
  copy source dest := do
    match ← copyFile here source dest with
    | .ok _ => return .ok ()
    | .error c => return failing (.copying source dest) c
  removeFile p := fun d =>
    match d.removeFile here p with
    | .ok d => (.ok (), d)
    | .error f => (.error f, d)
  readDirectory p := fun d => (d.readDirectory here p, d)

instance : Extent Disk := ⟨fun d => d.entries.length + 1⟩

end Disk

end FirmwareMatrix
