import FirmwareMatrix.FileSystem

/-! A file tree in memory: for each place, a file with its bytes or a directory with the names it
lists, in the order they were added. Making an entry makes the directories above it; names are
listed once. -/

namespace FirmwareMatrix

inductive Tree.Node where
  | file (bytes : List UInt8)
  | directory (names : List String)
  deriving DecidableEq, Repr

/-- Each place has at most one entry. -/
structure Tree where
  entries : List (List Component × Tree.Node)
  deriving Repr

namespace Tree

/-- The tree that holds the current directory alone. -/
def empty : Tree := ⟨[([.here], .directory [])]⟩

def lookup (t : Tree) (place : List Component) : Option Node := t.entries.lookup place

def contains (t : Tree) (place : List Component) : Bool := (t.lookup place).isSome

def erase (t : Tree) (place : List Component) : Tree :=
  ⟨t.entries.filter fun e => e.1 != place⟩

def insert (t : Tree) (place : List Component) (n : Node) : Tree :=
  ⟨(place, n) :: (t.erase place).entries⟩

/-- The place above: a relative place of one step lies in the current directory, and nothing is
above a root or an empty place. -/
def above? : List Component → Option (List Component)
  | [] => none
  | [.root] => none
  | [_] => some [.here]
  | place => some place.dropLast

/-- The name that the directory above lists a place by; a name that is no text is not listed. -/
def nameOf? (place : List Component) : Option String :=
  match place.getLast? with
  | some (.name text) => some text
  | _ => none

/-- A place and all places above it, from the place upwards. -/
def lineage (place : List Component) : List (List Component) :=
  let own := (List.range place.length).map fun i => place.take (place.length - i)
  match place with
  | [] => [[]]
  | .root :: _ | .here :: _ => own
  | _ => own ++ [[.here]]

/-- Lists a place in the directory above it, once. -/
def link (t : Tree) (place : List Component) : Tree :=
  match above? place, nameOf? place with
  | some above, some name =>
    match t.lookup above with
    | some (.directory names) =>
      if names.contains name then t else t.insert above (.directory (names ++ [name]))
    | _ => t
  | _, _ => t

/-- Takes a place off the list of the directory above it. -/
def unlink (t : Tree) (place : List Component) : Tree :=
  match nameOf? place with
  | some name =>
    let above := (above? place).getD [.here]
    match t.lookup above with
    | some (.directory names) => t.insert above (.directory (names.filter (· != name)))
    | _ => t
  | none => t

/-- Makes a directory, and those above it, up to the first place that is taken. -/
def addDirectory (t : Tree) (place : List Component) : Tree :=
  ((lineage place).takeWhile fun p => !t.contains p).foldr
    (fun p t => (t.insert p (.directory [])).link p) t

/-- Puts a file at a place, whatever was there. -/
def addFile (t : Tree) (place : List Component) (bytes : List UInt8) : Tree :=
  let t := t.insert place (.file bytes)
  match above? place with
  | none => t
  | some above => (t.addDirectory above).link place

def file? (t : Tree) (place : List Component) : Option (List UInt8) :=
  match t.lookup place with
  | some (.file bytes) => some bytes
  | _ => none

def names? (t : Tree) (place : List Component) : Option (List String) :=
  match t.lookup place with
  | some (.directory names) => some names
  | _ => none

/-! ## Operations on paths -/

def contents? (t : Tree) (p : Path) : Option (List UInt8) := t.file? p.components

/-- The entries of a directory in path order. -/
def list? (t : Tree) (p : Path) : Option (List Path) :=
  (t.names? p.components).map fun names =>
    (names.map p.child).mergeSort fun a b => (compare a b).isLE

def readText (t : Tree) (p : Path) : Except Failure String :=
  match t.lookup p.components with
  | some (.file bytes) =>
    match Text.Utf8.decode bytes with
    | .ok cs => .ok (String.ofList cs)
    | .error f => .error (.ofCause (.malformedText f))
  | some (.directory _) => .error (.ofCause (.directoryInPlace p))
  | none => .error (.ofCause (.missingFile p))

/-- The directory that a path's entry lies in, as messages show it. -/
def parentShown (p : Path) : Path :=
  match p.parent with
  | some q => if q.isEmpty then ⟨"."⟩ else q
  | none => ⟨"."⟩

def createDirectories (t : Tree) (p : Path) : Except Failure Tree :=
  if (t.file? p.components).isSome then .error (.ofCause (.fileInPlace p))
  else .ok (t.addDirectory p.components)

def copy (t : Tree) (source dest : Path) : Except Failure Tree :=
  match t.file? source.components with
  | none => .error (.ofCause (.missingFile source))
  | some bytes =>
    let above := (above? dest.components).getD [.here]
    if (t.names? above).isSome then .ok (t.addFile dest.components bytes)
    else .error (.ofCause (.missingParent (parentShown dest)))

def removeFile (t : Tree) (p : Path) : Except Failure Tree :=
  match t.lookup p.components with
  | some (.file _) => .ok ((t.erase p.components).unlink p.components)
  | some (.directory _) => .error (.ofCause (.directoryInPlace p))
  | none => .error (.ofCause (.missingFile p))

def readDirectory (t : Tree) (p : Path) : Except Failure (List Path) :=
  match t.names? p.components with
  | some names => .ok (names.map p.child)
  | none => .error (.ofCause (.notListable p))

/-- A change that leaves the tree alone when it fails. -/
def change (f : Tree → Except Failure Tree) : StateM Tree (Except Failure Unit) := fun t =>
  match f t with
  | .ok t' => (.ok (), t')
  | .error e => (.error e, t)

def fileSystem : FileSystem Tree where
  readText p := fun t => (t.readText p, t)
  write p bytes := fun t => (.ok (), t.addFile p.components bytes)
  isPresent p := fun t => (t.contains p.components, t)
  isFile p := fun t => ((t.file? p.components).isSome, t)
  isDirectory p := fun t => ((t.names? p.components).isSome, t)
  canonicalize p := fun t => (.ok p, t)
  createDirectories p := change (createDirectories · p)
  copy source dest := change (copy · source dest)
  removeFile p := change (removeFile · p)
  readDirectory p := fun t => (t.readDirectory p, t)

instance : Extent Tree := ⟨fun t => t.entries.length⟩

end Tree

end FirmwareMatrix
