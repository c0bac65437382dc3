import FirmwareMatrix.Shell.Machine
import FirmwareMatrix.Shell.Pattern

/-! Words become fields: separators that a value brings in from outside of quotes divide a word, and
a field with wildcards stands for the paths that match it, if there are any. Of the separators,
blanks never make an empty field and any other one may. -/

namespace FirmwareMatrix.Shell

/-- A piece of an expanded word. -/
inductive Piece where
  /-- A character, whether it stands for itself in patterns and whether it may divide fields. -/
  | char (c : Char) (quoted splits : Bool)
  /-- Quotes stood here, so there is a field, an empty one if need be. -/
  | quotes
  /-- The boundary between two arguments; in quotes it always divides fields. -/
  | seam (inQuotes : Bool)

namespace Expansion

def blanks : List Char := " \t\n".toList

/-- Text as it stands in a word. -/
def text (s : List Char) (inQuotes splits : Bool) : List Piece :=
  (if inQuotes then [.quotes] else []) ++ s.map fun c => .char c inQuotes (splits && !inQuotes)

/-- A value that takes the place of a part of a word. -/
def value (inQuotes : Bool) (s : List Char) : List Piece :=
  s.map fun c => .char c inQuotes (!inQuotes)

/-- Values with something between each two. -/
def between (seam : List Piece) (inQuotes : Bool) : List String → List Piece
  | [] => []
  | [a] => value inQuotes a.toList
  | a :: rest => value inQuotes a.toList ++ seam ++ between seam inQuotes rest

/-- The marks of a word that is not divided. -/
def marks (ps : List Piece) : List Pattern.Mark :=
  ps.filterMap fun p => match p with
    | .char c quoted _ => some (c, quoted)
    | .quotes => none
    | .seam _ => some (' ', true)

def textOf (ms : List Pattern.Mark) : String := String.ofList (ms.map Prod.fst)

/-- What may still be skipped after a separator: blanks, and one other separator if the first was a
blank. -/
inductive Skipping where
  | nothing
  | blanks
  | blanksAndOne
  deriving DecidableEq, Repr

/-- The field under way: its marks in reverse, and whether it is one even if it is empty. -/
structure Current where
  marks : List Pattern.Mark
  begun : Bool

def Current.fields (c : Current) : List (List Pattern.Mark) :=
  if c.begun then [c.marks.reverse] else []

/-- Divides pieces into fields. -/
def split (separators : List Char) :
    Skipping → Current → List Piece → List (List Pattern.Mark)
  | _, current, [] => current.fields
  | _, current, .quotes :: ps => split separators .nothing { current with begun := true } ps
  | _, current, .seam true :: ps =>
    current.marks.reverse :: split separators .nothing ⟨[], true⟩ ps
  | skipping, current, .seam false :: ps =>
    current.fields ++
      split separators (if current.begun then .blanksAndOne else skipping) ⟨[], false⟩ ps
  | skipping, current, .char c quoted splits :: ps =>
    if splits && separators.contains c then
      let isBlank := blanks.contains c
      if isBlank then
        current.fields ++
          split separators (if current.begun then .blanksAndOne else skipping) ⟨[], false⟩ ps
      else if skipping = .blanksAndOne && !current.begun then
        split separators .blanks ⟨[], false⟩ ps
      else current.marks.reverse :: split separators .blanks ⟨[], false⟩ ps
    else split separators .nothing ⟨(c, quoted) :: current.marks, true⟩ ps

def fields (separators : List Char) (ps : List Piece) : List (List Pattern.Mark) :=
  split separators .nothing ⟨[], false⟩ ps

/-! ## Paths -/

/-- The pieces of a pattern between separators. -/
def pathPieces : List Pattern.Mark → List (List Pattern.Mark)
  | [] => [[]]
  | m :: ms =>
    if m.1 == '/' then [] :: pathPieces ms
    else match pathPieces ms with
      | [] => [[m]]
      | p :: ps => (m :: p) :: ps

/-- The text of a pattern that stands for itself. -/
def plainText (ms : List Pattern.Mark) : String := textOf (Pattern.settled ms)

/-- The names in a directory that a pattern matches. Names that start with a dot are matched only
by patterns that do, and so are the directory itself and the one above. -/
def matchingNames (d : Disk) (here : Disk.Place) (directory : String) (piece : List Pattern.Mark) :
    List String :=
  match d.find here ⟨Bytes.toText directory⟩ with
  | .ok (place, .directory) =>
    let es := Pattern.compile piece
    let dotted := (Pattern.settled piece).head?.any fun m => m.1 == '.'
    let names := (d.names place).map Bytes.ofText
    let names := if dotted then "." :: ".." :: names else names
    names.filter fun n =>
      (dotted || n.toList.head? != some '.') && Pattern.accepts es n.toList
  | _ => []

/-- The paths that continue a text by the pieces of a pattern. -/
def paths (d : Disk) (here : Disk.Place) (sofar : String) : List (List Pattern.Mark) → List String
  | [] => []
  | piece :: rest =>
    let grown (name : String) : List String :=
      let next := sofar ++ name
      match rest with
      | [] => if (d.findName here ⟨Bytes.toText next⟩).isOk then [next] else []
      | rest => paths d here (next ++ "/") rest
    if Pattern.hasWildcard piece then
      let directory := if sofar.isEmpty then "." else sofar
      (matchingNames d here directory piece).flatMap grown
    else grown (plainText piece)

/-- The words that a field becomes. -/
def words (d : Disk) (here : Disk.Place) (field : List Pattern.Mark) : List String :=
  if Pattern.hasWildcard field then
    match paths d here "" (pathPieces field) with
    | [] => [textOf field]
    | found => found.mergeSort fun a b => a ≤ b
  else [textOf field]

/-! ## Home directories -/

/-- The directory of a person that the system knows. -/
def homeOf (p : Process) (person : List Char) : Option String :=
  if person.isEmpty then p.value? "HOME"
  else if person == "root".toList then some "/root"
  else none

/-- The first part of a word with the directory that a tilde at its start stands for. -/
def withHome (p : Process) (ends : List Char) (atEnd : Bool) (s : List Char) :
    Option (List Char × List Char) :=
  match s with
  | '~' :: cs =>
    let person := cs.takeWhile fun c => !ends.contains c
    if person.length == cs.length && !atEnd then none
    else (homeOf p person).map fun home => (home.toList, cs.drop person.length)
  | _ => none

/-- Text out of quotes at the start of a word; `atEnd` says that nothing follows it. -/
def tilded (p : Process) (atEnd splits : Bool) (s : List Char) : List Piece :=
  match withHome p ['/'] atEnd s with
  | some (home, rest) => .quotes :: text home true false ++ text rest false splits
  | none => text s false splits

/-- Text out of quotes in a value that is assigned, where colons separate paths. -/
def tildedValue (p : Process) (atEnd : Bool) : Nat → List Char → List Piece
  | 0, s => text s false false
  | fuel + 1, s =>
    let (start, s) := match withHome p ['/', ':'] atEnd s with
      | some (home, rest) => (text home true false, rest)
      | none => ([], s)
    let item := s.takeWhile (· != ':')
    start ++ text item false false ++ match s.drop item.length with
      | [] => []
      | colon :: rest => text [colon] false false ++ tildedValue p atEnd fuel rest

/-! ## Fields of a line that is read -/

/-- A character of a line, and whether a backslash took its meaning away. -/
abbrev Guarded := Char × Bool

def isSeparator (separators : List Char) (c : Guarded) : Bool := !c.2 && separators.contains c.1

def isBlankSeparator (separators : List Char) (c : Guarded) : Bool :=
  isSeparator separators c && blanks.contains c.1

/-- Drops separators that are blank from the end. -/
def trimmedEnd (separators : List Char) (cs : List Guarded) : List Guarded :=
  (cs.reverse.dropWhile (isBlankSeparator separators)).reverse

/-- The value of the last name: what is left, without the separator after a single field. -/
def lastValue (separators : List Char) (cs : List Guarded) : List Char :=
  let cs := trimmedEnd separators cs
  let item := cs.takeWhile fun c => !isSeparator separators c
  let after := (cs.drop item.length).dropWhile (isBlankSeparator separators)
  let alone := match after with
    | c :: rest => isSeparator separators c && rest.isEmpty
    | [] => true
  (if alone then item else cs).map Prod.fst

/-- The values of so many names. -/
def readValues (separators : List Char) : Nat → List Guarded → List (List Char)
  | 0, _ => []
  | 1, cs => [lastValue separators (cs.dropWhile (isBlankSeparator separators))]
  | n + 1, cs =>
    let cs := cs.dropWhile (isBlankSeparator separators)
    let item := cs.takeWhile fun c => !isSeparator separators c
    let after := (cs.drop item.length).dropWhile (isBlankSeparator separators)
    let after := match after with
      | c :: rest => if isSeparator separators c then rest else after
      | [] => []
    item.map Prod.fst :: readValues separators n after

end Expansion

end FirmwareMatrix.Shell
