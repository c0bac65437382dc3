import FirmwareMatrix.Shell.Permission
import FirmwareMatrix.Shell.Utility.Arguments

/-! Programs that list, make, copy, move and remove files, and those that take paths apart. -/

namespace FirmwareMatrix.Shell.Utility.Files

open Act

def entryOf? (name : String) : Act (Except Errno (Disk.Place × Disk.Entry)) := do
  return (← disk).find (← process).here (pathOf name)

def nameOf? (name : String) : Act (Except Errno (Disk.Place × Disk.Entry)) := do
  return (← disk).findName (← process).here (pathOf (
    Bytes.ofText (Disk.withoutTrailing (pathOf name)).text))

def isDirectory (name : String) : Act Bool := do
  return (← disk).isDirectory (← process).here (pathOf name)

def changeDisk (f : Disk → Disk) : Act Unit := onMachine fun m => { m with disk := f m.disk }

/-- The path of a name in a directory. -/
def inside (directory name : String) : String :=
  if directory.toList.getLast? == some '/' then directory ++ name else directory ++ "/" ++ name

/-! ## Taking paths apart -/

def withoutSlashes (s : List Char) : List Char := (s.reverse.dropWhile (· == '/')).reverse

/-- The last piece of a path. -/
def lastName (path : String) : String :=
  let cs := withoutSlashes path.toList
  if cs.isEmpty then (if path.isEmpty then "" else "/")
  else String.ofList (cs.reverse.takeWhile (· != '/')).reverse

/-- A path without its last piece. -/
def parentName (path : String) : String :=
  let cs := withoutSlashes path.toList
  let above := withoutSlashes (cs.reverse.dropWhile (· != '/')).reverse
  if cs.contains '/' then (if above.isEmpty then "/" else String.ofList above)
  else if cs.isEmpty && !path.isEmpty then "/" else "."

def withoutSuffix (suffix name : String) : String :=
  if suffix != name && suffix.toList.isSuffixOf name.toList then
    String.ofList (name.toList.take (name.length - suffix.length))
  else name

def basename (args : List String) : Act Nat :=
  let k : Known := ⟨"basename", "az", "s", [("multiple", 'a'), ("suffix", 's'), ("zero", 'z')], 1⟩
  withArguments k args fun g => do
    let several := g.has 'a' || g.has 's'
    let names ← match g.operands, several with
      | [], _ =>
        match ← misuse (α := Unit) k "missing operand" with
        | .error _ => pure none
        | .ok _ => pure none
      | names, true => pure (some (names.map fun n =>
          withoutSuffix ((g.value? 's').getD "") (lastName n)))
      | [name], false => pure (some [lastName name])
      | [name, suffix], false => pure (some [withoutSuffix suffix (lastName name)])
      | _ :: _ :: extra :: _, false =>
        let _ ← misuse (α := Unit) k ("extra operand " ++ quoted extra)
        pure none
    match names with
    | none => return 1
    | some names =>
      emit (String.join (names.map (· ++ (if g.has 'z' then "\x00" else "\n"))))
      return 0

def dirname (args : List String) : Act Nat :=
  let k : Known := ⟨"dirname", "z", "", [("zero", 'z')], 1⟩
  withArguments k args fun g => do
    if g.operands.isEmpty then
      let _ ← misuse (α := Unit) k "missing operand"
      return 1
    emit (String.join (g.operands.map fun n =>
      parentName n ++ (if g.has 'z' then "\x00" else "\n")))
    return 0

/-- The place that a path leads to; `missing` says how many of its last pieces may be missing. -/
def resolved (anyMissing : Bool) (name : String) : Act (Except Errno String) := do
  let p ← process
  match (← disk).locate p.here (pathOf name) with
  | .ok (.taken place _) => return .ok (Bytes.ofText (Disk.pathOf place).text)
  | .ok (.free place) => return .ok (Bytes.ofText (Disk.pathOf place).text)
  | .error e =>
    if anyMissing then
      let start := if name.toList.head? == some '/' then name
        else Bytes.ofText (Disk.pathOf p.here).text ++ "/" ++ name
      let pieces := (Text.splitAt '/' start.toList).foldl (fun (found : List (List Char)) piece =>
        if piece.isEmpty || piece == ['.'] then found
        else if piece == ['.', '.'] then found.tail
        else piece :: found) []
      return .ok ("/" ++ String.intercalate "/" (pieces.reverse.map String.ofList))
    else return .error e

def mustExist (name : String) : Act (Except Errno String) := do
  match ← entryOf? name with
  | .ok (place, _) => return .ok (Bytes.ofText (Disk.pathOf place).text)
  | .error e => return .error e

/-- The way from one directory to a path, both without links. -/
def wayBetween (base path : String) : String :=
  let parts (s : String) : List (List Char) := (Text.splitAt '/' s.toList).filter (!·.isEmpty)
  let (froms, tos) := (parts base, parts path)
  let shared := ((froms.zip tos).takeWhile fun (a, b) => a == b).length
  let way := List.replicate (froms.length - shared) ['.', '.'] ++ tos.drop shared
  if way.isEmpty then "." else String.intercalate "/" (way.map String.ofList)

def realpath (args : List String) : Act Nat :=
  let k : Known := ⟨"realpath", "emsqPLz", "r", [("canonicalize-existing", 'e'),
    ("canonicalize-missing", 'm'), ("no-symlinks", 's'), ("strip", 's'), ("quiet", 'q'),
    ("zero", 'z'), ("relative-to", 'r')], 1⟩
  withArguments k args fun g => do
    if g.operands.isEmpty then
      let _ ← misuse (α := Unit) k "missing operand"
      return 1
    let base : Option String ← match g.value? 'r' with
      | none => pure none
      | some name => do
        match ← resolved true name with
        | .ok path => pure (some path)
        | .error _ => pure none
    forEach (fun name => do
      let found ← if g.has 'e' then mustExist name else resolved (g.has 'm' || g.has 's') name
      match found with
      | .ok path =>
        let path := match base with
          | some base => wayBetween base path
          | none => path
        emit (path ++ "\n")
        return true
      | .error e =>
        if !g.has 'q' then complain ("realpath: " ++ quotedIfNeeded name ++ ": " ++ e.text)
        return false) g.operands

def readlink (args : List String) : Act Nat :=
  let k : Known := ⟨"readlink", "femnqsvz", "", [("canonicalize", 'f'),
    ("canonicalize-existing", 'e'), ("canonicalize-missing", 'm'), ("no-newline", 'n')], 1⟩
  withArguments k args fun g => do
    if g.operands.isEmpty then
      let _ ← misuse (α := Unit) k "missing operand"
      return 1
    forEach (fun name => do
      let found ← if g.has 'e' then mustExist name
        else if g.has 'f' || g.has 'm' then resolved (g.has 'm') name
        else match ← nameOf? name with
          | .ok (_, .link target) => pure (.ok (Bytes.ofText target))
          | .ok _ => pure (.error .invalid)
          | .error e => pure (.error e)
      match found with
      | .ok path =>
        emit (path ++ (if g.has 'n' then "" else "\n"))
        return true
      | .error _ => return false) g.operands

/-! ## Listing -/

def sortedNames (names : List String) : List String := names.mergeSort fun a b => a ≤ b

/-- The names in a directory. -/
def namesIn (place : Disk.Place) : Act (List String) := do
  return sortedNames (((← disk).names place).map Bytes.ofText)

/-- What stands behind a name to say what it is. -/
def mark (directoriesOnly : Bool) : Disk.Entry → String
  | .directory => "/"
  | e => if directoriesOnly then "" else match e with
    | .link _ => "@"
    | .file _ true | .program _ => "*"
    | _ => ""

structure Listing where
  hidden : Bool
  dots : Bool
  marks : Option Bool
  backwards : Bool
  recursive : Bool

/-- A directory's names as they are listed. -/
def shownNames (l : Listing) (place : Disk.Place) : Act (List String) := do
  let names ← namesIn place
  let names := names.filter fun n => l.hidden || n.toList.head? != some '.'
  let names := if l.dots then "." :: ".." :: names else names
  let d ← disk
  let marked (n : String) : String :=
    match l.marks with
    | none => n
    | some only =>
      match if n == "." || n == ".." then some .directory else d.lookup (place ++ [Bytes.toText n]) with
      | some e => n ++ mark only e
      | none => n
  return (if l.backwards then names.reverse else names).map marked

/-- Lists directories one after another, and those in them if so wanted. -/
def listDirectories (l : Listing) (titled first : Bool) : Nat → List (String × Disk.Place) → Act Unit
  | 0, _ => return
  | _, [] => return
  | fuel + 1, (name, place) :: rest => do
    if titled then emit ((if first then "" else "\n") ++ name ++ ":\n")
    emit (String.join ((← shownNames l place).map (· ++ "\n")))
    let below ← if l.recursive then do
        let d ← disk
        let names := (← namesIn place).filter fun n => l.hidden || n.toList.head? != some '.'
        let found := names.filterMap fun n =>
          let inner := place ++ [Bytes.toText n]
          if d.lookup inner == some .directory then some (inside name n, inner) else none
        pure (if l.backwards then found.reverse else found)
      else pure []
    listDirectories l titled false fuel (below ++ rest)

def ls (args : List String) : Act Nat :=
  let k : Known := ⟨"ls", "1aAdFprRlhtSUXiskqnogGCxmLHcufvQbN", "w", [("all", 'a'),
    ("almost-all", 'A'), ("directory", 'd'), ("classify", 'F'), ("reverse", 'r'), ("recursive", 'R'),
    ("color", 'N')], 2⟩
  withArguments k args fun g => do
    let names := if g.operands.isEmpty then ["."] else g.operands
    let l : Listing :=
      { hidden := g.has 'a' || g.has 'A', dots := g.has 'a'
        marks := if g.has 'F' then some false else if g.has 'p' then some true else none
        backwards := g.has 'r', recursive := g.has 'R' }
    let rec sortOut : List String → Act (List (String × Disk.Entry) × List (String × Disk.Place) × Bool)
      | [] => return ([], [], true)
      | name :: rest => do
        let found ← match ← entryOf? name with
          | .ok (place, .directory) =>
            if g.has 'F' || g.has 'd' then nameOf? name else pure (.ok (place, .directory))
          | _ => nameOf? name
        match found with
        | .error e =>
          complain ("ls: cannot access " ++ quoted name ++ ": " ++ e.text)
          let (files, dirs, _) ← sortOut rest
          return (files, dirs, false)
        | .ok (place, e) =>
          let (files, dirs, ok) ← sortOut rest
          if e == .directory && !g.has 'd' then return (files, (name, place) :: dirs, ok)
          else return ((name, e) :: files, dirs, ok)
    let (files, dirs, ok) ← sortOut names
    let byName {α : Type} (xs : List (String × α)) : List (String × α) :=
      let sorted := xs.mergeSort fun a b => a.1 ≤ b.1
      if g.has 'r' then sorted.reverse else sorted
    let shown (e : String × Disk.Entry) : String := e.1 ++ (match l.marks with
      | some only => mark only e.2
      | none => "") ++ "\n"
    emit (String.join ((byName files).map shown))
    let titled := names.length > 1 || g.has 'R'
    if !files.isEmpty && !dirs.isEmpty then emit "\n"
    listDirectories l titled true ((← disk).entries.length + names.length + 1) (byName dirs)
    return if ok then 0 else 2

/-! ## Making and removing -/

def mkdir (args : List String) : Act Nat :=
  let k : Known := ⟨"mkdir", "pv", "m", [("parents", 'p'), ("verbose", 'v'), ("mode", 'm')], 1⟩
  withArguments k args fun g => do
    if g.operands.isEmpty then
      let _ ← misuse (α := Unit) k "missing operand"
      return 1
    forEach (fun name => do
      let here := (← process).here
      let d ← disk
      let made ← if g.has 'p' then
          if name.isEmpty then pure (.error .noEntry) else onDisk (Disk.makeDirectories here (pathOf name))
        else match d.makeDirectory here (pathOf name) with
          | .ok d =>
            changeDisk fun _ => d
            pure (.ok ())
          | .error e => pure (.error e)
      match made with
      | .ok _ =>
        if g.has 'v' && !(d.isDirectory here (pathOf name)) then
          emit ("mkdir: created directory " ++ quoted name ++ "\n")
        return true
      | .error e =>
        complain ("mkdir: cannot create directory " ++ quoted name ++ ": " ++ e.text)
        return false) g.operands

def removeEmpty (name : String) : Act (Except Errno Unit) := do
  match ← nameOf? name with
  | .error e => return .error e
  | .ok (place, .directory) =>
    if ((← disk).names place).isEmpty then
      changeDisk fun d => d.erase place
      return .ok ()
    else return .error .notEmpty
  | .ok _ => return .error .notDirectory

def rmdir (args : List String) : Act Nat :=
  let k : Known := ⟨"rmdir", "pv", "", [("parents", 'p'), ("ignore-fail-on-non-empty", 'v')], 1⟩
  withArguments k args fun g => do
    if g.operands.isEmpty then
      let _ ← misuse (α := Unit) k "missing operand"
      return 1
    forEach (fun name => do
      let rec upwards : Nat → String → Act Bool
        | 0, _ => return true
        | fuel + 1, name => do
          match ← removeEmpty name with
          | .ok _ =>
            let above := parentName name
            if g.has 'p' && above != "." && above != "/" then upwards fuel above else return true
          | .error e =>
            complain ("rmdir: failed to remove " ++ quoted name ++ ": " ++ e.text)
            return false
      upwards (name.length + 1) name) g.operands

/-- The places below a directory, each after those below it. -/
def treeOf (d : Disk) : Nat → Disk.Place → List Disk.Place
  | 0, _ => []
  | fuel + 1, place =>
    (sortedNames (d.names place)).flatMap (fun n => treeOf d fuel (place ++ [n])) ++ [place]

def rm (args : List String) : Act Nat :=
  let k : Known := ⟨"rm", "rRfivdI", "", [("recursive", 'r'), ("force", 'f'), ("verbose", 'v'),
    ("dir", 'd')], 1⟩
  withArguments k args fun g => do
    if g.operands.isEmpty && !g.has 'f' then
      let _ ← misuse (α := Unit) k "missing operand"
      return 1
    let refuse (name text : String) : Act Bool := do
      complain ("rm: cannot remove " ++ quoted name ++ ": " ++ text)
      return false
    forEach (fun name => do
      let last := lastName name
      if (last == "." || last == "..") && (g.has 'r' || g.has 'R') then
        complain ("rm: refusing to remove '.' or '..' directory: skipping " ++ quoted name)
        return false
      match ← nameOf? name with
      | .error e =>
        if g.has 'f' && (e = .noEntry || e = .notDirectory) then return true
        refuse name e.text
      | .ok (place, .directory) =>
        if g.has 'r' || g.has 'R' then
          if g.has 'v' then
            let d ← disk
            let shown (p : Disk.Place) : String :=
              let path := name ++ String.join ((p.drop place.length).map fun n => "/" ++ Bytes.ofText n)
              (if d.lookup p == some .directory then "removed directory " else "removed ") ++
                quoted path ++ "\n"
            emit (String.join ((treeOf d (d.entries.length + 1) place).map shown))
          changeDisk fun d => d.eraseTree place
          return true
        else if g.has 'd' then
          match ← removeEmpty name with
          | .ok _ => return true
          | .error e => refuse name e.text
        else refuse name Errno.isDirectory.text
      | .ok (place, e) =>
        if Disk.hasTrailing (pathOf name) && e != .directory then refuse name Errno.notDirectory.text
        else
          changeDisk fun d => d.erase place
          if g.has 'v' then emit ("removed " ++ quoted name ++ "\n")
          return true) g.operands

def touch (args : List String) : Act Nat :=
  let k : Known := ⟨"touch", "acmhf", "drt", [("no-create", 'c'), ("date", 'd'), ("reference", 'r')],
    1⟩
  withArguments k args fun g => do
    if g.operands.isEmpty then
      let _ ← misuse (α := Unit) k "missing file operand"
      return 1
    forEach (fun name => do
      let here := (← process).here
      match (← disk).find here (pathOf name) with
      | .ok (place, e) =>
        changeDisk fun d => d.insert place e
        return true
      | .error .noEntry =>
        if g.has 'c' then return true
        match ← onDisk (Disk.createFile here (pathOf name)) with
        | .ok _ => return true
        | .error e =>
          complain ("touch: cannot touch " ++ quoted name ++ ": " ++
            (if e = .isDirectory then Errno.noEntry.text else e.text))
          return false
      | .error e =>
        complain ("touch: cannot touch " ++ quoted name ++ ": " ++ e.text)
        return false) g.operands

def truncate (args : List String) : Act Nat :=
  let k : Known := ⟨"truncate", "co", "sr", [("size", 's'), ("no-create", 'c')], 1⟩
  withArguments k args fun g => do
    let size := ((g.value? 's').bind fun s => (Numeral.natural? 10 s.toList).map (·.1)).getD 0
    forEach (fun name => do
      let here := (← process).here
      let d ← disk
      let old := match d.readBytes here (pathOf name) with
        | .ok bytes => bytes
        | .error _ => []
      match ← onDisk (Disk.createFile here (pathOf name)) with
      | .ok place =>
        let kept := old.take size
        changeDisk fun d => d.append place (kept ++ List.replicate (size - kept.length) 0)
        return true
      | .error e =>
        complain ("truncate: cannot open " ++ quoted name ++ " for writing: " ++ e.text)
        return false) g.operands

/-! ## Permissions -/

def modeOf : Disk.Entry → Nat
  | .file _ executable => if executable then 0o755 else 0o644
  | _ => 0o755

def chmod (args : List String) : Act Nat := do
  let isOption (s : String) : Bool :=
    ["-R", "-v", "-f", "-c", "--recursive", "--verbose", "--", "--changes"].contains s
  let flags := args.takeWhile isOption
  let recursive := flags.contains "-R" || flags.contains "--recursive"
  match args.drop flags.length with
  | [] =>
    complain "chmod: missing operand\nTry 'chmod --help' for more information."
    return 1
  | [mode] =>
    complain ("chmod: missing operand after " ++ quoted mode ++
      "\nTry 'chmod --help' for more information.")
    return 1
  | mode :: names =>
    let mask := (← process).umask
    let set (place : Disk.Place) : Act Unit := do
      match (← disk).lookup place with
      | some (.file bytes executable) =>
        match Permission.change? false mask (modeOf (.file bytes executable)) mode.toList with
        | some m => changeDisk fun d => ⟨d.entries.map fun e =>
            if e.1 == place then (place, .file bytes (m &&& 0o111 != 0)) else e⟩
        | none => return
      | _ => return
    if (Permission.change? false mask 0o644 mode.toList).isNone then
      complain ("chmod: invalid mode: " ++ quoted mode ++ "\nTry 'chmod --help' for more information.")
      return 1
    forEach (fun name => do
      match ← entryOf? name with
      | .error e =>
        complain ("chmod: cannot access " ++ quoted name ++ ": " ++ e.text)
        return false
      | .ok (place, _) =>
        let d ← disk
        (if recursive then treeOf d (d.entries.length + 1) place else [place]).forM set
        return true) names

/-! ## Copying and moving -/

/-- The sources and the target of a transfer, and whether the target is a directory to go into. -/
def targets (k : Known) (g : Given) : Act (Except Nat (List String × String × Bool)) := do
  let wrong (text : String) : Act (Except Nat (List String × String × Bool)) := misuse k text
  match g.value? 't' with
  | some dir =>
    if g.operands.isEmpty then return ← wrong "missing file operand"
    return .ok (g.operands, dir, true)
  | none =>
    match g.operands.reverse with
    | [] => wrong "missing file operand"
    | [one] => wrong ("missing destination file operand after " ++ quoted one)
    | dest :: sources =>
      if g.has 'T' then return .ok (sources.reverse, dest, false)
      let into ← isDirectory dest
      if !into && sources.length > 1 then
        let reason := match ← entryOf? dest with
          | .ok _ => Errno.notDirectory
          | .error e => e
        complain (k.program ++ ": target " ++ quoted dest ++ ": " ++ reason.text)
        return .error 1
      return .ok (sources.reverse, dest, into)

/-- Where an entry of a certain name would be put. -/
def freePlace (name : String) : Act (Except Errno (Disk.Place × Option Disk.Entry)) := do
  match (← disk).locate (← process).here (Disk.withoutTrailing (pathOf name)) with
  | .ok (.taken place e) => return .ok (place, some e)
  | .ok (.free place) => return .ok (place, none)
  | .error e => return .error e

def cp (args : List String) : Act Nat :=
  let k : Known := ⟨"cp", "rRapfvnuLPdTHilsx", "t", [("recursive", 'r'), ("archive", 'a'),
    ("force", 'f'), ("verbose", 'v'), ("no-clobber", 'n'), ("target-directory", 't'),
    ("no-target-directory", 'T')], 1⟩
  withArguments k args fun g => do
    match ← targets k g with
    | .error n => return n
    | .ok (sources, dest, into) =>
      let whole := g.has 'r' || g.has 'R' || g.has 'a'
      let say (text : String) : Act Bool := do
        complain ("cp: " ++ text)
        return false
      forEach (fun source => do
        let target := if into then inside dest (lastName source) else dest
        let found ← if (g.has 'a' || g.has 'd' || g.has 'P') then nameOf? source else entryOf? source
        match found with
        | .error e => say ("cannot stat " ++ quoted source ++ ": " ++ e.text)
        | .ok (origin, entry) =>
          match ← freePlace target with
          | .error e =>
            say ((if entry == .directory then "cannot create directory " else
              "cannot create regular file ") ++ quoted target ++ ": " ++ e.text)
          | .ok (place, old) =>
            let note : Act Bool := do
              if g.has 'v' then emit (quoted source ++ " -> " ++ quoted target ++ "\n")
              return true
            match entry, old with
            | .directory, old =>
              if !whole then say ("-r not specified; omitting directory " ++ quoted source)
              else if origin.isPrefixOf place then
                say ("cannot copy a directory, " ++ quoted source ++ ", into itself, " ++ quoted target)
              else match old with
                | some .directory | none =>
                  changeDisk fun d =>
                    let copied := d.relocated origin place
                    let kept := d.entries.filter fun e => !copied.any (·.1 == e.1)
                    ⟨copied ++ kept⟩
                  note
                | some _ =>
                  say ("cannot overwrite non-directory " ++ quoted target ++ " with directory " ++
                    quoted source)
            | _, some .directory =>
              say ("cannot overwrite directory " ++ quoted target ++ " with non-directory")
            | entry, old =>
              if origin == place then
                say (quoted source ++ " and " ++ quoted target ++ " are the same file")
              else if Disk.hasTrailing (pathOf target) then
                say ("cannot create regular file " ++ quoted target ++ ": Not a directory")
              else if old.isSome && g.has 'n' then return true
              else
                let entry := match entry, old with
                  | .file bytes executable, some (.file _ kept) =>
                    .file bytes (if g.has 'p' || g.has 'a' then executable else kept)
                  | entry, _ => entry
                changeDisk fun d => d.insert place entry
                note) sources

def mv (args : List String) : Act Nat :=
  let k : Known := ⟨"mv", "fnvuTi", "t", [("force", 'f'), ("no-clobber", 'n'), ("verbose", 'v'),
    ("target-directory", 't'), ("no-target-directory", 'T')], 1⟩
  withArguments k args fun g => do
    match ← targets k g with
    | .error n => return n
    | .ok (sources, dest, into) =>
      let say (text : String) : Act Bool := do
        complain ("mv: " ++ text)
        return false
      forEach (fun source => do
        let target := if into then inside dest (lastName source) else dest
        match ← nameOf? source with
        | .error e => say ("cannot stat " ++ quoted source ++ ": " ++ e.text)
        | .ok (origin, entry) =>
          match ← freePlace target with
          | .error e =>
            say ("cannot move " ++ quoted source ++ " to " ++ quoted target ++ ": " ++ e.text)
          | .ok (place, old) =>
            if origin == place then
              say (quoted source ++ " and " ++ quoted target ++ " are the same file")
            else if old.isSome && g.has 'n' then return true
            else if entry == .directory && origin.isPrefixOf place then
              say ("cannot move " ++ quoted source ++ " to a subdirectory of itself, " ++ quoted target)
            else
              let full ← match old with
                | some .directory => do pure (!((← disk).names place).isEmpty)
                | _ => pure false
              match entry, old with
              | .directory, some .directory =>
                if full then
                  say ("cannot overwrite " ++ quoted target ++ ": Directory not empty")
                else
                  changeDisk fun d => d.moveTree origin place
                  return true
              | .directory, some _ =>
                say ("cannot overwrite non-directory " ++ quoted target ++ " with directory " ++
                  quoted source)
              | _, some .directory =>
                say ("cannot overwrite directory " ++ quoted target ++ " with non-directory")
              | entry, _ =>
                if entry != .directory && Disk.hasTrailing (pathOf target) then
                  say ("cannot move " ++ quoted source ++ " to " ++ quoted target ++
                    ": Not a directory")
                else
                  changeDisk fun d => d.moveTree origin place
                  if g.has 'v' then
                    emit ("renamed " ++ quoted source ++ " -> " ++ quoted target ++ "\n")
                  return true) sources

def ln (args : List String) : Act Nat :=
  let k : Known := ⟨"ln", "sfnvTrL", "t", [("symbolic", 's'), ("force", 'f'), ("verbose", 'v'),
    ("no-dereference", 'n')], 1⟩
  withArguments k args fun g => do
    let pair ← match g.operands with
      | [source] => pure (.ok ([source], ".", true))
      | _ => targets k g
    match pair with
    | .error n => return n
    | .ok (sources, dest, into) =>
      let isLink := match ← nameOf? dest with
        | .ok (_, .link _) => true
        | _ => false
      let into := into && !(g.has 'n' && isLink)
      let what := if g.has 's' then "symbolic link " else "hard link "
      forEach (fun source => do
        let target := if into then inside dest (lastName source) else dest
        let here := (← process).here
        let d ← disk
        let entry : Except Errno Disk.Entry :=
          if g.has 's' then .ok (.link (Bytes.toText source))
          else (d.find here (pathOf source)).map (·.2)
        match entry with
        | .error e =>
          complain ("ln: failed to access " ++ quoted source ++ ": " ++ e.text)
          return false
        | .ok .directory =>
          complain ("ln: " ++ source ++ ": hard link not allowed for directory")
          return false
        | .ok entry =>
          match d.locateTo false here (Disk.withoutTrailing (pathOf target)) with
          | .error e =>
            complain ("ln: failed to create " ++ what ++ quoted target ++ ": " ++ e.text)
            return false
          | .ok (.free place) =>
            changeDisk fun d => d.insert place entry
            return true
          | .ok (.taken place old) =>
            if g.has 'f' && old != .directory then
              changeDisk fun d => d.insert place entry
              return true
            else
              complain ("ln: failed to create " ++ what ++ quoted target ++ ": File exists")
              return false) sources

/-! ## Others -/

/-- A new file or directory with a name of its own. -/
def mktemp (args : List String) : Act Nat :=
  let k : Known := ⟨"mktemp", "dqut", "p", [("directory", 'd'), ("dry-run", 'u'), ("tmpdir", 'p')], 1⟩
  withArguments k args fun g => do
    let template := g.operands.head?.getD "tmp.XXXXXXXXXX"
    let id ← freshId
    let digits := (toString id).toList
    let stem := template.toList.reverse.dropWhile (· == 'X') |>.reverse
    let missing := template.length - stem.length
    let tail := (List.replicate (missing - digits.length) 'a' ++ digits).take missing
    let name := String.ofList (stem ++ tail)
    let path := if g.operands.isEmpty || g.has 'p' || g.has 't' then
        inside ((g.value? 'p').getD "/tmp") name
      else name
    let here := (← process).here
    if g.has 'd' then
      let _ ← onDisk (Disk.makeDirectories here (pathOf path))
    else if !g.has 'u' then
      let _ ← onDisk (Disk.createFile here (pathOf path))
    emit (path ++ "\n")
    return 0

def sizeOf : Disk.Entry → Nat
  | .file bytes _ => bytes.length
  | .link target => target.utf8ByteSize
  | .directory => 4096
  | _ => 0

def kindOf : Disk.Entry → String
  | .file [] _ => "regular empty file"
  | .file _ _ | .program _ => "regular file"
  | .link _ => "symbolic link"
  | .directory => "directory"
  | .device _ => "character special file"

def stat (args : List String) : Act Nat :=
  let k : Known := ⟨"stat", "Lt", "c", [("format", 'c'), ("dereference", 'L')], 1⟩
  withArguments k args fun g => do
    let format := (g.value? 'c').getD "%n"
    forEach (fun name => do
      match ← (if g.has 'L' then entryOf? name else nameOf? name) with
      | .error e =>
        complain ("stat: cannot statx " ++ quoted name ++ ": " ++ e.text)
        return false
      | .ok (_, e) =>
        let rec show_ : List Char → List Char
          | '%' :: c :: rest =>
            (match c with
              | 'n' => name.toList
              | 's' => (toString (sizeOf e)).toList
              | 'F' => (kindOf e).toList
              | 'a' => Nat.toDigits 8 (modeOf e)
              | 'U' | 'G' => "root".toList
              | 'u' | 'g' => ['0']
              | '%' => ['%']
              | c => ['?', c]) ++ show_ rest
          | c :: rest => c :: show_ rest
          | [] => []
        emit (String.ofList (show_ format.toList) ++ "\n")
        return true) g.operands

end FirmwareMatrix.Shell.Utility.Files
