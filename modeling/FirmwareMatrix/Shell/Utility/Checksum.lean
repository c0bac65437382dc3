import FirmwareMatrix.Shell.Digest
import FirmwareMatrix.Shell.Utility.Arguments

/-! Programs that write digests of files and check files by lists of them. -/

namespace FirmwareMatrix.Shell.Utility.Checksum

open Act

/-- A digest under the names of its program and of its kind. -/
structure Algorithm where
  program : String
  title : String
  /-- Bytes that a digest has. -/
  size : Nat
  digest : List Nat → List Nat

def algorithms : List Algorithm :=
  [⟨"md5sum", "MD5", 16, Digest.md5⟩, ⟨"sha1sum", "SHA1", 20, Digest.sha1⟩,
    ⟨"sha224sum", "SHA224", 28, Digest.sha224⟩, ⟨"sha256sum", "SHA256", 32, Digest.sha256⟩,
    ⟨"sha384sum", "SHA384", 48, Digest.sha384⟩, ⟨"sha512sum", "SHA512", 64, Digest.sha512⟩]

def codes (text : List Char) : List Nat := text.map Char.toNat

def Algorithm.of (a : Algorithm) (text : List Char) : String :=
  Digest.hexadecimal (a.digest (codes text))

/-- A name without line ends, and a mark before the line if that changed it. -/
def escaped (name : String) : String × String :=
  let one (c : Char) : List Char :=
    match c with
    | '\\' => ['\\', '\\']
    | '\n' => ['\\', 'n']
    | '\r' => ['\\', 'r']
    | c => [c]
  let changed := String.ofList (name.toList.flatMap one)
  (if changed == name then "" else "\\", changed)

def unescaped : List Char → Option (List Char)
  | '\\' :: 'n' :: cs => (unescaped cs).map ('\n' :: ·)
  | '\\' :: 'r' :: cs => (unescaped cs).map ('\r' :: ·)
  | '\\' :: '\\' :: cs => (unescaped cs).map ('\\' :: ·)
  | '\\' :: _ => none
  | c :: cs => (unescaped cs).map (c :: ·)
  | [] => some []

/-- A file's digest as a line. -/
def shown (a : Algorithm) (tagged binary zero : Bool) (name digest : String) : String :=
  let (mark, shownName) := if zero then ("", name) else escaped name
  let line := if tagged then a.title ++ " (" ++ shownName ++ ") = " ++ digest
    else digest ++ (if binary then " *" else "  ") ++ shownName
  mark ++ line ++ (if zero then "\x00" else "\n")

/-! ## Checking -/

/-- A line of a list: a digest and the name of a file. -/
def entry? (a : Algorithm) (line : List Char) : Option (List Char × List Char) := do
  let line := line.dropWhile fun c => c == ' ' || c == '\t'
  let (isEscaped, line) := match line with
    | '\\' :: rest => (true, rest)
    | rest => (false, rest)
  let isDigest (cs : List Char) : Bool :=
    cs.length == 2 * a.size &&
      cs.all fun c => c.isDigit || ('a' ≤ c.toLower && c.toLower ≤ 'f')
  let named (digest name : List Char) : Option (List Char × List Char) :=
    if isDigest digest then
      (if isEscaped then unescaped name else some name).map fun name => (digest, name)
    else none
  if a.title.toList.isPrefixOf line then
    let rest := line.drop a.title.length
    let rest := if rest.head? == some ' ' then rest.tail else rest
    let '(' :: rest := rest | none
    let behind := rest.reverse.takeWhile (· != ')')
    let name := (rest.take (rest.length - behind.length - 1))
    if behind.length = rest.length then none
    let digest := behind.reverse.filter fun c => c != ' ' && c != '=' && c != '\t'
    named digest name
  else
    let digest := line.take (2 * a.size)
    match line.drop (2 * a.size) with
    | ' ' :: rest | '\t' :: rest =>
      match rest with
      | [] => none
      | [c] => named digest [c]
      | ' ' :: name | '*' :: name => named digest name
      | name => named digest name
    | _ => none

/-- What has been found of the entries of a list. -/
structure Tally where
  malformed : Nat
  unreadable : Nat
  different : Nat
  matching : Nat

/-- How much is said of what is checked. -/
structure Manner where
  silent : Bool
  quiet : Bool
  warns : Bool
  ignoresMissing : Bool
  strict : Bool

def checkLines (a : Algorithm) (m : Manner) (list : String) :
    List (List Char × Nat) → Tally → Act Tally
  | [], t => return t
  | (line, i) :: rest, t => do
    if line.isEmpty || line.head? == some '#' then checkLines a m list rest t
    else match entry? a line with
    | none =>
      if m.warns then
        complain (a.program ++ ": " ++ quotedIfNeeded list ++ ": " ++ toString (i + 1) ++
          ": improperly formatted " ++ a.title ++ " checksum line")
      checkLines a m list rest { t with malformed := t.malformed + 1 }
    | some (digest, name) =>
      let name := String.ofList name
      let (mark, shownName) := escaped name
      let report (text : String) : Act Unit := emit (mark ++ shownName ++ ": " ++ text ++ "\n")
      match ← contents name with
      | .error e =>
        if m.ignoresMissing && e == .noEntry then checkLines a m list rest t
        else
          complain (a.program ++ ": " ++ quotedIfNeeded name ++ ": " ++ e.text)
          if !m.silent then report "FAILED open or read"
          checkLines a m list rest { t with unreadable := t.unreadable + 1 }
      | .ok text =>
        if (a.of text).toList == digest.map Char.toLower then
          if !m.silent && !m.quiet then report "OK"
          checkLines a m list rest { t with matching := t.matching + 1 }
        else
          if !m.silent then report "FAILED"
          checkLines a m list rest { t with different := t.different + 1 }

def warning (a : Algorithm) (n : Nat) (one many : String) : Act Unit := do
  if n != 0 then
    complain (a.program ++ ": WARNING: " ++ toString n ++ " " ++ (if n = 1 then one else many))

/-- Checks the files of one list. -/
def check (a : Algorithm) (m : Manner) (list : String) : Act Bool := do
  match ← contents list with
  | .error e =>
    complain (a.program ++ ": " ++ quotedIfNeeded list ++ ": " ++ e.text)
    return false
  | .ok text =>
    let shownList := if list == "-" then "'standard input'" else quotedIfNeeded list
    let t ← checkLines a m (if list == "-" then "standard input" else list)
      (lines text).zipIdx ⟨0, 0, 0, 0⟩
    if t.unreadable + t.different + t.matching = 0 && !(m.ignoresMissing && t.malformed = 0) then
      complain (a.program ++ ": " ++ shownList ++ ": no properly formatted checksum lines found")
      return false
    if !m.silent then
      warning a t.malformed "line is improperly formatted" "lines are improperly formatted"
      warning a t.unreadable "listed file could not be read" "listed files could not be read"
      warning a t.different "computed checksum did NOT match" "computed checksums did NOT match"
    let verifiedNone := m.ignoresMissing && t.matching = 0
    if verifiedNone && !m.silent then
      complain (a.program ++ ": " ++ shownList ++ ": no file was verified")
    return t.matching != 0 && t.unreadable = 0 && t.different = 0 && !(m.strict && t.malformed != 0)

/-- One of the programs that are named for a digest. -/
def sumBy (a : Algorithm) (args : List String) : Act Nat :=
  let k : Known := ⟨a.program, "bctwzQSTMX", "", [("binary", 'b'), ("check", 'c'), ("text", 't'),
    ("warn", 'w'), ("zero", 'z'), ("quiet", 'Q'), ("status", 'S'), ("tag", 'T'),
    ("ignore-missing", 'M'), ("strict", 'X')], 1⟩
  withArguments k args fun g => do
    if g.has 'c' then
      let manner : Manner := ⟨g.has 'S', g.has 'Q', g.has 'w', g.has 'M', g.has 'X'⟩
      forEach (check a manner) (orInput g.operands)
    else
      forEach (fun name => do
        match ← contents name with
        | .ok text =>
          emit (shown a (g.has 'T') (g.has 'b') (g.has 'z') name (a.of text))
          return true
        | .error e =>
          complain (a.program ++ ": " ++ quotedIfNeeded name ++ ": " ++ e.text)
          return false) (orInput g.operands)

/-! ## Sums -/

/-- The kinds of sums that are no digests. -/
inductive Plain where
  | check
  | turned
  | folded

/-- A sum with the size of what was summed up. -/
def Plain.shown (s : Plain) (text : List Char) : String :=
  let padded (width : Nat) (fill : Char) (n : Nat) : String :=
    let digits := (toString n).toList
    String.ofList (List.replicate (width - digits.length) fill ++ digits)
  match s with
  | check => toString (Digest.crc (codes text)) ++ " " ++ toString text.length
  | turned => padded 5 '0' (Digest.turnedSum (codes text)) ++ " " ++
      padded 5 ' ' ((text.length + 1023) / 1024)
  | folded => toString (Digest.foldedSum (codes text)) ++ " " ++ toString ((text.length + 511) / 512)

def sums (program : String) (s : Plain) (names : List String) : Act Nat :=
  forEach (fun name => do
    match ← contents name with
    | .ok text =>
      emit (s.shown text ++ (if names.isEmpty then "" else " " ++ name) ++ "\n")
      return true
    | .error e =>
      complain (program ++ ": " ++ quotedIfNeeded name ++ ": " ++ e.text)
      return false) (orInput names)

def sum (args : List String) : Act Nat :=
  let k : Known := ⟨"sum", "rs", "", [("sysv", 's')], 1⟩
  withArguments k args fun g =>
    let last := (g.options.getLast?.map (·.1)).getD 'r'
    sums "sum" (if last == 's' then .folded else .turned) g.operands

def cksum (args : List String) : Act Nat :=
  let k : Known := ⟨"cksum", "UTzb", "al", [("algorithm", 'a'), ("length", 'l'), ("untagged", 'U'),
    ("tag", 'T'), ("zero", 'z')], 1⟩
  withArguments k args fun g => do
    match (g.value? 'a').getD "crc" with
    | "crc" => sums "cksum" .check g.operands
    | "bsd" => sums "cksum" .turned g.operands
    | "sysv" => sums "cksum" .folded g.operands
    | name =>
      match algorithms.find? fun a => a.title == name.toUpper with
      | none =>
        complain ("cksum: invalid argument " ++ quoted name ++ " for '--algorithm'")
        return 1
      | some a =>
        forEach (fun name => do
          match ← contents name with
          | .ok text =>
            emit (shown a (!g.has 'U') false (g.has 'z') name (a.of text))
            return true
          | .error e =>
            complain ("cksum: " ++ quotedIfNeeded name ++ ": " ++ e.text)
            return false) (orInput g.operands)

/-- The programs of this module. -/
def programs : List (String × (List String → Act Nat)) :=
  algorithms.map (fun a => (a.program, sumBy a)) ++ [("sum", sum), ("cksum", cksum)]

end FirmwareMatrix.Shell.Utility.Checksum
