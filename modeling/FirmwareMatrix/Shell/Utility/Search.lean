import FirmwareMatrix.Shell.Utility.Expression
import FirmwareMatrix.Shell.Utility.Files

/-! Searching lines for expressions. -/

namespace FirmwareMatrix.Shell.Utility.Search

open Act

/-- What is looked for, and how. -/
structure Query where
  expressions : List Expression
  folds : Bool
  inverted : Bool
  wholeLine : Bool
  wholeWord : Bool

/-- Whether a match has no part of a word beside it. -/
def standsAlone (s : Expression.Subject) (low high : Nat) : Bool :=
  !(low != 0 && s.isWordAt (low - 1)) && !s.isWordAt high

/-- The longest match of an expression from a position on that the query admits. -/
def longestAt? (q : Query) (s : Expression.Subject) (i : Nat) (e : Expression) : Option Nat :=
  let found := ((Expression.ends s e ⟨i, []⟩).map (·.position)).filter fun high =>
    (!q.wholeLine || (i = 0 && high = s.text.size)) && (!q.wholeWord || standsAlone s i high)
  match found with
  | [] => none
  | h :: hs => some (hs.foldl max h)

/-- The first match from a position on. -/
def next? (q : Query) (s : Expression.Subject) : Nat → Nat → Option (Nat × Nat)
  | 0, _ => none
  | fuel + 1, i =>
    if s.text.size < i then none
    else match q.expressions.filterMap (longestAt? q s i) with
      | h :: hs => some (i, hs.foldl max h)
      | [] => next? q s fuel (i + 1)

def accepts (q : Query) (l : List Char) : Bool :=
  (next? q ⟨l.toArray, q.folds⟩ (l.length + 1) 0).isSome != q.inverted

/-- All parts of a line that match, with where they start. -/
def parts (q : Query) (l : List Char) : List (Nat × List Char) :=
  let s : Expression.Subject := ⟨l.toArray, q.folds⟩
  let rec go : Nat → Nat → List (Nat × List Char)
    | 0, _ => []
    | fuel + 1, i =>
      match next? q s (l.length + 1) i with
      | none => []
      | some (low, high) =>
        if high = low then go fuel (low + 1)
        else (low, (l.drop low).take (high - low)) :: go fuel high
  go (l.length + 1) 0

/-- The signs of the third notation, which the extended one has other signs for. -/
def withoutShorthands : List Char → List Char
  | '\\' :: 'd' :: rest => "[0-9]".toList ++ withoutShorthands rest
  | '\\' :: 'D' :: rest => "[^0-9]".toList ++ withoutShorthands rest
  | '\\' :: 't' :: rest => '\t' :: withoutShorthands rest
  | '\\' :: c :: rest => '\\' :: c :: withoutShorthands rest
  | '(' :: '?' :: ':' :: rest => '(' :: withoutShorthands rest
  | c :: rest => c :: withoutShorthands rest
  | [] => []

/-- A line as it is shown: its number, whether it was found, and its text. -/
abbrev Row := Nat × Bool × List Char

/-- Where lines start in their text. -/
def starts (n : Nat) : List (List Char) → List Nat
  | [] => []
  | l :: rest => n :: starts (n + l.length + 1) rest

/-- The rows to show with so many lines around them; `none` stands between groups. -/
def withContext (before after : Nat) (rows : List Row) : List (Option Row) :=
  let hits := (rows.filter (·.2.1)).map (·.1)
  let near (n : Nat) : Bool := hits.any fun h => n ≤ h + after && h ≤ n + before
  let kept := rows.filter fun r => near r.1
  (kept.foldl (fun (out : List (Option Row) × Nat) r =>
    let gap := out.2 != 0 && r.1 != out.2 + 1 && (before + after > 0)
    (some r :: (if gap then none :: out.1 else out.1), r.1)) ([], 0)).1.reverse

/-- The files below some names. -/
def filesBelow (d : Disk) (here : Disk.Place) : Nat → String → List String
  | 0, _ => []
  | fuel + 1, name =>
    match d.find here (pathOf name) with
    | .ok (place, .directory) =>
      (Files.sortedNames ((d.names place).map Bytes.ofText)).flatMap fun n =>
        filesBelow d here fuel (Files.inside name n)
    | _ => [name]

/-- A number right behind a dash asks for so many lines around. -/
def withContextCount (args : List String) : List String :=
  args.map fun a =>
    match a.toList with
    | '-' :: c :: cs => if (c :: cs).all Char.isDigit then "-C" ++ String.ofList (c :: cs) else a
    | _ => a

def grep (program : String) (args : List String) : Act Nat :=
  let k : Known := ⟨"grep", "EFGPivwxclLqsonHhrRaIbUzTy", "efmABCXY", [("extended-regexp", 'E'),
    ("fixed-strings", 'F'), ("basic-regexp", 'G'), ("regexp", 'e'), ("file", 'f'),
    ("ignore-case", 'i'), ("invert-match", 'v'), ("word-regexp", 'w'), ("line-regexp", 'x'),
    ("count", 'c'), ("files-with-matches", 'l'), ("files-without-match", 'L'), ("quiet", 'q'),
    ("silent", 'q'), ("no-messages", 's'), ("only-matching", 'o'), ("line-number", 'n'),
    ("with-filename", 'H'), ("no-filename", 'h'), ("recursive", 'r'), ("max-count", 'm'),
    ("after-context", 'A'), ("before-context", 'B'), ("context", 'C'), ("text", 'a'),
    ("include", 'X'), ("exclude", 'Y'), ("color", 'T'), ("colour", 'T')], 2⟩
  withArguments k (withContextCount args) fun g => do
    let extended := g.has 'E' || g.has 'P' || program == "egrep"
    let fixed := g.has 'F' || program == "fgrep"
    let ofFiles ← (g.values 'f').mapM fun name => do
      match ← contents name with
      | .ok text => return lines text
      | .error _ => return []
    let given := (g.values 'e').flatMap fun s => Text.splitAt '\n' s.toList
    let (patterns, names) :=
      if (g.values 'e').isEmpty && (g.values 'f').isEmpty then
        match g.operands with
        | [] => (none, [])
        | p :: rest => (some (Text.splitAt '\n' p.toList), rest)
      else (some (given ++ ofFiles.flatten), g.operands)
    match patterns with
    | none =>
      complain "Usage: grep [OPTION]... PATTERNS [FILE]...\nTry 'grep --help' for more information."
      return 2
    | some patterns =>
      let expression (p : List Char) : Except Expression.Fault Expression :=
        if fixed then .ok (Expression.ofText p)
        else Expression.read extended (if g.has 'P' then withoutShorthands p else p)
      match patterns.mapM expression with
      | .error f =>
        complain ("grep: " ++ f.message)
        return 2
      | .ok expressions =>
        let q : Query := ⟨expressions, g.has 'i' || g.has 'y', g.has 'v', g.has 'x', g.has 'w'⟩
        let number (c : Char) : Option Nat :=
          (g.value? c).bind fun s => (Numeral.natural? 10 s.toList).map (·.1)
        let most := number 'm'
        let after := ((number 'A').or (number 'C')).getD 0
        let before := ((number 'B').or (number 'C')).getD 0
        let recursive := g.has 'r' || g.has 'R'
        let d ← disk
        let here := (← process).here
        let globs (c : Char) : List (List Pattern.Element) :=
          (g.values c).map fun s => Pattern.compile (s.toList.map fun c => (c, false))
        let wanted (name : String) : Bool :=
          let last := (Files.lastName name).toList
          let included := globs 'X'
          (included.isEmpty || included.any (Pattern.accepts · last)) &&
            !(globs 'Y').any (Pattern.accepts · last)
        let files : List String :=
          if recursive then
            let roots := if names.isEmpty then [""] else names
            roots.flatMap fun r =>
              if r.isEmpty then
                ((filesBelow d here (d.entries.length + 2) ".").map fun f =>
                  String.ofList (f.toList.drop 2)).filter wanted
              else if d.isDirectory here (pathOf r) then
                (filesBelow d here (d.entries.length + 2) r).filter wanted
              else [r]
          else orInput names
        let titled := !g.has 'h' && (g.has 'H' || files.length > 1 || recursive)
        let rec go : List String → Bool → Bool → Act Nat
          | [], found, failed => return if failed then (if found && g.has 'q' then 0 else 2)
              else if found then 0 else 1
          | name :: rest, found, failed => do
            let read ← if name == "-" && (g.has 'q' || most.isSome) then
                takeUntil 0 (fun text =>
                  let ls := (lines text).filter (accepts q)
                  endsWithLine text && (match most with
                    | some n => n ≤ ls.length
                    | none => !ls.isEmpty)) mostTakes []
              else contents name
            match read with
            | .error e =>
              if e = .isDirectory then
                if !recursive && !g.has 's' then complain ("grep: " ++ name ++ ": " ++ e.text)
                go rest found (failed || !recursive)
              else
                if !g.has 's' then complain ("grep: " ++ name ++ ": " ++ e.text)
                go rest found true
            | .ok text =>
              let shownName := if name == "-" then "(standard input)" else name
              let all := (lines text).zipIdx.map fun (l, i) => (i + 1, accepts q l, l)
              let hits := all.filter (·.2.1)
              let hits := match most with
                | some n => hits.take n
                | none => hits
              let any := !hits.isEmpty
              if g.has 'q' then
                if any then return 0 else go rest found failed
              else
                if g.has 'l' then
                  if any then emit (shownName ++ "\n")
                else if g.has 'L' then
                  if !any then emit (shownName ++ "\n")
                else if g.has 'c' then
                  emit ((if titled then shownName ++ ":" else "") ++ toString hits.length ++ "\n")
                else if text.contains '\x00' && !g.has 'a' then
                  if any then complain ("grep: " ++ shownName ++ ": binary file matches")
                else
                  let last := (hits.getLast?.map (·.1)).getD 0
                  let rows := all.map fun (n, hit, l) =>
                    (n, hit && (most.isNone || n ≤ last), l)
                  let rows := if any then withContext before after rows else []
                  let offsets := (starts 0 (lines text)).toArray
                  let shown (r : Option Row) : List Char :=
                    match r with
                    | none => "--\n".toList
                    | some (n, hit, l) =>
                      let sep := if hit then ":" else "-"
                      let start (i : Nat) : List Char := ((if titled then shownName ++ sep else "") ++
                        (if g.has 'n' then toString n ++ sep else "") ++
                        (if g.has 'b' then toString ((offsets[n - 1]?).getD 0 + i) ++ sep else "")).toList
                      if g.has 'o' then
                        if hit && !q.inverted then
                          (parts q l).flatMap fun (i, p) => start i ++ p ++ ['\n']
                        else []
                      else start 0 ++ l ++ ['\n']
                  emit (String.ofList (rows.flatMap shown))
                go rest (found || (if g.has 'L' then !any else any)) failed
        go files false false

end FirmwareMatrix.Shell.Utility.Search
