import FirmwareMatrix.Shell.Utility.Files

/-! Comparing two files: the lines that they share, the first byte in which they differ, and the
lines to drop and to add to get from one to the other. -/

namespace FirmwareMatrix.Shell.Utility.Comparison

open Act

def comm (args : List String) : Act Nat :=
  let k : Known := ⟨"comm", "123iz", "", [("check-order", 'i'), ("nocheck-order", 'i')], 1⟩
  withArguments k args fun g => do
    match g.operands with
    | [a, b] =>
      match ← contents a, ← contents b with
      | .ok x, .ok y =>
        let tabs (n : Nat) : List Char := List.replicate n '\t'
        let second := if g.has '1' then 0 else 1
        let third := second + (if g.has '2' then 0 else 1)
        let rec go : Nat → List (List Char) → List (List Char) → List (List Char)
          | 0, _, _ => []
          | fuel + 1, x :: xs, y :: ys =>
            if x == y then (if g.has '3' then [] else [tabs third ++ x]) ++ go fuel xs ys
            else if x < y then (if g.has '1' then [] else [x]) ++ go fuel xs (y :: ys)
            else (if g.has '2' then [] else [tabs second ++ y]) ++ go fuel (x :: xs) ys
          | fuel + 1, x :: xs, [] => (if g.has '1' then [] else [x]) ++ go fuel xs []
          | fuel + 1, [], y :: ys => (if g.has '2' then [] else [tabs second ++ y]) ++ go fuel [] ys
          | _, [], [] => []
        let xs := lines x
        let ys := lines y
        emitLines (go (xs.length + ys.length + 1) xs ys)
        return 0
      | .error e, _ =>
        complain ("comm: " ++ a ++ ": " ++ e.text)
        return 1
      | _, .error e =>
        complain ("comm: " ++ b ++ ": " ++ e.text)
        return 1
    | _ =>
      let _ ← misuse (α := Unit) k "missing operand"
      return 1

def cmp (args : List String) : Act Nat :=
  let k : Known := ⟨"cmp", "slb", "n", [("silent", 's'), ("quiet", 's')], 2⟩
  withArguments k args fun g => do
    match g.operands with
    | a :: rest =>
      let b := rest.head?.getD "-"
      match ← contents a, ← contents b with
      | .ok x, .ok y =>
        if x == y then return 0
        if g.has 's' then return 1
        let same := ((x.zip y).takeWhile fun (c, d) => c == d).length
        let shorter := if x.length ≤ y.length then a else b
        if same == min x.length y.length then
          let part := if x.length ≤ y.length then x else y
          let line := part.count '\n'
          complain ("cmp: EOF on " ++ shorter ++ (if part.isEmpty then " which is empty" else
            " after byte " ++ toString same ++ (if part.getLast? == some '\n' then
              ", line " ++ toString line else ", in line " ++ toString (line + 1))))
          return 1
        let line := (x.take same).count '\n' + 1
        emit (a ++ " " ++ b ++ " differ: char " ++ toString (same + 1) ++ ", line " ++ toString line ++
          "\n")
        return 1
      | .error e, _ =>
        complain ("cmp: " ++ a ++ ": " ++ e.text)
        return 2
      | _, .error e =>
        complain ("cmp: " ++ b ++ ": " ++ e.text)
        return 2
    | [] =>
      let _ ← misuse (α := Unit) k "missing operand after 'cmp'"
      return 2

/-- What turns one list of lines into another: kept, dropped and added lines. -/
inductive Step where
  | keep (l : List Char)
  | drop (l : List Char)
  | add (l : List Char)

/-- For each end of two lists, the length of the longest list of lines that both have. -/
def common (xs ys : Array (List Char)) : Array (Array Nat) :=
  let n := xs.size
  let m := ys.size
  (List.range n).foldl (fun (rows : Array (Array Nat)) k =>
    let i := n - 1 - k
    let below := (rows.back?).getD #[]
    let row := (List.range m).foldl (fun (row : List Nat) l =>
      let j := m - 1 - l
      let right := row.head?.getD 0
      let value := if xs[i]? == ys[j]? then ((below[j + 1]?).getD 0) + 1
        else max ((below[j]?).getD 0) right
      value :: row) [0]
    rows.push row.toArray) #[(Array.replicate (m + 1) 0)]

def steps (xs ys : Array (List Char)) (table : Array (Array Nat)) : Nat → Nat → Nat → List Step
  | 0, _, _ => []
  | fuel + 1, i, j =>
    let at_ (i j : Nat) : Nat := ((table[xs.size - i]?).bind (·[j]?)).getD 0
    match xs[i]?, ys[j]? with
    | none, none => []
    | some x, none => .drop x :: steps xs ys table fuel (i + 1) j
    | none, some y => .add y :: steps xs ys table fuel i (j + 1)
    | some x, some y =>
      if x == y then .keep x :: steps xs ys table fuel (i + 1) (j + 1)
      else if at_ i (j + 1) ≤ at_ (i + 1) j then .drop x :: steps xs ys table fuel (i + 1) j
      else .add y :: steps xs ys table fuel i (j + 1)

/-- A range of line numbers. -/
def span (low count : Nat) : String :=
  if count ≤ 1 then toString low else toString low ++ "," ++ toString (low + count - 1)

def Step.isKept : Step → Bool
  | keep _ => true
  | _ => false

def Step.dropped? : Step → Option (List Char)
  | drop l => some l
  | _ => none

def Step.added? : Step → Option (List Char)
  | add l => some l
  | _ => none

/-- A line with its end, behind a sign; that the end is missing is said. -/
def signed (sign : String) (line : List Char) : List Char :=
  sign.toList ++ line ++
    (if line.getLast? == some '\n' then [] else "\n\\ No newline at end of file\n".toList)

/-- The changes as commands; `i` and `j` are the lines before in both files. -/
def hunks : Nat → Nat → Nat → List Step → List (List Char)
  | 0, _, _, _ => []
  | _, _, _, [] => []
  | fuel + 1, i, j, .keep _ :: rest => hunks fuel (i + 1) (j + 1) rest
  | fuel + 1, i, j, found =>
    let part := found.takeWhile (!·.isKept)
    let dropped := part.filterMap Step.dropped?
    let added := part.filterMap Step.added?
    let a := dropped.length
    let b := added.length
    let title := if a = 0 then toString i ++ "a" ++ span (j + 1) b
      else if b = 0 then span (i + 1) a ++ "d" ++ toString j
      else span (i + 1) a ++ "c" ++ span (j + 1) b
    (title ++ "\n").toList :: dropped.map (signed "< ") ++
      (if a != 0 && b != 0 then ["---\n".toList] else []) ++ added.map (signed "> ") ++
      hunks fuel (i + a) (j + b) (found.drop part.length)

/-- Steps with kept lines around the changes: the changes that are so near to each other that the
lines between them are shown anyway stand together. Each group comes with the lines before it in
both files. -/
def grouped (around : Nat) :
    Nat → Nat → Nat → List Step → List (Nat × Nat × List Step)
  | 0, _, _, _ => []
  | fuel + 1, i, j, found =>
    let start := found.takeWhile Step.isKept
    match found.drop start.length with
    | [] => []
    | changes =>
      let rec body : Nat → List Step → List Step
        | 0, _ => []
        | _, [] => []
        | n + 1, ss =>
          let part := ss.takeWhile (!·.isKept)
          let rest := ss.drop part.length
          let kept := rest.takeWhile Step.isKept
          if (rest.drop kept.length).isEmpty || 2 * around < kept.length then part ++ kept.take around
          else part ++ kept ++ body n (rest.drop kept.length)
      let before := start.drop (start.length - around)
      let inner := body changes.length changes
      let skipped := start.length - before.length
      let group := before ++ inner
      let a := (group.filter fun s => s.added?.isNone).length
      let b := (group.filter fun s => s.dropped?.isNone).length
      (i + skipped, j + skipped, group) ::
        grouped around fuel (i + skipped + a) (j + skipped + b) (changes.drop inner.length)

def rangeShown (before count : Nat) : String :=
  if count = 1 then toString (before + 1)
  else toString (if count = 0 then before else before + 1) ++ "," ++ toString count

/-- The changes with the lines around them. -/
def unified (around : Nat) (found : List Step) : List (List Char) :=
  (grouped around (found.length + 1) 0 0 found).flatMap fun (i, j, group) =>
    let a := (group.filter fun s => s.added?.isNone).length
    let b := (group.filter fun s => s.dropped?.isNone).length
    let title := "@@ -" ++ rangeShown i a ++ " +" ++ rangeShown j b ++ " @@\n"
    title.toList :: group.map fun s =>
      match s with
      | .keep l => signed " " l
      | .drop l => signed "-" l
      | .add l => signed "+" l

/-- The lines of a text with their ends. -/
def wholeLines (text : List Char) : List (List Char) :=
  let ls := lines text
  let whole := endsWithLine text
  ls.zipIdx.map fun (l, i) => if whole || i + 1 != ls.length then l ++ ['\n'] else l

/-- The time that is given for a file. -/
def noTime : String := "1970-01-01 00:00:00.000000000 +0000"

/-- Compares two files; the status is one if they differ. -/
def diffFiles (g : Given) (a b : String) : Act Nat := do
  match ← contents a, ← contents b with
  | .ok x, .ok y =>
    let fold (l : List Char) : List Char :=
      let l := if g.has 'i' then l.map Char.toLower else l
      let isBlank (c : Char) : Bool := c == ' ' || c == '\t'
      if g.has 'w' then l.filter (!isBlank ·) else l
    if x == y then
      if g.has 's' then emit ("Files " ++ a ++ " and " ++ b ++ " are identical\n")
      return 0
    else if g.has 'q' then
      emit ("Files " ++ a ++ " and " ++ b ++ " differ\n")
      return 1
    else
      let xs := ((wholeLines x).map fold).toArray
      let ys := ((wholeLines y).map fold).toArray
      let found := steps xs ys (common xs ys) (xs.size + ys.size + 1) 0 0
      if found.all Step.isKept then return 0
      if g.has 'u' || g.has 'U' then
        let around := ((g.value? 'U').bind fun s => (Numeral.natural? 10 s.toList).map (·.1)).getD 3
        let label (i : Nat) (name : String) : String :=
          ((g.values 'L')[i]?).getD (name ++ "\t" ++ noTime)
        emit ("--- " ++ label 0 a ++ "\n+++ " ++ label 1 b ++ "\n")
        emit (String.ofList (unified around found).flatten)
      else emit (String.ofList (hunks (found.length + 1) 0 0 found).flatten)
      return 1
  | .error e, _ =>
    complain ("diff: " ++ a ++ ": " ++ e.text)
    return 2
  | _, .error e =>
    complain ("diff: " ++ b ++ ": " ++ e.text)
    return 2

/-- Compares two directories, and those in them if so wanted. -/
def diffTrees (g : Given) (options : String) : Nat → String → String → Act Nat
  | 0, _, _ => return 0
  | fuel + 1, a, b => do
    let here := (← process).here
    let d ← disk
    let namesOf (name : String) : List String :=
      match d.find here (pathOf name) with
      | .ok (place, .directory) => (d.names place).map Bytes.ofText
      | _ => []
    let left := namesOf a
    let right := namesOf b
    let all := Files.sortedNames (left ++ right.filter (!left.contains ·))
    let one (status : Nat) (name : String) : Act Nat := do
      let x := Files.inside a name
      let y := Files.inside b name
      let only (dir : String) : Act Nat := do
        emit ("Only in " ++ dir ++ ": " ++ name ++ "\n")
        return max status 1
      if !left.contains name then only b
      else if !right.contains name then only a
      else
        match d.isDirectory here (pathOf x), d.isDirectory here (pathOf y) with
        | true, true =>
          if g.has 'r' then return max status (← diffTrees g options fuel x y)
          else
            emit ("Common subdirectories: " ++ x ++ " and " ++ y ++ "\n")
            return status
        | false, false =>
          match d.readBytes here (pathOf x), d.readBytes here (pathOf y) with
          | .ok u, .ok v =>
            if u == v then return status
            if !g.has 'q' then emit ("diff" ++ options ++ " " ++ x ++ " " ++ y ++ "\n")
            return max status (← diffFiles g x y)
          | _, _ => return 2
        | isLeft, _ =>
          let kind (isDir : Bool) : String := if isDir then "a directory" else "a regular file"
          emit ("File " ++ x ++ " is " ++ kind isLeft ++ " while file " ++ y ++ " is " ++
            kind (!isLeft) ++ "\n")
          return max status 1
    all.foldlM one 0

def diff (args : List String) : Act Nat :=
  let k : Known := ⟨"diff", "qsbwiBuaNr", "UL", [("brief", 'q'), ("report-identical-files", 's'),
    ("unified", 'u'), ("recursive", 'r'), ("label", 'L'), ("ignore-case", 'i'),
    ("ignore-all-space", 'w')], 2⟩
  withArguments k args fun g => do
    match g.operands with
    | [a, b] =>
      match ← Files.isDirectory a, ← Files.isDirectory b with
      | true, true =>
        let options := String.join ((args.filter fun w => w.toList.head? == some '-').map (" " ++ ·))
        diffTrees g options ((← disk).entries.length + 1) a b
      | true, false => diffFiles g (Files.inside a (Files.lastName b)) b
      | false, true => diffFiles g a (Files.inside b (Files.lastName a))
      | false, false => diffFiles g a b
    | [] =>
      let _ ← misuse (α := Unit) k "missing operand after 'diff'"
      return 2
    | [a] =>
      let _ ← misuse (α := Unit) k ("missing operand after " ++ quoted a)
      return 2
    | _ :: _ :: extra :: _ =>
      let _ ← misuse (α := Unit) k ("extra operand " ++ quoted extra)
      return 2

end FirmwareMatrix.Shell.Utility.Comparison
