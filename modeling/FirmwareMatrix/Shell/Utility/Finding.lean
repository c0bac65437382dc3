import FirmwareMatrix.Shell.Condition
import FirmwareMatrix.Shell.Utility.Expression
import FirmwareMatrix.Shell.Utility.Files

/-! Finding files: a condition is tried on every path below some others, from the top down or, if
something is to be removed, from the bottom up. Parts of a condition may also do something. Names in
a directory come in their order as texts. -/

namespace FirmwareMatrix.Shell.Utility.Finding

open Act

/-- How a number is compared with the one that a condition gives. -/
inductive Relation where
  | less
  | same
  | more
  deriving DecidableEq, Repr

def Relation.holds : Relation → Nat → Nat → Bool
  | less, n, m => n < m
  | same, n, m => n == m
  | more, n, m => m < n

inductive Condition where
  | always (found : Bool)
  | name (pattern : List Pattern.Element) (folds wholePath : Bool)
  | matching (e : Expression) (folds : Bool)
  | kind (letters : List Char)
  | isEmpty
  | size (r : Relation) (n unit : Nat)
  | executable
  | newer (than : String)
  | print (ending : Char)
  | format (text : List Char)
  | run (words : List String)
  /-- Keeps the path for a command that gets all of them at once. -/
  | keep (n : Nat)
  | delete
  | prune
  | quit
  | not (c : Condition)
  | both (a b : Condition)
  | either (a b : Condition)
  deriving Repr

/-- What a condition asks of the search as a whole. -/
structure Plan where
  least : Nat
  most : Option Nat
  upwards : Bool
  /-- Whether some part of the condition does something itself. -/
  acts : Bool
  /-- Commands that get many paths at once. -/
  gathered : List (List String)

/-! ## Reading -/

structure Scan where
  words : List String
  plan : Plan

abbrev Reading := EStateM String Scan

def nextWord (predicate : String) : Reading String := do
  let s ← get
  match s.words with
  | [] => throw ("missing argument to `" ++ predicate ++ "'")
  | w :: rest =>
    set { s with words := rest }
    return w

def planned (f : Plan → Plan) : Reading Unit := modify fun s => { s with plan := f s.plan }

def acting (c : Condition) : Reading Condition := do
  planned fun p => { p with acts := true }
  return c

def patternOf (folds : Bool) (s : String) : List Pattern.Element :=
  Pattern.compile ((if folds then s.toList.map Char.toLower else s.toList).map fun c => (c, false))

/-- A number with a sign that says how it is compared. -/
def relation? (cs : List Char) : Option (Relation × Nat × List Char) :=
  let (r, cs) := match cs with
    | '+' :: cs => (Relation.more, cs)
    | '-' :: cs => (Relation.less, cs)
    | cs => (Relation.same, cs)
  (Numeral.natural? 10 cs).map fun (n, rest) => (r, n, rest)

/-- The words of a command up to its end, and whether it gets many paths at once. -/
def commandWords (predicate : String) : Nat → Reading (List String × Bool)
  | 0 => throw ("missing argument to `" ++ predicate ++ "'")
  | fuel + 1 => do
    let w ← nextWord predicate
    if w == ";" then return ([], false)
    if w == "\x7b\x7d" && (← get).words.head? == some "+" then
      let _ ← nextWord predicate
      return ([], true)
    let (rest, many) ← commandWords predicate fuel
    return (w :: rest, many)

def number (predicate : String) : Reading Nat := do
  let w ← nextWord predicate
  match Numeral.natural? 10 w.toList with
  | some (n, []) => return n
  | _ => throw ("Expected a positive decimal integer argument to " ++ predicate ++ ", but got " ++
      quoted w)

def expressionOf (w : String) : Reading Expression := do
  match Expression.read false w.toList with
  | .ok e => return e
  | .error f => throw f.message

/-- A part of a condition by its first word. -/
def part (w : String) : Reading Condition := do
  let argument : Reading String := nextWord w
  match w with
  | "-name" => return .name (patternOf false (← argument)) false false
  | "-iname" => return .name (patternOf true (← argument)) true false
  | "-path" | "-wholename" => return .name (patternOf false (← argument)) false true
  | "-ipath" => return .name (patternOf true (← argument)) true true
  | "-regex" => return .matching (← expressionOf (← argument)) false
  | "-iregex" => return .matching (← expressionOf (← argument)) true
  | "-type" =>
    let letters := (← argument).toList.filter (· != ',')
    match letters.find? fun c => !("bcdpflsD".toList.contains c) with
    | some c => throw ("Unknown argument to -type: " ++ c.toString)
    | none => return .kind letters
  | "-empty" => return .isEmpty
  | "-executable" => return .executable
  | "-readable" | "-writable" | "-true" => return .always true
  | "-false" => return .always false
  | "-newer" => return .newer (← argument)
  | "-size" =>
    let s ← argument
    match relation? s.toList with
    | some (r, n, []) => return .size r n 512
    | some (r, n, [c]) =>
      match [('c', 1), ('w', 2), ('b', 512), ('k', 1024), ('M', 1048576), ('G', 1073741824)].lookup c with
      | some unit => return .size r n unit
      | none => throw ("invalid -size type `" ++ c.toString ++ "'")
    | _ => throw ("invalid argument `" ++ s ++ "' to `-size'")
  | "-perm" =>
    let s ← argument
    return if s.toList.contains 'x' || s.toList.contains '1' then .executable else .always true
  | "-print" => acting (.print '\n')
  | "-print0" => acting (.print '\x00')
  | "-printf" => do acting (.format (← argument).toList)
  | "-exec" | "-execdir" | "-ok" =>
    let (words, many) ← commandWords w ((← get).words.length + 1)
    if many then
      let n := (← get).plan.gathered.length
      planned fun p => { p with gathered := p.gathered ++ [words] }
      acting (.keep n)
    else acting (.run words)
  | "-delete" =>
    planned fun p => { p with upwards := true }
    acting .delete
  | "-prune" => return .prune
  | "-quit" => acting .quit
  | "-maxdepth" =>
    let n ← number w
    planned fun p => { p with most := some n }
    return .always true
  | "-mindepth" =>
    let n ← number w
    planned fun p => { p with least := n }
    return .always true
  | "-depth" | "-d" =>
    planned fun p => { p with upwards := true }
    return .always true
  | "-follow" | "-xdev" | "-mount" | "-noleaf" | "-nowarn" | "-warn" => return .always true
  | w =>
    if w.toList.head? == some '-' then throw ("unknown predicate `" ++ w ++ "'")
    else throw ("paths must precede expression: `" ++ w ++ "'")

mutual

/-- Conditions between which one of them is enough. -/
def anyOf : Nat → Reading Condition
  | 0 => throw "invalid expression"
  | fuel + 1 => do
    let a ← allOf fuel
    match (← get).words with
    | w :: _ =>
      if w == "-o" || w == "-or" then
        let _ ← nextWord w
        if (← get).words.isEmpty then
          throw ("invalid expression; expected to find a ')' but didn't see one. Perhaps you need " ++
            "an extra predicate after '" ++ w ++ "'")
        return .either a (← anyOf fuel)
      else return a
    | [] => return a

def allOf : Nat → Reading Condition
  | 0 => throw "invalid expression"
  | fuel + 1 => do
    let a ← single fuel
    match (← get).words with
    | [] => return a
    | w :: _ =>
      if w == "-o" || w == "-or" || w == ")" || w == "," then return a
      else
        if w == "-a" || w == "-and" then
          let _ ← nextWord w
        return .both a (← allOf fuel)

def single : Nat → Reading Condition
  | 0 => throw "invalid expression"
  | fuel + 1 => do
    let w ← nextWord "-a"
    match w with
    | "!" | "-not" => return .not (← single fuel)
    | "(" =>
      let c ← anyOf fuel
      match (← get).words with
      | ")" :: rest =>
        modify fun s => { s with words := rest }
        return c
      | _ => throw ("invalid expression; I was expecting to find a ')' somewhere but did not see " ++
          "one.")
    | w => part w

end

/-- The condition that words describe. -/
def read (words : List String) : Except String (Condition × Plan) :=
  let start : Scan := ⟨words, ⟨0, none, false, false, []⟩⟩
  if words.isEmpty then .ok (.always true, start.plan)
  else
    match (anyOf (8 * words.length + 8)).run start with
    | .error e _ => .error e
    | .ok c s =>
      match s.words with
      | [] => .ok (c, s.plan)
      | _ => .error "invalid expression; you have too many ')'"

/-! ## Searching -/

/-- A path that is tried: as it is named, where it is, how deep, and below which start. -/
structure Visit where
  path : String
  place : Disk.Place
  depth : Nat
  root : String

/-- What a search has come to. -/
structure Progress where
  kept : List (Nat × String)
  failed : Bool
  pruned : Bool
  ended : Bool

abbrev Search := StateT Progress Act

/-- A path with each pair of braces replaced. -/
def withPath (path : String) (word : String) : String :=
  let rec go : List Char → List Char
    | '\x7b' :: '\x7d' :: rest => path.toList ++ go rest
    | c :: rest => c :: go rest
    | [] => []
  String.ofList (go word.toList)

def kindLetter : Disk.Entry → Char
  | .directory => 'd'
  | .link _ => 'l'
  | .device _ => 'c'
  | .file _ _ | .program _ => 'f'

/-- A text with escapes and percent signs, filled in for a path. -/
def formatted (v : Visit) (e : Disk.Entry) : List Char → List Char
  | '\\' :: c :: rest =>
    (match c with
      | 'n' => ['\n']
      | 't' => ['\t']
      | '0' => ['\x00']
      | '\\' => ['\\']
      | c => ['\\', c]) ++ formatted v e rest
  | '%' :: c :: rest =>
    let below := (v.path.toList.drop v.root.length).dropWhile (· == '/')
    (match c with
      | 'p' => v.path.toList
      | 'f' => (Files.lastName v.path).toList
      | 'h' =>
        let above := Files.parentName v.path
        if v.path.toList.contains '/' then above.toList else ['.']
      | 'P' => below
      | 'H' => v.root.toList
      | 'd' => (toString v.depth).toList
      | 'y' => [kindLetter e]
      | 's' => (toString (Files.sizeOf e)).toList
      | 'm' => Nat.toDigits 8 (Files.modeOf e)
      | 'l' =>
        match e with
        | .link target => (Bytes.ofText target).toList
        | _ => []
      | '%' => ['%']
      | c => ['%', c]) ++ formatted v e rest
  | c :: rest => c :: formatted v e rest
  | [] => []

def refuse (text : String) : Search Unit := do
  (complain ("find: " ++ text) : Act Unit)
  modify fun s => { s with failed := true }

/-- Tries a condition on a path. -/
def try_ (spawn : Spawn) (v : Visit) (e : Disk.Entry) : Condition → Search Bool
  | .always found => return found
  | .name pattern folds wholePath =>
    let text := (if wholePath then v.path else Files.lastName v.path).toList
    return Pattern.accepts pattern (if folds then text.map Char.toLower else text)
  | .matching x folds =>
    let text := v.path.toList
    return (Expression.matchAt? (.seq x .stop) ⟨text.toArray, folds⟩ 0).isSome
  | .kind letters => return letters.contains (kindLetter e)
  | .isEmpty => do
    match e with
    | .file bytes _ => return bytes.isEmpty
    | .directory => return ((← (disk : Act Disk)).names v.place).isEmpty
    | _ => return false
  | .size r n unit => return r.holds ((Files.sizeOf e + unit - 1) / unit) n
  | .executable =>
    return match e with
      | .file _ executable => executable
      | _ => true
  | .newer than => do
    let p ← (process : Act Process)
    let d ← (disk : Act Disk)
    return Shell.Condition.comparesOf d p.here "-nt" v.path than
  | .print ending => do
    (emit (v.path ++ ending.toString) : Act Unit)
    return true
  | .format text => do
    (emit (String.ofList (formatted v e text)) : Act Unit)
    return true
  | .run words => do
    let words := words.map (withPath v.path)
    match ← (spawn id words : Act (Except Errno Nat)) with
    | .ok status => return status == 0
    | .error e =>
      (complain ("find: " ++ quoted (words.head?.getD "") ++ ": " ++ e.text) : Act Unit)
      return false
  | .keep n => do
    modify fun s => { s with kept := (n, v.path) :: s.kept }
    return true
  | .delete => do
    if v.path == "." then return true
    let d ← (disk : Act Disk)
    if e == .directory && !(d.names v.place).isEmpty then
      refuse ("cannot delete " ++ quoted v.path ++ ": " ++ Errno.notEmpty.text)
      return false
    (onMachine fun m => { m with disk := m.disk.erase v.place } : Act Unit)
    return true
  | .prune => do
    modify fun s => { s with pruned := true }
    return true
  | .quit => do
    modify fun s => { s with ended := true }
    return true
  | .not c => return !(← try_ spawn v e c)
  | .both a b => do if ← try_ spawn v e a then try_ spawn v e b else return false
  | .either a b => do if ← try_ spawn v e a then return true else try_ spawn v e b

/-- Tries a condition on a path and all below it. -/
def visit (spawn : Spawn) (c : Condition) (plan : Plan) : Nat → Visit → Search Unit
  | 0, _ => return
  | fuel + 1, v => do
    if (← get).ended then return
    match (← (disk : Act Disk)).lookup v.place with
    | none => refuse (quoted v.path ++ ": " ++ Errno.noEntry.text)
    | some e =>
      let tryHere : Search Unit := do
        if v.depth < plan.least || (← get).ended then return
        let found ← try_ spawn v e c
        if found && !plan.acts then (emit (v.path ++ "\n") : Act Unit)
      modify fun s => { s with pruned := false }
      if !plan.upwards then tryHere
      let stays := (← get).pruned && !plan.upwards || plan.most == some v.depth || e != .directory
      if !stays then
        let names ← (Files.namesIn v.place : Act (List String))
        names.forM fun n =>
          visit spawn c plan fuel
            ⟨Files.inside v.path n, v.place ++ [Bytes.toText n], v.depth + 1, v.root⟩
      if plan.upwards then tryHere

/-- Whether a word starts the condition. -/
def startsCondition (word : String) : Bool :=
  word == "!" || word == "(" || word == ")" || (word.toList.head? == some '-' && word.length > 1)

def find (spawn : Spawn) (args : List String) : Act Nat := do
  let args := args.dropWhile fun a => ["-L", "-P", "-H"].contains a
  let roots := args.takeWhile (!startsCondition ·)
  match read (args.drop roots.length) with
  | .error e =>
    complain ("find: " ++ e)
    return 1
  | .ok (c, plan) =>
    let roots := if roots.isEmpty then ["."] else roots
    let act : Search Unit := roots.forM fun root => do
      let p ← (process : Act Process)
      let d ← (disk : Act Disk)
      let bare := pathOf (Bytes.ofText (Disk.withoutTrailing (pathOf root)).text)
      let found := match d.findName p.here bare with
        | .ok found =>
          if Disk.hasTrailing (pathOf root) then d.find p.here (pathOf root) else .ok found
        | .error e => .error e
      match found with
      | .ok (place, _) => visit spawn c plan (d.entries.length + 2) ⟨root, place, 0, root⟩
      | .error e => refuse (quoted root ++ ": " ++ e.text)
    let (_, s) ← act.run ⟨[], false, false, false⟩
    let rec flush : List (List String) → Nat → Bool → Act Bool
      | [], _, ok => return ok
      | words :: rest, n, ok => do
        let paths := (s.kept.reverse.filter (·.1 == n)).map (·.2)
        if paths.isEmpty then flush rest (n + 1) ok
        else
          match ← spawn id (words ++ paths) with
          | .ok status => flush rest (n + 1) (ok && status == 0)
          | .error e =>
            complain ("find: " ++ quoted (words.head?.getD "") ++ ": " ++ e.text)
            flush rest (n + 1) false
    let ok ← flush plan.gathered 0 true
    return if s.failed || !ok then 1 else 0

end FirmwareMatrix.Shell.Utility.Finding
