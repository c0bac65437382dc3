import FirmwareMatrix.Shell.Signal

/-! What the programs of the system have in common: options anywhere among the arguments, files by
name or the input in their place, text in lines. -/

namespace FirmwareMatrix.Shell.Utility

open Act

/-- How a program has another one run: in a process that a change makes, by its words. The status
of that process, if it could be started. -/
abbrev Spawn := (Process → Process) → List String → Act (Except Errno Nat)

/-- The options that a program knows. -/
structure Known where
  program : String
  /-- Letters without and with a value. -/
  plain : String
  valued : String
  /-- Long names for letters; those of letters with a value need one. -/
  long : List (String × Char)
  /-- The status for wrong usage. -/
  failure : Nat

/-- Options in order, and the other arguments. -/
structure Given where
  options : List (Char × String)
  operands : List String

namespace Given

def has (g : Given) (c : Char) : Bool := g.options.any (·.1 == c)

/-- The last value of an option. -/
def value? (g : Given) (c : Char) : Option String := (g.options.filter (·.1 == c)).getLast?.map (·.2)

def values (g : Given) (c : Char) : List String :=
  (g.options.filter (·.1 == c)).map (·.2)

end Given

/-- A fault of usage in two lines. -/
def misuse {α : Type} (k : Known) (text : String) : Act (Except Nat α) := do
  complain (k.program ++ ": " ++ text)
  complain ("Try '" ++ k.program ++ " --help' for more information.")
  return .error k.failure

/-- Sorts arguments into options and others; `mixed` says that options may follow others. -/
def parse (k : Known) (mixed : Bool) : Nat → List String → Act (Except Nat Given)
  | 0, _ => return .ok ⟨[], []⟩
  | _, [] => return .ok ⟨[], []⟩
  | fuel + 1, arg :: rest => do
    let add (found : List (Char × String)) (rest : List String) : Act (Except Nat Given) := do
      match ← parse k mixed fuel rest with
      | .ok g => return .ok { g with options := found ++ g.options }
      | .error n => return .error n
    match arg.toList with
    | ['-', '-'] => return .ok ⟨[], rest⟩
    | '-' :: '-' :: cs =>
      let (name, value) := match Text.cutAt '=' cs with
        | some (name, value) => (String.ofList name, some (String.ofList value))
        | none => (String.ofList cs, none)
      let isStart (e : String × Char) : Bool := name.toList.isPrefixOf e.1.toList
      match (k.long.find? (·.1 == name)).or (k.long.find? isStart) with
      | none => misuse k ("unrecognized option '" ++ arg ++ "'")
      | some (full, c) =>
        if k.valued.toList.contains c then
          match value, rest with
          | some v, rest => add [(c, v)] rest
          | none, v :: rest => add [(c, v)] rest
          | none, [] => misuse k ("option '--" ++ full ++ "' requires an argument")
        else add [(c, value.getD "")] rest
    | '-' :: c :: cs =>
      if k.valued.toList.contains c then
        match cs, rest with
        | [], [] => misuse k ("option requires an argument -- '" ++ c.toString ++ "'")
        | [], v :: rest => add [(c, v)] rest
        | cs, rest => add [(c, String.ofList cs)] rest
      else if k.plain.toList.contains c then
        if cs.isEmpty then add [(c, "")] rest
        else add [(c, "")] (String.ofList ('-' :: cs) :: rest)
      else misuse k ("invalid option -- '" ++ c.toString ++ "'")
    | _ =>
      if mixed then
        match ← parse k mixed fuel rest with
        | .ok g => return .ok { g with operands := arg :: g.operands }
        | .error n => return .error n
      else return .ok ⟨[], arg :: rest⟩

/-- Runs a program with its options and other arguments. -/
def withArguments (k : Known) (args : List String) (act : Given → Act Nat) : Act Nat := do
  let fuel := args.foldl (fun n a => n + a.length + 1) 1
  match ← parse k true fuel args with
  | .ok g => act g
  | .error n => return n

/-! ## Quotes -/

/-- Characters that need no quotes to be taken as they are typed. -/
def isPlain (c : Char) : Bool := c.isAlphanum || "%+,-./:]_@".toList.contains c

/-- Text as it would be typed, between apostrophes; if it holds such but nothing else that matters
to a shell, it stands between quotation marks. -/
def quoted (s : String) : String :=
  let cs := s.toList
  if cs.contains '\'' && cs.all fun c => isPlain c || c == '\'' || c == ' ' then "\"" ++ s ++ "\""
  else "'" ++ String.join (cs.map fun c => if c == '\'' then "'\\''" else c.toString) ++ "'"

/-- Text as it would be typed; where they matter to nobody, quotes are left out. -/
def quotedIfNeeded (s : String) : String :=
  let cs := s.toList
  let isSafe (c : Char) : Bool := isPlain c || c == '#' || c == '~' || c == '\x7b' || c == '\x7d'
  let startsBadly := cs.head? == some '#' || cs.head? == some '~'
  if !cs.isEmpty && cs.all (fun c => isSafe c || c.toNat ≥ 128) && !startsBadly && s != "\x7b" &&
    s != "\x7d" then s
  else quoted s

/-! ## Files -/

def pathOf (name : String) : Path := ⟨Bytes.toText name⟩

/-- What can be read under a name; a dash is the input. -/
def contents (name : String) : Act (Except Errno (List Char)) := do
  if name == "-" then takeAll 0
  else
    match ← openPath (← process).here name .reading false with
    | .error e => return .error e
    | .ok n =>
      attach 19 n
      let found ← takeAll 19
      close 19
      return found

/-- The texts under some names with the names; what cannot be read is reported. -/
def texts (program : String) : List String → Act (List (String × List Char) × Bool)
  | [] => return ([], true)
  | name :: rest => do
    match ← contents name with
    | .ok text =>
      let (more, ok) ← texts program rest
      return ((name, text) :: more, ok)
    | .error e =>
      complain (program ++ ": " ++ quotedIfNeeded name ++ ": " ++ e.text)
      let (more, _) ← texts program rest
      return (more, false)

/-- The input if nothing is named. -/
def orInput (names : List String) : List String := if names.isEmpty then ["-"] else names

/-- The lines of a text, and whether the last one has an end. -/
def lines (text : List Char) : List (List Char) :=
  match (Text.splitAt '\n' text).reverse with
  | [] :: before => before.reverse
  | found => found.reverse

def endsWithLine (text : List Char) : Bool := text.isEmpty || text.getLast? == some '\n'

def unlines (ls : List (List Char)) : List Char := ls.flatMap (· ++ ['\n'])

def emitLines (ls : List (List Char)) : Act Unit := emit (String.ofList (unlines ls))

def zeroOr (failed : Bool) : Nat := if failed then 1 else 0

/-- Does something for each name; the status is one if it fails anywhere. -/
def forEach (act : String → Act Bool) : List String → Act Nat
  | [] => return 0
  | name :: rest => do
    let ok ← act name
    let n ← forEach act rest
    return if ok then n else 1

end FirmwareMatrix.Shell.Utility
