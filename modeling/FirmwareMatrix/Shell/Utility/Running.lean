import FirmwareMatrix.Shell.Program
import FirmwareMatrix.Shell.Utility.Arguments

/-! Programs that run others, in another environment, for some time or with words from their input,
and those that tell where and on what they run. -/

namespace FirmwareMatrix.Shell.Utility.Running

open Act

/-- Runs a program with the options before its first other argument. -/
def withLeading (k : Known) (args : List String) (act : Given → Act Nat) : Act Nat := do
  let fuel := args.foldl (fun n a => n + a.length + 1) 1
  match ← parse k false fuel args with
  | .ok g => act g
  | .error n => return n

/-- The status for a program that could not be started. -/
def statusOf (e : Errno) : Nat := if e = .noEntry then 127 else 126

/-! ## Time -/

/-- A time in microseconds: a decimal number of seconds, or of what a letter says. -/
def microseconds? (s : String) : Option Nat := do
  let cs := s.toList
  let (digits, unit) ← match cs.getLast? with
    | some 's' => some (cs.dropLast, 1)
    | some 'm' => some (cs.dropLast, 60)
    | some 'h' => some (cs.dropLast, 3600)
    | some 'd' => some (cs.dropLast, 86400)
    | some _ => some (cs, 1)
    | none => none
  let whole := digits.takeWhile Char.isDigit
  let part ← match digits.drop whole.length with
    | [] => some []
    | '.' :: part => some part
    | _ => none
  if !part.all Char.isDigit || (whole.isEmpty && part.isEmpty) then none
  else
    let six := (part ++ List.replicate 6 '0').take 6
    some ((Numeral.ofDigits 10 whole * 1000000 + Numeral.ofDigits 10 six) * unit)

def sleep (args : List String) : Act Nat := do
  let args := if args.head? == some "--" then args.tail else args
  let hint : Act Unit := complain "Try 'sleep --help' for more information."
  if args.isEmpty then
    complain "sleep: missing operand"
    hint
    return 1
  let bad := args.filter fun a => (microseconds? a).isNone
  if !bad.isEmpty then
    bad.forM fun a => complain ("sleep: invalid time interval " ++ quoted a)
    hint
    return 1
  if (← get).machine.interrupted then throw .waiting
  pass (args.foldl (fun n a => n + (microseconds? a).getD 0) 0)
  return 0

/-- What has been written after a time is taken back, and the clock with it. -/
def cutAt (time : Nat) : Act Unit := onMachine fun m =>
  { m with clock := time, written := m.written.filter fun w => w.time ≤ time }

/-- Runs a program for some time at most. -/
def timeout (spawn : Spawn) (args : List String) : Act Nat :=
  let k : Known := ⟨"timeout", "fv", "ks", [("foreground", 'f'), ("kill-after", 'k'), ("signal", 's'),
    ("preserve-status", 'f')], 125⟩
  withLeading k args fun g => do
    let hint : Act Nat := do
      complain "Try 'timeout --help' for more information."
      return 125
    match g.operands with
    | [] | [_] => hint
    | time :: words =>
      match microseconds? time with
      | none =>
        complain ("timeout: invalid time interval " ++ quoted time)
        hint
      | some limit =>
        let start := (← get).machine.clock
        match ← spawn id words with
        | .error e =>
          complain ("timeout: failed to run command " ++ quoted (words.head?.getD "") ++ ": " ++ e.text)
          return statusOf e
        | .ok status =>
          if 0 < limit && start + limit < (← get).machine.clock then
            cutAt (start + limit)
            return 124
          else return status

/-! ## Environment -/

/-- The names and values that arguments set, and the words behind them. -/
def settings : List String → List (String × String) × List String
  | [] => ([], [])
  | word :: rest =>
    match Text.cutAt '=' word.toList with
    | some (name, value) =>
      let (found, words) := settings rest
      ((String.ofList name, String.ofList value) :: found, words)
    | none => ([], word :: rest)

def env (spawn : Spawn) (args : List String) : Act Nat :=
  let k : Known := ⟨"env", "i0v", "uCS", [("ignore-environment", 'i'), ("unset", 'u'),
    ("chdir", 'C'), ("null", '0')], 125⟩
  let args := if args.head? == some "-" then "-i" :: args.tail else args
  withLeading k args fun g => do
    let p ← process
    let (set, words) := settings g.operands
    let kept := if g.has 'i' then []
      else p.bindings.filter fun e => e.2.exported && !(g.values 'u').contains e.1
    let d ← disk
    let place : Except (String × Errno) Disk.Place := match g.value? 'C' with
      | none => .ok p.here
      | some dir =>
        match d.find p.here (pathOf dir) with
        | .ok (place, .directory) => .ok place
        | .ok _ => .error (dir, .notDirectory)
        | .error e => .error (dir, e)
    match place with
    | .error (dir, e) =>
      complain ("env: cannot change directory to " ++ quoted dir ++ ": " ++ e.text)
      return 125
    | .ok here =>
      let change (p : Process) : Process :=
        set.foldl (fun p (name, value) => p.put name ⟨some value, true, false⟩)
          { p with here, bindings := kept }
      if words.isEmpty then
        let ending := if g.has '0' then "\x00" else "\n"
        emit (String.join ((change p).environment.map fun (name, value) => name ++ "=" ++ value ++ ending))
        return 0
      match ← spawn change words with
      | .ok status => return status
      | .error e =>
        complain ("env: " ++ quoted (words.head?.getD "") ++ ": " ++ e.text)
        return statusOf e

def printenv (args : List String) : Act Nat := do
  let found := (← process).environment
  if args.isEmpty then
    emit (String.join (found.map fun (name, value) => name ++ "=" ++ value ++ "\n"))
    return 0
  forEach (fun name => do
    match found.lookup name with
    | some value =>
      emit (value ++ "\n")
      return true
    | none => return false) args

/-- Runs a program as it is asked for, under a name of its own in messages. -/
def plainly (name : String) (spawn : Spawn) (words : List String) : Act Nat := do
  match ← spawn id words with
  | .ok status => return status
  | .error e =>
    complain (name ++ ": failed to run command " ++ quoted (words.head?.getD "") ++ ": " ++ e.text)
    return statusOf e

def nohup (spawn : Spawn) (args : List String) : Act Nat := do
  if args.isEmpty then
    complain "nohup: missing operand\nTry 'nohup --help' for more information."
    return 125
  plainly "nohup" spawn args

def nice (spawn : Spawn) (args : List String) : Act Nat :=
  withLeading ⟨"nice", "", "n", [("adjustment", 'n')], 125⟩ args fun g => do
    if g.operands.isEmpty then
      emit "0\n"
      return 0
    match ← spawn id g.operands with
    | .ok status => return status
    | .error e =>
      complain ("nice: " ++ quoted (g.operands.head?.getD "") ++ ": " ++ e.text)
      return statusOf e

/-! ## Words from the input -/

/-- Words between blanks; quotes and backslashes keep blanks. Each word comes with the number of its
line; a quote that does not end is given back instead. -/
def inputWords : Nat → Nat → Option (List Char) → List Char → Except Char (List (List Char × Nat))
  | 0, _, _, _ => .ok []
  | fuel + 1, line, word, cs =>
    let finish (line : Nat) (rest : List Char) : Except Char (List (List Char × Nat)) :=
      match word with
      | some w => (inputWords fuel line none rest).map ((w.reverse, line) :: ·)
      | none => inputWords fuel line none rest
    match cs with
    | [] => .ok (match word with
        | some w => [(w.reverse, line)]
        | none => [])
    | '\n' :: rest =>
      match word with
      | some w => (inputWords fuel (line + 1) none rest).map ((w.reverse, line) :: ·)
      | none => inputWords fuel line none rest
    | '\\' :: c :: rest => inputWords fuel line (some (c :: word.getD [])) rest
    | c :: rest =>
      if c == ' ' || c == '\t' then finish line rest
      else if c == '\'' || c == '"' then
        let inner := rest.takeWhile fun d => d != c && d != '\n'
        if (rest.drop inner.length).head? == some c then
          inputWords fuel line (some (inner.reverse ++ word.getD [])) (rest.drop (inner.length + 1))
        else .error c
      else inputWords fuel line (some (c :: word.getD [])) rest

/-- Items between separators; one at the end ends the last item. -/
def separated (separator : Char) (text : List Char) : List (List Char × Nat) :=
  let items := Text.splitAt separator text
  let items := if items.getLast? == some [] then items.dropLast else items
  items.zipIdx

/-- Lines without their blanks at the start; empty ones are left out. -/
def inputLines (text : List Char) : List (List Char × Nat) :=
  let isBlank (c : Char) : Bool := c == ' ' || c == '\t'
  ((lines text).map (·.dropWhile isBlank) |>.filter (!·.isEmpty)).zipIdx

/-- Pieces of a list of a certain length; `fuel` is at least the length of the list. -/
def inPieces {α : Type} (n : Nat) : Nat → List α → List (List α)
  | 0, _ => []
  | _, [] => []
  | fuel + 1, xs => xs.take n :: inPieces n fuel (xs.drop n)

/-- Words of so many lines together. -/
def byLines (n : Nat) (words : List (List Char × Nat)) : List (List (List Char × Nat)) :=
  let numbers := (words.map (·.2)).eraseDups
  (inPieces n numbers.length numbers).map fun ns => words.filter fun w => ns.contains w.2

/-- A text with another one in place of each mark. -/
def filledIn (mark value : List Char) : Nat → List Char → List Char
  | 0, cs => cs
  | _, [] => []
  | fuel + 1, c :: cs =>
    if !mark.isEmpty && mark.isPrefixOf (c :: cs) then
      value ++ filledIn mark value fuel ((c :: cs).drop mark.length)
    else c :: filledIn mark value fuel cs

/-- Runs commands one after another, up to one that cannot be run or asks for an end. -/
def runEach (spawn : Spawn) (shows : Bool) : List (List String) → Nat → Act Nat
  | [], status => return status
  | words :: rest, status => do
    let name := words.head?.getD ""
    if shows then complain (String.intercalate " " words)
    let p ← process
    let nothing ← newChannel (.device .null)
    let quiet (q : Process) : Process :=
      { q with descriptors := (0, nothing) :: p.descriptors.filter (·.1 != 0) }
    match ← spawn quiet words with
    | .error e =>
      complain ("xargs: " ++ name ++ ": " ++ e.text)
      return statusOf e
    | .ok n =>
      if n = 255 then
        complain ("xargs: " ++ name ++ ": exited with status 255; aborting")
        return 124
      else if 128 < n && n ≤ 128 + Signal.largest then
        complain ("xargs: " ++ name ++ ": terminated by signal " ++ toString (n - 128))
        return 125
      else runEach spawn shows rest (if n = 0 then status else 123)

def xargs (spawn : Spawn) (args : List String) : Act Nat :=
  let k : Known := ⟨"xargs", "0rtxop", "nILdPasEi", [("null", '0'), ("no-run-if-empty", 'r'),
    ("verbose", 't'), ("max-args", 'n'), ("replace", 'I'), ("max-lines", 'L'), ("delimiter", 'd'),
    ("max-procs", 'P'), ("arg-file", 'a')], 1⟩
  withLeading k args fun g => do
    let number (c : Char) : Option Nat :=
      (g.value? c).bind fun s => (Numeral.natural? 10 s.toList).map (·.1)
    let zero := "nL".toList.find? fun c => number c == some 0
    if let some c := zero then
      complain ("xargs: value 0 for -" ++ c.toString ++ " option should be >= 1\n" ++
        "Try 'xargs --help' for more information.")
      return 1
    let text ← match ← contents ((g.value? 'a').getD "-") with
      | .ok text => pure text
      | .error _ => pure []
    let separator : Option Char := if g.has '0' then some '\x00'
      else (g.value? 'd').bind fun s =>
        match s.toList with
        | '\\' :: 'n' :: _ => some '\n'
        | '\\' :: 't' :: _ => some '\t'
        | '\\' :: '0' :: _ => some '\x00'
        | cs => cs.head?
    let mark := g.value? 'I'
    let found : Except Char (List (List Char × Nat)) := match separator, mark with
      | some c, _ => .ok (separated c text)
      | none, some _ => .ok (inputLines text)
      | none, none => inputWords (2 * text.length + 2) 0 none text
    let command := if g.operands.isEmpty then ["echo"] else g.operands
    let shown (w : List Char × Nat) : String := String.ofList w.1
    match found with
    | .error c =>
      complain ("xargs: unmatched " ++ (if c == '"' then "double" else "single") ++
        " quote; by default quotes are special to xargs unless you use the -0 option")
      return 1
    | .ok words =>
      let commands : List (List String) := match mark with
        | some m => words.map fun w =>
            command.map fun a => String.ofList (filledIn m.toList w.1 (a.length + 1) a.toList)
        | none =>
          let pieces := match number 'n', number 'L' with
            | some n, _ => inPieces n words.length words
            | none, some n => byLines n words
            | none, none => if words.isEmpty then [] else [words]
          let pieces := if pieces.isEmpty && !g.has 'r' then [[]] else pieces
          pieces.map fun ws => command ++ ws.map shown
      runEach spawn (g.has 't') commands 0

/-! ## Places and names -/

def which (args : List String) : Act Nat :=
  withLeading ⟨"which", "as", "", [], 2⟩ args fun g => do
    let p ← process
    let d ← disk
    if g.operands.isEmpty then return 1
    forEach (fun name => do
      match Program.locate d p.here ((p.value? "PATH").getD "") name with
      | .ok path =>
        emit (path ++ "\n")
        return true
      | .error _ => return false) g.operands

def pwd : Act Nat := do
  emit (Bytes.ofText (Disk.pathOf (← process).here).text ++ "\n")
  return 0

def uname (args : List String) : Act Nat :=
  let k : Known := ⟨"uname", "smopi", "", [("kernel-name", 's'), ("machine", 'm'),
    ("operating-system", 'o')], 1⟩
  withLeading k args fun g => do
    let parts := [('s', "Linux"), ('m', "x86_64"), ('p', "x86_64"), ('i', "x86_64"), ('o', "GNU/Linux")]
    let wanted := parts.filter fun e => g.has e.1
    emit (String.intercalate " " (if wanted.isEmpty then ["Linux"] else wanted.map (·.2)) ++ "\n")
    return 0

def identity (args : List String) : Act Nat :=
  let k : Known := ⟨"id", "ugnGr", "", [("user", 'u'), ("group", 'g'), ("name", 'n')], 1⟩
  withLeading k args fun g => do
    let one := g.has 'u' || g.has 'g' || g.has 'G'
    emit (if one then (if g.has 'n' then "root\n" else "0\n")
      else "uid=0(root) gid=0(root) groups=0(root)\n")
    return 0

end FirmwareMatrix.Shell.Utility.Running
