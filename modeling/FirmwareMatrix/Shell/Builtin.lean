import FirmwareMatrix.Shell.Condition
import FirmwareMatrix.Shell.Expansion
import FirmwareMatrix.Shell.Format
import FirmwareMatrix.Shell.Permission
import FirmwareMatrix.Shell.Program
import FirmwareMatrix.Shell.ScriptText
import FirmwareMatrix.Shell.Signal

/-! Commands that a shell carries out itself because they act on the shell. Each gives its status;
faults of its own end a shell only if the command is a special one. -/

namespace FirmwareMatrix.Shell.Builtin

open Act

/-- Commands whose faults end the shell, and which no function can replace. -/
def special : List String :=
  [".", ":", "break", "continue", "eval", "exec", "exit", "export", "local", "readonly", "return",
    "set", "shift", "times", "trap", "unset"]

/-- Commands whose arguments may be assignments. -/
def assigning : List String := ["export", "local", "readonly"]

/-- Leading one-letter options; of those that `valued` lists, each has a value. -/
def options (allowed valued : List Char) : List String → Act (List (Char × String) × List String)
  | [] => return ([], [])
  | arg :: rest => do
    match arg.toList with
    | ['-', '-'] => return ([], rest)
    | '-' :: c :: cs =>
      if !(allowed.contains c || valued.contains c) then fail ("Illegal option -" ++ c.toString)
      if valued.contains c then
        match cs, rest with
        | [], [] => fail ("No arg for -" ++ c.toString ++ " option")
        | [], value :: rest =>
          let (more, left) ← options allowed valued rest
          return ((c, value) :: more, left)
        | cs, rest =>
          let (more, left) ← options allowed valued rest
          return ((c, String.ofList cs) :: more, left)
      else
        if cs.all allowed.contains then
          let (more, left) ← options allowed valued rest
          return ((c :: cs).map (fun c => (c, "")) ++ more, left)
        else
          match cs.find? fun c => !allowed.contains c with
          | some bad => fail ("Illegal option -" ++ bad.toString)
          | none => return ([], rest)
    | _ => return ([], arg :: rest)

/-- A number that is not negative. -/
def natural (s : String) : Act Nat := do
  match if s.toList.head?.any Char.isDigit || s.toList.head?.any Numeral.isSpace then
      Numeral.whole? false s else none with
  | some n => if 0 ≤ n && n < 2147483648 then return n.toNat else fail ("Illegal number: " ++ s)
  | none => fail ("Illegal number: " ++ s)

/-- Text in single quotes, in which single quotes themselves are put between double ones. -/
def quoted (s : String) : String :=
  let rec go : Nat → List Char → List Char
    | 0, _ => []
    | fuel + 1, cs =>
      let plain := cs.takeWhile (· != '\'')
      let rest := cs.drop plain.length
      let quotes := rest.takeWhile (· == '\'')
      '\'' :: plain ++ '\'' ::
        (if quotes.isEmpty then [] else '"' :: quotes ++ ['"'] ++
          (match rest.drop quotes.length with
            | [] => []
            | rest => go fuel rest))
  if s.isEmpty then "''"
  else
    match s.toList with
    | '\'' :: _ =>
      let quotes := s.toList.takeWhile (· == '\'')
      String.ofList ('"' :: quotes ++ ['"'] ++ (match s.toList.drop quotes.length with
        | [] => []
        | rest => go s.length rest))
    | cs => String.ofList (go (s.length + 1) cs)

def isGoodName (s : String) : Bool := ScriptText.isGoodName s.toList

/-- The name and the value of an argument that assigns one. -/
def parted (arg : String) : String × Option String :=
  match Text.cutAt '=' arg.toList with
  | some (name, value) => (String.ofList name, some (String.ofList value))
  | none => (arg, none)

/-! ## Variables -/

/-- Lines that would set some variables again, by name. -/
def listing (start : String) (only : Variable → Bool) : Act Unit := do
  let shown := ((← process).bindings.filter fun (_, v) => only v).mergeSort fun a b => a.1 ≤ b.1
  emit (String.join (shown.map fun (name, v) =>
    start ++ name ++ (match v.value with
      | some value => "=" ++ quoted value
      | none => "") ++ "\n"))

/-- Marks variables as exported or as protected, setting some of them. -/
def mark (word : String) (change : Variable → Variable) (has : Variable → Bool)
    (args : List String) : Act Nat := do
  let (flags, names) ← options ['p'] [] args
  if names.isEmpty || flags.any (·.1 == 'p') then
    listing (word ++ " ") has
    return 0
  names.forM fun arg => do
    let (name, value) := parted arg
    if !isGoodName name then fail (name ++ ": bad variable name")
    if let some v := value then setVariable name v
    onProcess fun p => p.put name (change ((p.found? name).getD ⟨none, false, false⟩))
  return 0

def unset (args : List String) : Act Nat := do
  let (flags, names) ← options ['f', 'v'] [] args
  let ofFunctions := flags.any (·.1 == 'f')
  names.forM fun name => do
    if ofFunctions then
      onProcess fun p => { p with functions := p.functions.filter (·.1 != name) }
    else
      if !isGoodName name then fail (name ++ ": bad variable name")
      if (← process).isReadOnly name then fail (name ++ ": is read only")
      onProcess fun p => { p with bindings := p.bindings.filter (·.1 != name) }
  return 0

/-- Keeps what a variable holds until the function under way ends. -/
def save (name : String) : Act Unit := onProcess fun p =>
  match p.saved with
  | [] => p
  | found :: outer =>
    if found.any (·.1 == name) then p
    else { p with saved := ((name, p.found? name) :: found) :: outer }

def locals (args : List String) : Act Nat := do
  if (← process).depth = 0 then fail "not in a function"
  args.forM fun arg => do
    let (name, value) := parted arg
    if name == "-" then return
    if !isGoodName name then fail (name ++ ": bad variable name")
    save name
    if let some v := value then setVariable name v
  return 0

def shift (args : List String) : Act Nat := do
  let n ← match args with
    | [] => pure 1
    | arg :: _ => natural arg
  if (← process).args.length < n then fail "can't shift that many"
  onProcess fun p => { p with args := p.args.drop n }
  return 0

/-! ## Options of the shell -/

/-- The options in the order in which they are listed, with their letters. -/
def optionNames : List (String × Char) :=
  [("errexit", 'e'), ("noglob", 'f'), ("ignoreeof", 'I'), ("interactive", 'i'), ("monitor", 'm'),
    ("noexec", 'n'), ("stdin", 's'), ("xtrace", 'x'), ("verbose", 'v'), ("vi", 'V'), ("emacs", 'E'),
    ("noclobber", 'C'), ("allexport", 'a'), ("notify", 'b'), ("nounset", 'u'), ("privileged", 'p'),
    ("nolog", '\x00'), ("debug", '\x01')]

def setOption (c : Char) (on : Bool) : Act Unit := onProcess fun p =>
  let others := p.options.filter (· != c)
  { p with options := if on then c :: others else others }

/-- The letters of the options that are on. -/
def letters (p : Process) : String :=
  String.ofList ((optionNames.reverse.map Prod.snd).filter fun c => c.isAlpha && p.options.contains c)

def listOptions (asCommands : Bool) : Act Unit := do
  let p ← process
  if !asCommands then emit "Current option settings\n"
  emit (String.join (optionNames.map fun (name, c) =>
    let on := p.options.contains c
    if asCommands then "set " ++ (if on then "-o " else "+o ") ++ name ++ "\n"
    else name ++ String.ofList (List.replicate (16 - name.length) ' ') ++
      (if on then "on" else "off") ++ "\n"))

/-- Letters of options after a sign. An `o` takes a name from the arguments, which are given back.
At the start of a shell, a `c` says that it is given its script as text. -/
def setLetters (starting on : Bool) (args : List String) : List Char → Act (List String)
  | [] => return args
  | 'o' :: cs => do
    match args with
    | [] =>
      listOptions !on
      setLetters starting on args cs
    | name :: args =>
      match optionNames.lookup name with
      | some c =>
        setOption c on
        setLetters starting on args cs
      | none => fail ((if on then "Illegal option -o " else "Illegal option +o ") ++ name)
  | c :: cs => do
    if (optionNames.any (·.2 == c)) && c.isAlpha || starting && on && c == 'c' then
      setOption c on
      setLetters starting on args cs
    else fail ((if on then "Illegal option -" else "Illegal option +") ++ c.toString)

/-- Options at the start of arguments; what is left of those, and whether they were set apart. -/
def setOptions (starting : Bool) : Nat → List String → Act (List String × Bool)
  | 0, args => return (args, false)
  | _, [] => return ([], false)
  | fuel + 1, arg :: rest => do
    match arg.toList with
    | ['-', '-'] => return (rest, true)
    | ['-'] =>
      if !starting then
        setOption 'x' false
        setOption 'v' false
      return (rest, true)
    | '-' :: cs => setOptions starting fuel (← setLetters starting true rest cs)
    | '+' :: cs => setOptions starting fuel (← setLetters starting false rest cs)
    | _ => return (arg :: rest, false)

def set (args : List String) : Act Nat := do
  if args.isEmpty then
    listing "" (·.value.isSome)
    return 0
  let (left, apart) ← setOptions false (args.length + 1) args
  if apart || !left.isEmpty then
    onProcess fun p => { p with args := left, optionIndex := 1, optionOffset := none }
  return 0

/-! ## Directories -/

/-- A path without the pieces that lead nowhere, from the root on. -/
def normal (path : String) : String :=
  let pieces := (Text.splitAt '/' path.toList).foldl (fun (found : List (List Char)) piece =>
    if piece.isEmpty || piece == ['.'] then found
    else if piece == ['.', '.'] then found.tail
    else piece :: found) []
  let start := if "//".toList.isPrefixOf path.toList && !("///".toList.isPrefixOf path.toList)
    then "//" else "/"
  start ++ String.intercalate "/" (pieces.reverse.map String.ofList)

/-- Goes to a directory. -/
def enter (physical shown : Bool) (target : String) : Act Bool := do
  let p ← process
  let path := if target.toList.head? == some '/' then target
    else if p.directory == "/" then "/" ++ target
    else p.directory ++ "/" ++ target
  let path := if physical then path else normal path
  match (← disk).find p.here ⟨Bytes.toText path⟩ with
  | .ok (here, .directory) =>
    let directory := if physical then Bytes.ofText (Disk.pathOf here).text else path
    onProcess fun p => { p with here, directory }
    onProcess fun q => (q.put "OLDPWD" ⟨some p.directory, true, false⟩).put "PWD"
      ⟨some directory, true, false⟩
    if shown then emit (directory ++ "\n")
    return true
  | _ => return false

def cd (args : List String) : Act Nat := do
  let (flags, rest) ← options ['L', 'P'] [] args
  let physical := (flags.getLast?.map Prod.fst) == some 'P'
  let p ← process
  let (target, shown) := match rest with
    | [] => ((p.value? "HOME").getD "", false)
    | "-" :: _ => ((p.value? "OLDPWD").getD p.directory, true)
    | target :: _ => (target, false)
  let target := if target.isEmpty then "." else target
  let isPlain := match Text.splitAt '/' target.toList with
    | first :: _ => first != [] && first != ['.'] && first != ['.', '.']
    | [] => false
  let others := if isPlain then
      ((p.value? "CDPATH").map fun path => (Program.directories path).filter (· != "")).getD []
    else []
  for dir in others do
    if ← enter physical true (dir ++ "/" ++ target) then return 0
  if ← enter physical shown target then return 0
  fail ("can't cd to " ++ target)

def pwd (args : List String) : Act Nat := do
  let (flags, _) ← options ['L', 'P'] [] args
  let p ← process
  if (flags.getLast?.map Prod.fst) == some 'P' then
    emit (Bytes.ofText (Disk.pathOf p.here).text ++ "\n")
  else emit (p.directory ++ "\n")
  return 0

/-! ## Reading -/

/-- The characters of a line, and whether there was an end to it. Lines that end in a backslash go
on with the next one, unless backslashes stand for themselves. -/
def guardedLine (raw : Bool) : Nat → Act (List Expansion.Guarded × Bool)
  | 0 => return ([], false)
  | fuel + 1 => do
    match ← takeLine 0 with
    | .error _ => return ([], false)
    | .ok line =>
      let line := line.filter (· != '\x00')
      let complete := line.getLast? == some '\n'
      let line := if complete then line.dropLast else line
      if raw then return (line.map fun c => (c, false), complete)
      let rec guards : List Char → List Expansion.Guarded × Bool
        | '\\' :: c :: rest =>
          let (more, continued) := guards rest
          ((c, true) :: more, continued)
        | ['\\'] => ([], true)
        | c :: rest =>
          let (more, continued) := guards rest
          ((c, false) :: more, continued)
        | [] => ([], false)
      let (marks, continued) := guards line
      if continued && complete then
        let (more, complete) ← guardedLine raw fuel
        return (marks ++ more, complete)
      else return (marks, complete)

def read (args : List String) : Act Nat := do
  let (flags, names) ← options ['r'] ['p'] args
  if names.isEmpty then fail "arg count"
  let (line, complete) ← guardedLine (flags.any (·.1 == 'r')) 4096
  let values := Expansion.readValues (← process).separators names.length line
  (names.zip values).forM fun (name, value) => do
    if !isGoodName name then fail (name ++ ": bad variable name")
    setVariable name (String.ofList value)
  return if complete then 0 else 1

/-- Sets a variable, or removes it. -/
def setOrRemove (name : String) (value : Option String) : Act Unit := do
  match value with
  | some v => setVariable name v
  | none => onProcess fun p => { p with bindings := p.bindings.filter (·.1 != name) }

/-- Takes the next option from arguments. -/
def getopts (args : List String) : Act Nat := do
  match args with
  | known :: name :: given =>
    let p ← process
    let words := if given.isEmpty then p.args else given
    let isOver := words.length + 1 < p.optionIndex
    let index := if isOver then 1 else p.optionIndex
    let silent := known.toList.head? == some ':'
    let finish (index : Nat) (offset : Option Nat) (c : String) (status : Nat) : Act Nat := do
      setVariable "OPTIND" (toString index)
      setVariable name c
      onProcess fun p => { p with optionIndex := index, optionOffset := offset }
      return status
    /- The letters that are left of the word before. -/
    let left : List Char :=
      match if isOver || index ≤ 1 then none else p.optionOffset with
      | some n => ((words[index - 2]?).getD "").toList.drop n
      | none => []
    let next : Option (List Char × Nat) :=
      match left, (words[index - 1]?).map String.toList with
      | c :: cs, _ => some (c :: cs, index)
      | [], some ('-' :: c :: cs) => some (c :: cs, index + 1)
      | [], _ => none
    match next with
    | none | some ([], _) => finish index none "?" 1
    | some (['-'], after) =>
      if left.isEmpty then finish after none "?" 1 else finish index none "?" 1
    | some (c :: rest, index) =>
      let offset := ((words[index - 2]?).getD "").length - rest.length
      let found := (known.toList.dropWhile (· == ':')).dropWhile (· != c)
      if c == ':' || found.isEmpty then
        if silent then setOrRemove "OPTARG" (some c.toString)
        else
          complain ("Illegal option -" ++ c.toString)
          setOrRemove "OPTARG" none
        finish index (some offset) "?" 0
      else if found[1]? == some ':' then
        match rest, words[index - 1]? with
        | [], none =>
          if silent then
            setOrRemove "OPTARG" (some c.toString)
            finish index none ":" 0
          else
            complain ("No arg for -" ++ c.toString ++ " option")
            setOrRemove "OPTARG" none
            finish index none "?" 0
        | [], some value =>
          setOrRemove "OPTARG" (some value)
          finish (index + 1) none c.toString 0
        | rest, _ =>
          setOrRemove "OPTARG" (some (String.ofList rest))
          finish index none c.toString 0
      else
        setOrRemove "OPTARG" (some "")
        finish index (some offset) c.toString 0
  | _ => fail "Usage: getopts optstring var [arg...]"

/-! ## Control -/

/-- The status that an argument gives, or the last one. -/
def statusOf (args : List String) : Act Nat := do
  match args with
  | [] => return (← process).status
  | arg :: _ => natural arg

def exit (args : List String) : Act Nat := do
  let n ← statusOf args
  setStatus n
  throw .quit

def leaveFunction (args : List String) : Act Nat := do
  let n ← statusOf args
  onProcess fun p => { p with status := n }
  throw .back

def leave (again : Bool) (args : List String) : Act Nat := do
  let n ← match args with
    | [] => pure 1
    | arg :: _ =>
      let n ← natural arg
      if n = 0 then fail ("Illegal number: " ++ arg)
      pure n
  let loops := (← process).loops
  if loops = 0 then return 0
  onProcess fun p => { p with status := 0 }
  throw (if again then .again (min n loops) else .leave (min n loops))

def trap (args : List String) : Act Nat := do
  let (_, rest) ← options [] [] args
  match rest with
  | [] =>
    let traps := (← process).traps.mergeSort fun a b => a.1 ≤ b.1
    emit (String.join (traps.map fun (n, action) =>
      "trap -- " ++ quoted action ++ " " ++ Signal.name n ++ "\n"))
    return 0
  | first :: others =>
    let (action, words) :=
      if others.isEmpty || first.toList.all Char.isDigit && !first.isEmpty then (none, rest)
      else (if first == "-" then none else some first, others)
    let rec go : List String → Act Nat
      | [] => return 0
      | word :: rest => do
        match Signal.ofWord? word with
        | none =>
          complain ("trap: " ++ word ++ ": bad trap")
          return 1
        | some n =>
          onProcess fun p =>
            let others := p.traps.filter (·.1 != n)
            { p with traps := match action with
              | some a => (n, a) :: others
              | none => others }
          go rest
    go words

def umask (args : List String) : Act Nat := do
  let (flags, rest) ← options ['S'] [] args
  let p ← process
  let digit (n : Nat) : Char := Char.ofNat (48 + n % 8)
  let shown (who : Char) (n : Nat) : String :=
    let allowed := 7 - n % 8
    who.toString ++ "=" ++ (if allowed ≥ 4 then "r" else "") ++
      (if allowed % 4 ≥ 2 then "w" else "") ++ (if allowed % 2 = 1 then "x" else "")
  match rest with
  | [] =>
    if flags.isEmpty then
      emit (String.ofList ['0', digit (p.umask / 64), digit (p.umask / 8), digit p.umask, '\n'])
    else emit (shown 'u' (p.umask / 64) ++ "," ++ shown 'g' (p.umask / 8) ++ "," ++
      shown 'o' p.umask ++ "\n")
    return 0
  | mode :: _ =>
    let isNumber := mode.toList.head?.any Char.isDigit
    let allowed := if isNumber then none
      else Permission.change? false p.umask (0o777 ^^^ p.umask) mode.toList
    match Numeral.natural? 8 mode.toList, allowed with
    | some (n, []), _ =>
      onProcess fun p => { p with umask := n % 512 }
      return 0
    | _, some n =>
      onProcess fun p => { p with umask := 0o777 ^^^ n }
      return 0
    | _, none => fail (if isNumber then "Illegal number: " ++ mode else "Illegal mode: " ++ mode)

/-! ## Names -/

def aliasing (args : List String) : Act Nat := do
  let shown (e : String × String) : String := e.1 ++ "=" ++ quoted e.2 ++ "\n"
  if args.isEmpty then
    emit (String.join ((← process).aliases.map shown))
    return 0
  let rec go : List String → Nat → Act Nat
    | [], status => return status
    | arg :: rest, status => do
      match parted arg with
      | (name, some value) =>
        onProcess fun p =>
          { p with aliases := (name, value) :: p.aliases.filter (·.1 != name) }
        go rest status
      | (name, none) =>
        match (← process).aliases.lookup name with
        | some value =>
          emit (shown (name, value))
          go rest status
        | none =>
          complain ("alias: " ++ name ++ " not found")
          go rest 1
  go args 0

def unalias (args : List String) : Act Nat := do
  let (flags, names) ← options ['a'] [] args
  if !flags.isEmpty then
    onProcess fun p => { p with aliases := [] }
    return 0
  let rec go : List String → Nat → Act Nat
    | [], status => return status
    | name :: rest, status => do
      if (← process).aliases.any (·.1 == name) then
        onProcess fun p => { p with aliases := p.aliases.filter (·.1 != name) }
        go rest status
      else
        complain ("unalias: " ++ name ++ " not found")
        go rest 1
  go names 0

/-- Commands of this kind by name; those that run other commands are kept elsewhere. -/
def names : List String :=
  [".", ":", "[", "alias", "bg", "break", "cd", "chdir", "command", "continue", "echo", "eval",
    "exec", "exit", "export", "false", "fg", "getopts", "hash", "jobs", "kill", "local", "printf",
    "pwd", "read", "readonly", "return", "set", "shift", "test", "times", "trap", "true", "type",
    "ulimit", "umask", "unalias", "unset", "wait"]

/-- Where the shell looks for programs. -/
def searchPath (p : Process) : String := (p.value? "PATH").getD ""

/-- Looks for a program by its name and keeps in mind where it is. -/
def locate (name : String) : Act (Except Errno String) := do
  let p ← process
  match Program.locate (← disk) p.here (searchPath p) name with
  | .ok path =>
    if !name.toList.contains '/' then
      onProcess fun p => { p with known := (name, path) :: p.known.filter (·.1 != name) }
    return .ok path
  | .error e => return .error e

/-- What a name means, in words or as it would be typed. -/
def describe (inWords : Bool) (name : String) : Act Nat := do
  let p ← process
  let say (words plain : String) : Act Nat := do
    emit ((if inWords then name ++ words else plain) ++ "\n")
    return 0
  if Token.keywords.contains name then say " is a shell keyword" name
  else match p.aliases.lookup name with
  | some value =>
    say (" is an alias for " ++ value) ("alias " ++ name ++ "=" ++ quoted value)
  | none =>
    if p.functions.any (·.1 == name) then say " is a shell function" name
    else if special.contains name then say " is a special shell builtin" name
    else if names.contains name then say " is a shell builtin" name
    else
      match p.known.lookup name, ← locate name with
      | some path, _ => say (" is a tracked alias for " ++ path) path
      | none, .ok path => say (" is " ++ path) path
      | none, .error _ =>
        if inWords then emit (name ++ ": not found\n")
        return 127

def type (args : List String) : Act Nat := do
  let rec go : List String → Nat → Act Nat
    | [], status => return status
    | name :: rest, status => do
      let n ← describe true name
      go rest (max n status)
  go args 0

def hash (args : List String) : Act Nat := do
  let (flags, names) ← options ['r', 'v'] [] args
  if flags.any (·.1 == 'r') then
    onProcess fun p => { p with known := [] }
    return 0
  if names.isEmpty then
    emit (String.join ((← process).known.reverse.map fun e => e.2 ++ "\n"))
    return 0
  let rec go : List String → Nat → Act Nat
    | [], status => return status
    | name :: rest, status => do
      let p ← process
      match ← locate name with
      | .ok _ => go rest status
      | .error _ =>
        if Builtin.names.contains name || p.functions.any (·.1 == name) then go rest status
        else
          report (name ++ ": not found")
          go rest 1
  go names 0

/-! ## Signals -/

def killUsage : String :=
  "Usage: kill [-s sigspec | -signum | -sigspec] [pid | job]... or\nkill -l [exitstatus]"

/-- A background job is gone at once; what it would have written later is not written. -/
def stopJob (signal id : Nat) : Act Unit := onMachine fun m =>
  let ended : Finished := ⟨id, 128 + signal, m.clock⟩
  { m with
    tasks := m.tasks.filter (·.process.id != id)
    finished := ended :: m.finished.filter (·.id != id)
    written := m.written.filter fun w => !(w.writer == id && m.clock < w.time) }

/-- Whether a process is there that a signal can reach. -/
def reaches (p : Process) (m : Machine) (id : Nat) : Bool :=
  id == p.id || p.above.contains id || m.tasks.any (·.process.id == id) ||
    m.finished.any fun f => f.id == id && m.clock < f.time

def sendTo (signal : Nat) (word : String) : Act Nat := do
  let s ← get
  let id ← match word.toList with
    | '%' :: cs =>
      let ids := s.process.jobs.reverse
      let index := match Numeral.natural? 10 cs with
        | some (n, []) => n - 1
        | _ => ids.length - 1
      match ids[index]? with
      | some id => pure id
      | none => fail ("No such job: " ++ word)
    | _ => natural word
  if !reaches s.process s.machine id then
    report "No such process\n"
    return 1
  match s.machine.tasks.find? (·.process.id == id) with
  | some t =>
    let isIgnored := t.process.traps.any fun e => e.1 == signal && e.2.isEmpty
    if signal != 0 && !Signal.isHarmless signal && !isIgnored then stopJob signal id
    return 0
  | none =>
    if s.machine.finished.any fun f => f.id == id && s.machine.clock < f.time then
      if signal != 0 && !Signal.isHarmless signal then stopJob signal id
      return 0
    send signal id
    return 0

def kill (args : List String) : Act Nat := do
  let usage : Act Nat := fail killUsage
  let listed (args : List String) : Act Nat := do
    match args with
    | [] =>
      emit ("0\n" ++ String.join (Signal.names.map (· ++ "\n")))
      return 0
    | word :: _ =>
      let n ← natural word
      let n := if n > 128 then n - 128 else n
      if 0 < n && n ≤ Signal.names.length then
        emit (Signal.name n ++ "\n")
        return 0
      else fail ("invalid signal number or exit status: " ++ word)
  let signalOf (word : String) : Act Nat := do
    match Signal.ofWord? word with
    | some n => return n
    | none => fail ("invalid signal number or name: " ++ word)
  let toEach (signal : Nat) (targets : List String) : Act Nat := do
    if targets.isEmpty then
      return ← usage
    let rec go : List String → Nat → Act Nat
      | [], status => return status
      | t :: rest, status => do
        let n ← sendTo signal t
        go rest (max n status)
    go targets 0
  match args with
  | [] => usage
  | arg :: rest =>
    match arg.toList with
    | ['-', '-'] => toEach Signal.terminate rest
    | ['-', 'l'] => listed rest
    | ['-', 's'] =>
      match rest with
      | word :: rest => toEach (← signalOf word) rest
      | [] => fail "No arg for -s option"
    | '-' :: cs =>
      match Signal.ofWord? (String.ofList cs) with
      | some n => toEach n (if rest.head? == some "--" then rest.tail else rest)
      | none =>
        match cs with
        | 's' :: word => toEach (← signalOf (String.ofList word)) rest
        | c :: _ => fail ("Illegal option -" ++ c.toString)
        | [] => usage
    | _ => toEach Signal.terminate args

/-! ## Printing -/

def printf (args : List String) : Act Nat := do
  let (_, args) ← options [] [] args
  match args with
  | [] => fail "usage: printf format [arg ...]"
  | format :: args =>
    let (text, faults, _) := Format.print false format args
    emit (String.ofList text)
    faults.forM fun f => if f.isFinal then fail f.message else report f.message
    return if faults.isEmpty then 0 else 1

def test (bracket : Bool) (args : List String) : Act Nat := do
  if bracket && args.getLast? != some "]" then fail "missing ]"
  let p ← process
  match Condition.holds (Condition.filesOf (← disk) p.here) (if bracket then args.dropLast else args) with
  | .ok found => return if found then 0 else 1
  | .error f => fail f.message

/-- The commands that run no other command. -/
def run? (name : String) (args : List String) : Option (Act Nat) :=
  match name with
  | ":" | "true" => some (return 0)
  | "false" => some (return 1)
  | "[" => some (test true args)
  | "test" => some (test false args)
  | "alias" => some (aliasing args)
  | "unalias" => some (unalias args)
  | "break" => some (leave false args)
  | "continue" => some (leave true args)
  | "cd" | "chdir" => some (cd args)
  | "echo" => some do
    emit (Format.echo args)
    return 0
  | "exit" => some (exit args)
  | "return" => some (leaveFunction args)
  | "export" =>
    some (mark "export" (fun v => { v with exported := true }) Variable.exported args)
  | "readonly" =>
    some (mark "readonly" (fun v => { v with readOnly := true }) Variable.readOnly args)
  | "getopts" => some (getopts args)
  | "hash" => some (hash args)
  | "jobs" | "bg" | "fg" => some (return 0)
  | "kill" => some (kill args)
  | "local" => some (locals args)
  | "printf" => some (printf args)
  | "pwd" => some (pwd args)
  | "read" => some (read args)
  | "set" => some (set args)
  | "shift" => some (shift args)
  | "times" => some do
    emit "0m0.00s 0m0.00s\n0m0.00s 0m0.00s\n"
    return 0
  | "trap" => some (trap args)
  | "type" => some (type args)
  | "ulimit" => some do
    if args.all fun a => a.toList.head? == some '-' then emit "unlimited\n"
    return 0
  | "umask" => some (umask args)
  | "unset" => some (unset args)
  | _ => none

end FirmwareMatrix.Shell.Builtin
