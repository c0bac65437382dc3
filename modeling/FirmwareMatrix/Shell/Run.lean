import FirmwareMatrix.Shell.Builtin
import FirmwareMatrix.Shell.Sum
import FirmwareMatrix.Shell.Utility

/-! Running scripts. Commands that run side by side are carried out one after the other: a command
before a bar runs until it ends or until the pipe takes no more, and if the command after it then
wants more than the pipe holds, both start again with a larger one. Background jobs are carried out
when their shell waits or ends. A script that has not ended after a great number of steps counts as
one that does not end while anybody waits. -/

namespace FirmwareMatrix.Shell

open Act

/-- How a process ended. -/
inductive Ended where
  | exited (status : Nat)
  | killed (signal : Nat)
  deriving DecidableEq, Repr

/-- The status by which others know how a process ended. -/
def Ended.status : Ended → Nat
  | exited n => n % 256
  | killed n => 128 + n

namespace Run

/-- Runs something whose status is asked for. -/
def asked (act : Act Unit) : Act Unit := do
  let guarded := (← process).guarded
  onProcess fun p => { p with guarded := true }
  afterwards act (onProcess fun p => { p with guarded })

/-- Runs something in a copy of the process that `change` makes; what it does to the machine
remains. -/
def inCopy {α : Type} (change : Process → Process) (act : Act α) : Act α := do
  let p ← process
  onProcess change
  afterwards act (onProcess fun _ => p)

/-- A copy of a process as a new one below it. -/
def child (id : Nat) (p : Process) : Process :=
  { p with
    id
    parent := p.id
    above := p.id :: p.above
    traps := p.traps.filter fun e => e.1 != 0 && e.2.isEmpty
    jobs := []
    loops := 0
    lostOutput := none }

/-- A process that becomes another program keeps what it ignores and what it has exported. -/
def becoming (name : String) (args : List String) (p : Process) : Process :=
  { p with
    name, args
    shell := p.id
    bindings := p.bindings.filter fun e => e.2.exported
    saved := []
    functions := []
    aliases := []
    documents := #[]
    options := []
    traps := p.traps.filter fun e => e.1 != 0 && e.2.isEmpty
    status := 0
    captured := 0
    line := 0
    running := none
    guarded := false
    loops := 0
    depth := 0
    jobs := []
    lastJob := none
    optionIndex := 1
    optionOffset := none
    known := []
    lostOutput := none }

/-- Notes why a process ended, where that is worth a line. -/
def noteEnd (e : Ended) : Act Unit := do
  match e with
  | .killed n => if let some reason := Signal.reason? n then complain reason
  | .exited _ => return

/-- A trailing line end does not belong to what a command gives. -/
def dropLineEnds (cs : List Char) : List Char := (cs.reverse.dropWhile (· == '\n')).reverse

/-- The reason for which something could not be opened. -/
def reasonOf (missing : String) (e : Errno) : String :=
  if e = .noEntry || e = .notDirectory then missing else e.text

/-- Descriptors under other names. -/
def standard? (path : String) : Option Nat :=
  [("/dev/stdin", 0), ("/dev/stdout", 1), ("/dev/stderr", 2), ("/dev/fd/0", 0), ("/dev/fd/1", 1),
    ("/dev/fd/2", 2), ("/proc/self/fd/1", 1), ("/proc/self/fd/2", 2)].lookup path

/-- A redirection with its target as a text. What stands in a document is found out when its turn
comes. -/
inductive Ready where
  | file (descriptor : Nat) (opening : Opening) (path : String)
  | share (descriptor other : Nat)
  | close (descriptor : Nat)
  | document (descriptor : Nat) (body : Word)

def Ready.descriptor : Ready → Nat
  | file d _ _ | share d _ | close d | document d _ => d

/-- The descriptors of some redirections lead where they did before. -/
def restore (rs : List Ready) (before : List (Nat × Nat)) : Act Unit :=
  onProcess fun p =>
    let touched := rs.map Ready.descriptor
    { p with descriptors := before.filter (fun e => touched.contains e.1) ++
        p.descriptors.filter fun e => !touched.contains e.1 }

/-- The value of a parameter that is one text. -/
def valueOf? (p : Process) (name : String) : Option String :=
  match name with
  | "#" => some (toString p.args.length)
  | "?" => some (toString p.status)
  | "$" => some (toString p.shell)
  | "!" => p.lastJob.map toString
  | "-" => some (Builtin.letters p)
  | "0" => some p.name
  | name =>
    match Numeral.natural? 10 name.toList with
    | some (n, _) => if n = 0 then some p.name else p.args[n - 1]?
    | none => p.value? name

/-- All arguments as one text, and whether something stands between them. -/
def joinedArguments (p : Process) : String :=
  String.intercalate (String.ofList (p.separators.take 1)) p.args

/-- The pieces of all arguments. -/
def arguments (p : Process) (full inQuotes one : Bool) : List Piece :=
  if full && inQuotes && !one then
    (if p.args.isEmpty then [] else [.quotes]) ++ Expansion.between [.seam true] true p.args
  else if full && !inQuotes then Expansion.between [.seam false] false p.args
  else Expansion.value inQuotes (joinedArguments p).toList

/-- What a tilde at the start of a word means. -/
inductive Tilde where
  | plain
  | word
  | value
  deriving DecidableEq, Repr

/-- Fields divide, and paths take the place of those with wildcards. -/
def finishFields (ps : List Piece) : Act (List String) := do
  let s ← get
  let found := Expansion.fields s.process.separators ps
  if s.process.hasOption 'f' then return found.map Expansion.textOf
  return found.flatMap (Expansion.words s.machine.disk s.process.here)

/-- The functions under way end, and what was kept for them holds again. -/
def restoreSaved : Act Unit := onProcess fun p =>
  match p.saved with
  | [] => p
  | found :: outer =>
    let bindings := found.foldl (fun vs (name, v) =>
      let others := vs.filter fun (e : String × Variable) => e.1 != name
      match v with
      | some v => (name, v) :: others
      | none => others) p.bindings
    { p with bindings, saved := outer }

/-- Sets a variable for one command, which gets to see it. -/
def setBriefly (name value : String) : Act Unit := do
  Builtin.save name
  setVariable name value
  onProcess fun p =>
    match p.found? name with
    | some v => p.put name { v with exported := true }
    | none => p

/-- Writes a line about a command before it runs. -/
def trace (descriptors : List (Nat × Nat)) (assignments : List (String × String))
    (words : List String) : Act Unit := do
  let p ← process
  if p.hasOption 'x' then
    let start := (p.value? "PS4").getD "+ "
    let line := String.intercalate " " (assignments.map (fun (n, v) => n ++ "=" ++ v) ++ words)
    onProcess fun p => { p with descriptors }
    complain (start ++ line)
    onProcess fun q => { q with descriptors := p.descriptors }

/-- How many bytes a pipe takes before its reader has read any. -/
def firstRoom : Nat := 65536

/-- The most that a pipe is widened to. -/
def mostRoom : Nat := 67108864

/-- What a simple command is to run. -/
structure Target where
  words : List String
  /-- Whether functions are left out. -/
  direct : Bool

/-- The words behind `command`, unless it is to say what a name means. -/
def withoutFlags : List String → Option (List String)
  | [] => none
  | word :: rest =>
    match word.toList with
    | ['-', '-'] => if rest.isEmpty then none else some rest
    | '-' :: c :: cs => if (c :: cs).all (· == 'p') then withoutFlags rest else none
    | _ => some (word :: rest)

/-- Takes `command` off the words of a command as often as it stands there. -/
def Target.ofWords (functions : List String) (direct : Bool) : Nat → List String → Target
  | 0, words => ⟨words, direct⟩
  | fuel + 1, words =>
    match words with
    | "command" :: rest =>
      if !direct && functions.contains "command" then ⟨words, direct⟩
      else match withoutFlags rest with
        | some inner => Target.ofWords functions true fuel inner
        | none => ⟨words, direct⟩
    | words => ⟨words, direct⟩

mutual

/-- The pieces of a word. `full` says that fields may come out of it, `splits` that its own text is
divided too. -/
def expand (full splits : Bool) (tilde : Tilde) (first : Bool) : Nat → Word → Act (List Piece)
  | 0, _ => throw .waiting
  | _, [] => return []
  | fuel + 1, part :: rest => do
    match full, part, rest with
    | true, .text [] true, .parameter "@" .none true :: .text [] true :: rest =>
      let start := arguments (← process) true true false
      return start ++ (← expand full splits tilde false fuel rest)
    | _, .text s false, rest =>
      let p ← process
      let start := match tilde with
        | .plain => Expansion.text s false splits
        | .word =>
          if first then Expansion.tilded p rest.isEmpty splits s
          else Expansion.text s false splits
        | .value =>
          if first then Expansion.tildedValue p rest.isEmpty (s.length + 1) s
          else
            let item := s.takeWhile (· != ':')
            Expansion.text item false false ++ match s.drop item.length with
              | [] => []
              | colon :: more => Expansion.text [colon] false false ++
                  Expansion.tildedValue p rest.isEmpty (s.length + 1) more
      return start ++ (← expand full splits tilde false fuel rest)
    | _, part, rest =>
      return (← expandPart full splits fuel part) ++ (← expand full splits tilde false fuel rest)

def expandPart (full splits : Bool) : Nat → Part → Act (List Piece)
  | 0, _ => throw .waiting
  | fuel + 1, part => do
    match part with
    | .text s inQuotes => return Expansion.text s inQuotes splits
    | .parameter name edit inQuotes => expandParameter full name edit inQuotes fuel
    | .sum body inQuotes =>
      let text ← plain .plain fuel body
      let p ← process
      let (result, changes) := Sum.evaluate (valueOf? p) text.toList
      changes.forM fun (name, n) => setVariable name (toString n)
      match result with
      | .ok n => return Expansion.value inQuotes (toString n).toList
      | .error f => fail (f.message text)
    | .output c inQuotes =>
      return Expansion.value inQuotes (← capture fuel c)

/-- What a command writes to its output. -/
def capture : Nat → Command → Act (List Char)
  | 0, _ => throw .waiting
  | fuel + 1, c => do
    let number ← newPipe none
    let entrance ← newChannel (.entrance number)
    let ended ← inChild fuel (fun _ => return) do
      attach 1 entrance
      run true fuel c
    noteEnd ended
    onProcess fun p => { p with captured := ended.status }
    deliver fuel
    return (dropLineEnds ((← pipe number).text)).filter (· != '\x00')

/-- The pieces of a parameter. -/
def expandParameter (full : Bool) (name : String) (edit : Edit) (inQuotes : Bool) :
    Nat → Act (List Piece)
  | 0 => throw .waiting
  | fuel + 1 => do
    let p ← process
    let isAll := name == "@" || name == "*"
    let found := if isAll then some (joinedArguments p) else valueOf? p name
    let current := found.getD ""
    let pieces : List Piece :=
      if isAll then arguments p full inQuotes (name == "*")
      else Expansion.value inQuotes current.toList
    let missing (evenEmpty : Bool) : Bool := found.isNone || (evenEmpty && current.isEmpty)
    let demandSet : Act Unit := do
      if p.hasOption 'u' && found.isNone then fail (name ++ ": parameter not set")
    let word (w : Word) : Act (List Piece) :=
      expand full (!inQuotes) (if inQuotes then .plain else .word) true fuel w
    match edit with
    | .none =>
      demandSet
      return pieces
    | .length =>
      demandSet
      return Expansion.value inQuotes (toString current.length).toList
    | .otherwise evenEmpty w => if missing evenEmpty then word w else return pieces
    | .assign evenEmpty w =>
      if missing evenEmpty then
        if !ScriptText.isGoodName name.toList then fail (name ++ ": bad variable name")
        let value := Expansion.textOf (Expansion.marks (← expand false false .word true fuel w))
        setVariable name value
        return Expansion.value inQuotes value.toList
      else return pieces
    | .demand evenEmpty w =>
      if missing evenEmpty then
        let said ← plain .word fuel w
        let text := if w.isEmpty then
            "parameter not set" ++ (if evenEmpty then " or null" else "")
          else said
        fail (name ++ ": " ++ text)
      else return pieces
    | .instead evenEmpty w => if missing evenEmpty then return [] else word w
    | .cut atEnd longest pattern =>
      demandSet
      let marks := Expansion.marks (← expand false false .word true fuel pattern)
      let cut := if atEnd then Pattern.cutBack else Pattern.cutFront
      return Expansion.value inQuotes (cut longest marks current.toList)
    | .malformed => fail "Bad substitution"

/-- The text of a word that is not divided. -/
def plain (tilde : Tilde) : Nat → Word → Act String
  | 0, _ => throw .waiting
  | fuel + 1, w => do
    return Expansion.textOf (Expansion.marks (← expand false false tilde true fuel w))

/-- The fields of words; `assigns` says that words which look like assignments are kept whole. -/
def fields (assigns : Bool) : Nat → List Word → Act (List String)
  | 0, _ => throw .waiting
  | _, [] => return []
  | fuel + 1, w :: rest => do
    let found ← match if assigns then w.assignment? else none with
      | some (name, value) => pure [name ++ "=" ++ (← plain .value fuel value)]
      | none => finishFields (← expand true false .word true fuel w)
    return found ++ (← fields assigns fuel rest)

/-- The fields of the words of a command; the first one says what the others are taken for. -/
def commandFields : Nat → List Word → Act (List String)
  | 0, _ => throw .waiting
  | _, [] => return []
  | fuel + 1, w :: rest => do
    match ← finishFields (← expand true false .word true fuel w) with
    | [] => commandFields fuel rest
    | name :: more =>
      let p ← process
      let isFunction := p.functions.any (·.1 == name)
      if name == "command" && !isFunction && more.isEmpty then
        return name :: (← commandFields fuel rest)
      let assigns := !isFunction && Builtin.assigning.contains name
      return name :: more ++ (← fields assigns fuel rest)

/-- Redirections with their targets as texts. -/
def prepare : Nat → List Redirection → Act (List Ready)
  | 0, _ => throw .waiting
  | _, [] => return []
  | fuel + 1, r :: rest => do
    let ready ← match r with
      | .file descriptor opening target =>
        pure (.file descriptor opening (← plain .word fuel target))
      | .share descriptor target =>
        match (← plain .word fuel target).toList with
        | ['-'] => pure (.close descriptor)
        | [c] =>
          if c.isDigit then pure (.share descriptor (c.toNat - 48))
          else fail "Syntax error: Bad fd number"
        | _ => fail "Syntax error: Bad fd number"
      | .document descriptor number =>
        let w := ((← process).documents[number]?).getD []
        pure (.document descriptor w)
    return ready :: (← prepare fuel rest)

/-- Carries out a redirection; whether that worked. -/
def redirect : Nat → Ready → Act Bool
  | 0, _ => throw .waiting
  | fuel + 1, r => do
    match r with
    | .file descriptor opening path =>
      let p ← process
      if let some n := (standard? path).bind fun d => p.descriptors.lookup d then
        attach descriptor n
        return true
      match ← openPath p.here path opening (p.hasOption 'C') with
      | .ok n =>
        attach descriptor n
        return true
      | .error e =>
        let text := match opening with
          | .reading => "cannot open " ++ path ++ ": " ++ reasonOf "No such file" e
          | _ => "cannot create " ++ path ++ ": " ++ reasonOf "Directory nonexistent" e
        report text
        return false
    | .share descriptor other =>
      match (← process).descriptors.lookup other with
      | some n =>
        attach descriptor n
        return true
      | none =>
        report (toString other ++ ": Bad file descriptor")
        return false
    | .close descriptor =>
      close descriptor
      return true
    | .document descriptor body =>
      match ← outcome (plain .plain fuel body) with
      | .ok text =>
        attach descriptor (← textChannel text.toList)
        return true
      | .error .fault => return false
      | .error e => throw e

/-- Carries out redirections up to the first that fails. -/
def redirectAll : Nat → List Ready → Act Bool
  | 0, _ => throw .waiting
  | _, [] => return true
  | fuel + 1, r :: rest => do if ← redirect fuel r then redirectAll fuel rest else return false

/-- Lets signals that have been sent arrive. -/
def deliver : Nat → Act Unit
  | 0 => throw .waiting
  | fuel + 1 => do
    let s ← get
    match s.machine.signals.find? (·.1 == s.process.id) with
    | none => return
    | some (id, signal) =>
      onMachine fun m => { m with signals := m.signals.erase (id, signal) }
      if signal = Signal.kill then throw (.killed signal)
      match s.process.traps.lookup signal with
      | some "" => return
      | some action =>
        evalText false fuel action
        onProcess fun p => { p with status := s.process.status }
      | none =>
        if Signal.stops signal then throw .waiting
        if !Signal.isHarmless signal then throw (.killed signal)
      deliver fuel

/-- Runs something as a process of its own. -/
def inChild : Nat → (Nat → Act Unit) → Act Unit → Act Ended
  | 0, _, _ => throw .waiting
  | fuel + 1, started, act => do
    let id ← freshId
    started id
    inCopy (child id) (toEnd fuel act)

/-- Runs a process to its end, with what it has planned for that. -/
def toEnd : Nat → Act Unit → Act Ended
  | 0, _ => throw .waiting
  | fuel + 1, act => do
    let result ← outcome do
      match ← outcome act with
      | .error (.killed n) => throw (.killed n)
      | .error .waiting => throw .waiting
      | .error (.full n) => throw (.full n)
      | .error (.starved n) => throw (.starved n)
      | _ => pure ()
      let p ← process
      if let some action := p.traps.lookup 0 then
        onProcess fun p => { p with
          traps := p.traps.filter (·.1 != 0), running := none, loops := 0, depth := 0 }
        match ← outcome (evalText false fuel action) with
        | .error .quit | .error .fault => pure ()
        | .error e => throw e
        | .ok _ => onProcess fun q => { q with status := p.status }
    match result with
    | .error (.killed n) =>
      runTasks fuel
      return .killed n
    | .error e => throw e
    | .ok _ =>
      runTasks fuel
      return .exited (← process).status

/-- Carries out the background jobs that the process has started. -/
def runTasks : Nat → Act Unit
  | 0 => throw .waiting
  | fuel + 1 => do
    let s ← get
    match s.machine.tasks.find? fun t => t.process.parent == s.process.id with
    | none => return
    | some t =>
      runTask fuel t
      runTasks fuel

/-- Carries out the background jobs of all processes. -/
def runAllTasks : Nat → Act Unit
  | 0 => throw .waiting
  | fuel + 1 => do
    match (← get).machine.tasks with
    | [] => return
    | t :: _ =>
      runTask fuel t
      runAllTasks fuel

def runTask : Nat → Task → Act Unit
  | 0, _ => throw .waiting
  | fuel + 1, t => do
    let id := t.process.id
    let now := (← get).machine.clock
    onMachine fun m => { m with
      tasks := m.tasks.filter (·.process.id != id), clock := t.since }
    let ended ← inCopy (fun _ => t.process) do
      toEnd fuel do
        let rs ← prepare fuel t.redirections
        if ← redirectAll fuel rs then run true fuel t.command else setStatus 2
    onMachine fun m => { m with
      finished := ⟨id, ended.status, m.clock⟩ :: m.finished, clock := now }

/-- Runs the commands of a text one by one; the process ends with the last one if `last` says
so. -/
def evalText (last : Bool) : Nat → String → Act Unit
  | 0, _ => throw .waiting
  | fuel + 1, text => do
    let p ← process
    commands last false fuel (ScriptText.start text.toList p.documents p.aliases)

def commands (last ran : Bool) : Nat → Scan → Act Unit
  | 0, _ => throw .waiting
  | fuel + 1, s => do
    let p ← process
    let s := { s with documents := p.documents, aliases := p.aliases }
    match ScriptText.read s with
    | .finished => if !ran then setStatus 0
    | .blank next => commands last ran fuel next
    | .malformed f documents =>
      onProcess fun p => { p with documents, line := f.line }
      fail ("Syntax error: " ++ f.text)
    | .command c next =>
      onProcess fun p => { p with documents := next.documents }
      if !(p.hasOption 'n') then run (last && ScriptText.isAtEnd next) fuel c
      commands last true fuel next

/-- Runs something with redirections, which end with it. -/
def within (last : Bool) : Nat → List Redirection → Command → Act Unit
  | 0, _, _ => throw .waiting
  | fuel + 1, redirections, c => do
    let before := (← process).descriptors
    let rs ← prepare fuel redirections
    afterwards
      (do if ← redirectAll fuel rs then run last fuel c else setStatus 2)
      (restore rs before)

/-- Runs a function. -/
def call : Nat → Command → List String → Act Unit
  | 0, _, _ => throw .waiting
  | fuel + 1, body, args => do
    let p ← process
    onProcess fun p => { p with
      args, loops := 0, depth := p.depth + 1, optionIndex := 1, optionOffset := none
      saved := [] :: p.saved }
    let result ← outcome (afterwards (run false fuel body) do
      restoreSaved
      onProcess fun q => { q with
        args := p.args, loops := p.loops, depth := p.depth, optionIndex := p.optionIndex
        optionOffset := p.optionOffset })
    match result with
    | .ok _ | .error .back => return
    | .error e => throw e

/-- Runs the program at a path as the process that this one becomes. -/
def becomeProgram : Nat → String → List String → Act Unit
  | 0, _, _ => throw .waiting
  | fuel + 1, path, args => do
    let p ← process
    let name := (args.head?.getD path)
    match Program.atPath (← disk) p.here Program.mostInterpreters path with
    | .ok program =>
      onProcess (becoming name args.tail)
      runProgram fuel program.name (program.before ++ args.tail)
    | .error .badFormat =>
      onProcess (becoming name args.tail)
      runProgram fuel "sh" (path :: args.tail)
    | .error e =>
      report (name ++ ": " ++ reasonOf "not found" e)
      setStatus (if e = .noEntry || e = .notDirectory then 127 else 126)

/-- Runs a program of the system. -/
def runProgram : Nat → String → List String → Act Unit
  | 0, _, _ => throw .waiting
  | fuel + 1, name, args => do
    let finish (n : Nat) : Act Unit := do
      match (← process).lostOutput with
      | none => setStatus n
      | some e =>
        complain (name ++ ": write error: " ++ e.text)
        setStatus 1
    deliver fuel
    match name with
    | "sh" | "dash" | "bash" => shell fuel args
    | "sleep" =>
      runAllTasks fuel
      finish (← Utility.Running.sleep args)
    | name =>
      match Utility.run? (fun change words => spawn change fuel words) name args with
      | some act => finish (← act)
      | none => setStatus 127
    deliver fuel

/-- Runs another program for one that wants it, and gives back its status. -/
def spawn (change : Process → Process) : Nat → List String → Act (Except Errno Nat)
  | 0, _ => throw .waiting
  | fuel + 1, words => do
    let p ← process
    let name := words.head?.getD ""
    let path := ((change p).value? "PATH").getD Program.usualPath
    match Program.locate (← disk) (change p).here path name with
    | .error e => return .error e
    | .ok path =>
      let ended ← inChild fuel (fun _ => return) do
        onProcess change
        becomeProgram fuel path words
      return .ok ended.status

/-- Runs a shell from its arguments. -/
def shell : Nat → List String → Act Unit
  | 0, _ => throw .waiting
  | fuel + 1, args => do
    let p ← process
    onProcess fun p => { p with name := "sh", line := 0 }
    let setUp (p : Process) : Process :=
      let p := p.put "IFS" ⟨some " \t\n", false, false⟩
      let p := p.put "OPTIND" ⟨some "1", false, false⟩
      let p := p.put "PPID" ⟨some (toString p.parent), false, false⟩
      let p := p.put "PS4" ⟨some "+ ", false, false⟩
      let p := if (p.found? "PATH").isNone then
        p.put "PATH" ⟨some Program.usualPath, false, false⟩ else p
      p.put "PWD" ⟨some p.directory, true, false⟩
    onProcess setUp
    let (left, _) ← Builtin.setOptions true (args.length + 1) args
    let fromText := (← process).hasOption 'c'
    let fromInput := (← process).hasOption 's'
    let rename (name : String) (args : List String) : Act Unit :=
      onProcess fun p => { p with name, args }
    if fromText then
      match left with
      | [] => fail "-c requires an argument"
      | text :: rest =>
        rename (rest.head?.getD p.name) rest.tail
        evalText true fuel text
    else
      match if fromInput then [] else left with
      | file :: rest =>
        let path := file
        match ← openPath p.here path .reading false with
        | .ok n =>
          attach 10 n
          let text ← takeAll 10
          close 10
          rename file rest
          match text with
          | .ok text => evalText false fuel (String.ofList text)
          | .error _ => setStatus 2
        | .error e =>
          fail ("cannot open " ++ file ++ ": " ++ reasonOf "No such file" e)
      | [] =>
        rename p.name left
        Builtin.setOption 's' true
        match ← takeAll 0 with
        | .ok text => evalText false fuel (String.ofList text)
        | .error _ => setStatus 0

/-- Runs a program that is looked for by name; the process becomes that program if it is the last
thing that it does. -/
def launch (last : Bool) : Nat → List String → Act Unit
  | 0, _ => throw .waiting
  | fuel + 1, words => do
    let p ← process
    let name := words.head?.getD ""
    match ← Builtin.locate name with
    | .error e =>
      report (name ++ ": " ++ reasonOf "not found" e)
      setStatus (if e = .noEntry || e = .notDirectory then 127 else 126)
    | .ok path =>
      if last && p.traps.isEmpty then
        becomeProgram fuel path words
        throw .quit
      else
        let ended ← inChild fuel (fun _ => return) (becomeProgram fuel path words)
        noteEnd ended
        onProcess fun p => { p with status := ended.status }

/-- Runs a command of the shell itself; whether it was a special one decides what a fault in it
does. -/
def builtin (isSpecial : Bool) : Nat → String → Act Unit → Act Unit
  | 0, _, _ => throw .waiting
  | _ + 1, name, act => do
    let p ← process
    onProcess fun p => { p with running := some name, lostOutput := none }
    let settle : Act Unit := do
      if (← process).lostOutput.isSome then
        report (name ++ ": I/O error")
        onProcess fun p => { p with status := p.status ||| 1 }
      onProcess fun q => { q with running := p.running, lostOutput := p.lostOutput }
    match ← outcome (afterwards act settle) with
    | .ok _ => return
    | .error .fault => if isSpecial then throw .fault
    | .error e => throw e

/-- Runs the words of a simple command. -/
def perform (last direct isSpecial : Bool) : Nat → List String → Act Unit
  | 0, _ => throw .waiting
  | _, [] => setStatus 0
  | fuel + 1, name :: args => do
    let p ← process
    match if direct then none else p.functions.lookup name with
    | some body => call fuel body args
    | none =>
      let special (act : Act Unit) : Act Unit := builtin isSpecial fuel name act
      match Builtin.run? name args with
      | some act => special do
        let n ← act
        onProcess fun p => { p with status := n }
      | none =>
        match name with
        | "eval" => special do
          if args.all String.isEmpty then setStatus 0
          else evalText false fuel (String.intercalate " " args)
        | "." => special (readIn fuel args)
        | "command" => special do
          let (flags, rest) ← Builtin.options ['p', 'v', 'V'] [] args
          match rest with
          | [] => setStatus 0
          | name :: _ =>
            let n ← Builtin.describe (flags.any (·.1 == 'V')) name
            onProcess fun p => { p with status := n }
        | "exec" => special do
          match args with
          | [] => setStatus 0
          | args =>
            let p ← process
            match Program.locate (← disk) p.here (Builtin.searchPath p) (args.head?.getD "") with
            | .ok path =>
              becomeProgram fuel path args
            | .error e =>
              report ((args.head?.getD "") ++ ": " ++ reasonOf "not found" e)
              setStatus (if e = .noEntry || e = .notDirectory then 127 else 126)
            throw .quit
        | "wait" => special (wait fuel args)
        | _ => launch last fuel (name :: args)

/-- Runs the commands of a file in this shell. A name without a separator is looked for as a
program is, but need not be one. -/
def readIn : Nat → List String → Act Unit
  | 0, _ => throw .waiting
  | fuel + 1, args => do
    let (_, args) ← Builtin.options [] [] args
    match args with
    | [] => setStatus 0
    | name :: _ =>
      let p ← process
      let d ← disk
      let isPath := name.toList.contains '/'
      let candidates := if isPath then [name]
        else (Program.directories (Builtin.searchPath p)).map fun dir =>
          if dir.isEmpty then name else dir ++ "/" ++ name
      match candidates.find? fun path => isPath || d.isFile p.here ⟨Bytes.toText path⟩ with
      | none => fail (name ++ ": not found")
      | some path =>
        match d.readBytes p.here ⟨Bytes.toText path⟩ with
        | .error e => fail ("cannot open " ++ path ++ ": " ++ reasonOf "No such file" e)
        | .ok bytes =>
          onProcess fun p => { p with running := some path, status := 0 }
          match ← outcome (evalText false fuel (String.ofList (Bytes.ofList bytes))) with
          | .ok _ | .error .back => return
          | .error e => throw e

/-- Waits for background jobs. -/
def wait : Nat → List String → Act Unit
  | 0, _ => throw .waiting
  | fuel + 1, args => do
    let reach (f : Finished) : Act Unit :=
      onMachine fun m => { m with clock := max m.clock f.time }
    match args with
    | [] =>
      runTasks fuel
      let s ← get
      (s.machine.finished.filter fun f => s.process.jobs.contains f.id).forM reach
      setStatus 0
    | args =>
      let waitFor (word : String) : Act Unit := do
        let p ← process
        let id ← match word.toList with
          | '%' :: cs =>
            let ids := p.jobs.reverse
            let index := match Numeral.natural? 10 cs with
              | some (n, []) => n - 1
              | _ => ids.length - 1
            match ids[index]? with
            | some id => pure id
            | none => fail ("No such job: " ++ word)
          | _ => Builtin.natural word
        if !p.jobs.contains id then onProcess fun p => { p with status := 127 }
        else
          runTasks fuel
          match (← get).machine.finished.find? (·.id == id) with
          | some f =>
            reach f
            if f.status > 128 then noteEnd (.killed (f.status - 128))
            onProcess fun p => { p with status := f.status }
          | none => onProcess fun p => { p with status := 127 }
      args.forM waitFor

/-- Assigns values in order. -/
def assignAll (briefly : Bool) : Nat → List (String × Word) → Act (List (String × String))
  | 0, _ => throw .waiting
  | _, [] => return []
  | fuel + 1, (name, w) :: rest => do
    let value ← plain .value fuel w
    if briefly then setBriefly name value else setVariable name value
    return (name, value) :: (← assignAll briefly fuel rest)

/-- Runs a simple command: words, then redirections, then assignments, then the command itself. One
that consists of assignments alone has the status of what was captured for them. -/
def simple (last : Bool) : Nat → List (String × Word) → List Word → List Redirection → Act Unit
  | 0, _, _, _ => throw .waiting
  | fuel + 1, assignments, words, redirections => do
    onProcess fun p => { p with captured := 0 }
    let found ← commandFields fuel words
    let p ← process
    let functions := p.functions.map Prod.fst
    let isFunction := found.head?.any functions.contains
    let isSpecial := !isFunction && found.head?.any Builtin.special.contains
    let target := Target.ofWords functions false found.length found
    let rs ← prepare fuel redirections
    let remains := target.words.head? == some "exec" && (target.direct || !isFunction)
    let act : Act Unit := do
      let values ← assignAll (!found.isEmpty && !isSpecial) fuel assignments
      if !(values.isEmpty && found.isEmpty) then trace p.descriptors values found
      if found.isEmpty then onProcess fun p => { p with status := p.captured }
      else perform last target.direct isSpecial fuel target.words
    let briefly : Act Unit :=
      if found.isEmpty || isSpecial then act
      else do
        onProcess fun p => { p with saved := [] :: p.saved }
        afterwards act restoreSaved
    afterwards
      (do
        if ← redirectAll fuel rs then briefly
        else
          setStatus 2
          if isSpecial then throw .fault)
      (if remains then pure () else restore rs p.descriptors)

/-- Runs the body of a loop once. The result says whether the loop goes on. -/
def round : Nat → Command → Act Bool
  | 0, _ => throw .waiting
  | fuel + 1, body => do
    match ← outcome (run false fuel body) with
    | .ok _ => return true
    | .error (.again n) => if n ≤ 1 then return true else throw (.again (n - 1))
    | .error (.leave n) => if n ≤ 1 then return false else throw (.leave (n - 1))
    | .error e => throw e

/-- Runs a loop as long as its condition has the wanted outcome. -/
def rounds (wanted : Bool) (condition body : Command) (status : Nat) : Nat → Act Unit
  | 0 => throw .waiting
  | fuel + 1 => do
    match ← outcome (asked (run false fuel condition)) with
    | .error (.again n) =>
      if n ≤ 1 then rounds wanted condition body status fuel else throw (.again (n - 1))
    | .error (.leave n) => if n ≤ 1 then return else throw (.leave (n - 1))
    | .error e => throw e
    | .ok _ =>
      if ((← process).status == 0) != wanted then onProcess fun p => { p with status }
      else if ← round fuel body then
        rounds wanted condition body (← process).status fuel

/-- The name in the loop takes each value in turn. -/
def forValues (name : String) (body : Command) : Nat → List String → Act Unit
  | 0, _ => throw .waiting
  | _, [] => return
  | fuel + 1, v :: vs => do
    setVariable name v
    if ← round fuel body then forValues name body fuel vs

/-- Runs the first case with a pattern that the text matches. -/
def firstCase (last : Bool) (text : List Char) :
    Nat → List (List Word × Command) → Act Unit
  | 0, _ => throw .waiting
  | _, [] => setStatus 0
  | fuel + 1, (patterns, body) :: rest => do
    if ← anyMatches text fuel patterns then
      match body with
      | .nothing => setStatus 0
      | body => run last fuel body
    else firstCase last text fuel rest

def anyMatches (text : List Char) : Nat → List Word → Act Bool
  | 0, _ => throw .waiting
  | _, [] => return false
  | fuel + 1, p :: rest => do
    let marks := Expansion.marks (← expand false false .word true fuel p)
    if Pattern.matchesText marks text then return true else anyMatches text fuel rest

/-- Runs the commands of a pipeline. `input` is the pipe that the first one reads, if it reads
one. -/
def stages (room : Nat) (input : Option Nat) : Nat → List Command → Act Unit
  | 0, _ => throw .waiting
  | _, [] => return
  | fuel + 1, c :: rest => do
    let fromPipe : Act Unit := do
      if let some n := input then attach 0 (← newChannel (.outlet n))
    match rest with
    | [] =>
      let ended ← inChild fuel (fun _ => return) do
        fromPipe
        run true fuel c
      noteEnd ended
      onProcess fun p => { p with status := ended.status }
    | rest =>
      let number ← newPipe (some room)
      let entrance ← newChannel (.entrance number)
      let now := (← get).machine.clock
      let result ← outcome (inChild fuel (fun _ => return) do
        fromPipe
        attach 1 entrance
        run true fuel c)
      match result with
      | .ok ended => noteEnd ended
      | .error (.full n) => if n = number then pure () else throw (.full n)
      | .error e => throw e
      let after := (← get).machine.clock
      onMachine fun m => { m with clock := now }
      stages room (some number) fuel rest
      onMachine fun m => { m with clock := max m.clock after }

/-- Runs a pipeline, again with wider pipes if one of its commands wants more than a pipe held. -/
def pipeline (room : Nat) : Nat → List Command → Act Unit
  | 0, _ => throw .waiting
  | fuel + 1, cs => do
    let before ← get
    match ← outcome (stages room none fuel cs) with
    | .ok _ => return
    | .error (.starved n) =>
      if n < before.machine.pipes.size then throw (.starved n)
      if mostRoom < room then throw .waiting
      set before
      pipeline (room * 16) fuel cs
    | .error e => throw e

/-- Runs a command. If it is the last one of its process, that may become what the command runs. -/
def run (last : Bool) : Nat → Command → Act Unit
  | 0, _ => throw .waiting
  | fuel + 1, c => do
    deliver fuel
    if (← process).hasOption 'n' then return
    let onLine (line : Nat) : Act Unit := onProcess fun p => { p with line }
    let succeeded : Act Bool := return (← process).status == 0
    /- Whether a failure of the command ends a strict shell. -/
    let counts : Bool := match c with
      | .simple _ _ _ _ | .subshell _ _ _ | .background _ _ _ | .piped _ => true
      | _ => false
    match c with
    | .nothing => pure ()
    | .simple line assignments words redirections =>
      onLine line
      simple last fuel assignments words redirections
    | .sequence a b =>
      run false fuel a
      run last fuel b
    | .both a b =>
      asked (run false fuel a)
      if ← succeeded then run last fuel b
    | .either a b =>
      asked (run false fuel a)
      if !(← succeeded) then run last fuel b
    | .negated a =>
      asked (run false fuel a)
      let ok ← succeeded
      setStatus (if ok then 1 else 0)
    | .piped cs => pipeline firstRoom fuel cs
    | .subshell line body redirections =>
      onLine line
      let act : Act Unit := do
        let rs ← prepare fuel redirections
        if ← redirectAll fuel rs then run true fuel body
        else
          setStatus 2
          throw .quit
      if last && (← process).traps.isEmpty then act
      else
        let ended ← inChild fuel (fun _ => return) act
        noteEnd ended
        onProcess fun p => { p with status := ended.status }
    | .background line body redirections =>
      onLine line
      let s ← get
      let id ← freshId
      let nothing ← newChannel (.device .null)
      let copy := child id s.process
      let descriptors := (0, nothing) :: copy.descriptors.filter (·.1 != 0)
      let task : Task :=
        ⟨{ copy with descriptors, guarded := false }, s.machine.clock, body, redirections⟩
      onMachine fun m => { m with tasks := m.tasks ++ [task] }
      onProcess fun p => { p with jobs := id :: p.jobs, lastJob := some id, status := 0 }
    | .branch condition yes no =>
      asked (run false fuel condition)
      if ← succeeded then run last fuel yes
      else
        match no with
        | some c => run last fuel c
        | none => setStatus 0
    | .loop wanted condition body =>
      let loops := (← process).loops
      onProcess fun p => { p with loops := loops + 1 }
      afterwards (rounds wanted condition body 0 fuel) (onProcess fun p => { p with loops })
    | .each line name items body =>
      onLine line
      let values ← fields false fuel items
      let loops := (← process).loops
      if values.isEmpty then setStatus 0
      onProcess fun p => { p with loops := loops + 1 }
      afterwards (forValues name body fuel values) (onProcess fun p => { p with loops })
    | .choose line word cases =>
      onLine line
      let text ← plain .word fuel word
      firstCase last text.toList fuel cases
    | .redirected line body redirections =>
      onLine line
      within false fuel redirections body
    | .define line name body =>
      onLine line
      onProcess fun p => { p with
        functions := (name, body) :: p.functions.filter (·.1 != name), status := 0 }
    deliver fuel
    let p ← process
    if counts && p.hasOption 'e' && !p.guarded && p.status != 0 then throw .quit
    if last then throw .quit

end

end Run

end FirmwareMatrix.Shell
