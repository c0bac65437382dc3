import FirmwareMatrix.Disk
import FirmwareMatrix.Shell.Script
import FirmwareMatrix.Shell.Bytes
import FirmwareMatrix.Shell.Numeral

/-! Processes on a machine with one disk and one clock. A descriptor of a process leads to a
channel, which processes may share, and with it the place that they have reached in a file. What
reaches the output and the error stream of the first process is kept with the time at which it was
written, so that processes side by side can be carried out one after the other. -/

namespace FirmwareMatrix.Shell

/-- What may be done through a channel to a file. -/
structure Access where
  reads : Bool
  writes : Bool
  appends : Bool
  deriving DecidableEq, Repr

/-- What an open descriptor leads to. -/
inductive Channel where
  /-- The output of the first process. -/
  | output
  /-- The error stream of the first process. -/
  | errors
  | device (d : Disk.Device)
  | directory
  | file (place : Disk.Place) (offset : Nat) (access : Access)
  /-- The end of a pipe at which it is written. -/
  | entrance (pipe : Nat)
  /-- The end of a pipe at which it is read. -/
  | outlet (pipe : Nat)
  deriving Repr

/-- A pipe holds what has been written and not yet read. -/
structure Pipe where
  unread : List Char
  /-- What has been written since, the latest first. -/
  fresh : List (List Char)
  /-- How much may still be written, if there is a limit. -/
  room : Option Nat
  /-- Whether the writer had to stop before its end. -/
  isCut : Bool

/-- All that a pipe holds. -/
def Pipe.text (p : Pipe) : List Char := p.unread ++ p.fresh.reverse.flatten

/-- Something that the first process or one below it wrote. -/
structure Written where
  time : Nat
  toErrors : Bool
  writer : Nat
  text : List Char

/-- How a process or a part of its script ends before its last command has been reached. -/
inductive Stop where
  /-- Out of so many loops. -/
  | leave (loops : Nat)
  /-- On with the next round of the so-manieth loop around. -/
  | again (loops : Nat)
  /-- Out of a function, or of a script that is read in. -/
  | back
  /-- The process ends with the status it has. -/
  | quit
  /-- A fault of the shell itself; it ends the process unless the command at fault is one that
  may fail. -/
  | fault
  | killed (signal : Nat)
  /-- Nothing more happens while anybody waits. -/
  | waiting
  /-- A pipe takes no more. -/
  | full (pipe : Nat)
  /-- A pipe has been read to where its writer had to stop. -/
  | starved (pipe : Nat)
  deriving DecidableEq, Repr

structure Variable where
  value : Option String
  exported : Bool
  readOnly : Bool

structure Process where
  id : Nat
  /-- The shell that this process is a copy of. -/
  shell : Nat
  parent : Nat
  /-- All processes that wait for this one. -/
  above : List Nat
  here : Disk.Place
  /-- The working directory as it was reached, links included. -/
  directory : String
  umask : Nat
  name : String
  args : List String
  bindings : List (String × Variable)
  /-- What the variables of the functions under way held before; the innermost is first. -/
  saved : List (List (String × Option Variable))
  functions : List (String × Command)
  aliases : List (String × String)
  documents : Array Word
  options : List Char
  /-- Where open descriptors lead, by the number of the channel. -/
  descriptors : List (Nat × Nat)
  /-- What signals lead to; zero stands for the end of the process. -/
  traps : List (Nat × String)
  status : Nat
  /-- The status of the last command whose output was captured for a word. -/
  captured : Nat
  line : Nat
  /-- The command of the shell itself that runs, which faults name. -/
  running : Option String
  /-- Whether the status of the command that runs is asked for. -/
  guarded : Bool
  /-- How many loops are under way, and how many functions. -/
  loops : Nat
  depth : Nat
  /-- The background jobs that it has started, the latest first. -/
  jobs : List Nat
  lastJob : Option Nat
  /-- The argument from which the next option is taken, and how far into the one before it options
  have been taken, if that one is not done. -/
  optionIndex : Nat
  optionOffset : Option Nat
  /-- Where programs have been found. -/
  known : List (String × String)
  /-- Why something could not be written to the output. -/
  lostOutput : Option Errno

/-- A background job that has not been carried out. -/
structure Task where
  process : Process
  since : Nat
  command : Command
  redirections : List Redirection

/-- How a background job ended, and when. -/
structure Finished where
  id : Nat
  status : Nat
  time : Nat

/-- What all processes share. -/
structure Machine where
  disk : Disk
  channels : Array Channel
  pipes : Array Pipe
  /-- The latest first. -/
  written : List Written
  /-- Microseconds since the first process started. -/
  clock : Nat
  /-- Signals that have been sent and not yet arrived. -/
  signals : List (Nat × Nat)
  lastId : Nat
  tasks : List Task
  finished : List Finished
  /-- Whether the program that started the first process has been told to stop. -/
  interrupted : Bool

structure State where
  machine : Machine
  process : Process

abbrev Act := EStateM Stop State

namespace Act

/-- Runs something and then something else, however the first ended. -/
def afterwards {α : Type} (act : Act α) (after : Act Unit) : Act α := fun s =>
  match act s with
  | .ok a s =>
    match after s with
    | .ok _ s => .ok a s
    | .error e s => .error e s
  | .error e s =>
    match after s with
    | .ok _ s => .error e s
    | .error e s => .error e s

/-- Runs something and gives back how it ended. -/
def outcome {α : Type} (act : Act α) : Act (Except Stop α) := fun s =>
  match act s with
  | .ok a s => .ok (.ok a) s
  | .error e s => .ok (.error e) s

def process : Act Process := return (← get).process

def disk : Act Disk := return (← get).machine.disk

def onProcess (f : Process → Process) : Act Unit := modify fun s => { s with process := f s.process }

def onMachine (f : Machine → Machine) : Act Unit := modify fun s => { s with machine := f s.machine }

def setStatus (n : Nat) : Act Unit := onProcess fun p => { p with status := n % 256 }

/-- A change of the disk by the running process. -/
def onDisk {α : Type} (m : StateM Disk α) : Act α := fun s =>
  let (a, disk) := m s.machine.disk
  .ok a { s with machine := { s.machine with disk } }

def freshId : Act Nat := do
  let id := (← get).machine.lastId + 1
  onMachine fun m => { m with lastId := id }
  return id

/-! ## Channels -/

def newChannel (c : Channel) : Act Nat := do
  let n := (← get).machine.channels.size
  onMachine fun m => { m with channels := m.channels.push c }
  return n

def channel? (descriptor : Nat) : Act (Option (Nat × Channel)) := do
  let s ← get
  return do
    let n ← s.process.descriptors.lookup descriptor
    return (n, ← s.machine.channels[n]?)

def setChannel (n : Nat) (c : Channel) : Act Unit :=
  onMachine fun m => { m with channels := m.channels.setIfInBounds n c }

/-- Lets a descriptor lead to a channel. -/
def attach (descriptor n : Nat) : Act Unit := onProcess fun p =>
  { p with descriptors := (descriptor, n) :: p.descriptors.filter (·.1 != descriptor) }

def close (descriptor : Nat) : Act Unit := onProcess fun p =>
  { p with descriptors := p.descriptors.filter (·.1 != descriptor) }

/-- A new pipe; how much may be written to it may be limited. -/
def newPipe (room : Option Nat) : Act Nat := do
  let n := (← get).machine.pipes.size
  onMachine fun m => { m with pipes := m.pipes.push ⟨[], [], room, false⟩ }
  return n

def pipe (n : Nat) : Act Pipe := return ((← get).machine.pipes[n]?).getD ⟨[], [], none, false⟩

def setPipe (n : Nat) (p : Pipe) : Act Unit :=
  onMachine fun m => { m with pipes := m.pipes.setIfInBounds n p }

/-- A channel from which a text can be read. -/
def textChannel (text : List Char) : Act Nat := do
  let n ← newPipe none
  setPipe n ⟨text, [], none, false⟩
  newChannel (.outlet n)

/-! ## Writing -/

/-- The bytes of a file with some of them written over. -/
def patched (bytes : List UInt8) (offset : Nat) (new : List UInt8) : List UInt8 :=
  let before := bytes.take offset
  before ++ List.replicate (offset - before.length) 0 ++ new ++ bytes.drop (offset + new.length)

def writeFile (place : Disk.Place) (offset : Nat) (access : Access) (text : List Char) :
    Act Nat := do
  let d ← disk
  match d.lookup place with
  | some (.file bytes executable) =>
    let new := Bytes.toList text
    let offset := if access.appends then bytes.length else offset
    let changed := if offset == bytes.length then bytes ++ new else patched bytes offset new
    onMachine fun m => { m with disk := d.insert place (.file changed executable) }
    return offset + new.length
  | _ => return offset

/-- Writes to a pipe; a writer that finds no room is stopped there. -/
def writePipe (n : Nat) (text : List Char) : Act Unit := do
  let p ← pipe n
  match p.room with
  | none => setPipe n { p with fresh := text :: p.fresh }
  | some room =>
    let length := text.length
    if length ≤ room then
      setPipe n { p with fresh := text :: p.fresh, room := some (room - length) }
    else
      setPipe n { p with fresh := text.take room :: p.fresh, room := some 0, isCut := true }
      throw (.full n)

/-- Writes through a descriptor. -/
def write (descriptor : Nat) (text : List Char) : Act (Except Errno Unit) := do
  match ← channel? descriptor with
  | none => return .error .badDescriptor
  | some (n, c) =>
    let note (toErrors : Bool) : Act (Except Errno Unit) := do
      let s ← get
      let w : Written := ⟨s.machine.clock, toErrors, s.process.id, text⟩
      onMachine fun m => { m with written := w :: m.written }
      return .ok ()
    if text.isEmpty then return .ok ()
    match c with
    | .output => note false
    | .errors => note true
    | .device .full => return .error .noSpace
    | .device _ => return .ok ()
    | .directory => return .error .badDescriptor
    | .file place offset access =>
      if access.writes then
        setChannel n (.file place (← writeFile place offset access text) access)
        return .ok ()
      else return .error .badDescriptor
    | .entrance pipe =>
      writePipe pipe text
      return .ok ()
    | .outlet _ => return .error .badDescriptor

/-- Writes to the output; that it failed is kept in mind. -/
def emit (text : String) : Act Unit := do
  match ← write 1 text.toList with
  | .ok _ => return
  | .error e => onProcess fun p => { p with lostOutput := some e }

def complain (text : String) : Act Unit := do
  let _ ← write 2 (text ++ "\n").toList

/-! ## Reading -/

/-- Takes all that can be read at once: some of it, unless nothing is left. -/
def takeSome (descriptor : Nat) : Act (Except Errno (List Char)) := do
  match ← channel? descriptor with
  | none => return .error .badDescriptor
  | some (n, c) =>
    match c with
    | .outlet i =>
      let p ← pipe i
      let text := p.text
      if text.isEmpty && p.isCut then throw (.starved i)
      setPipe i { p with unread := [], fresh := [] }
      return .ok text
    | .file place offset access =>
      if access.reads then
        match (← disk).lookup place with
        | some (.file bytes _) =>
          setChannel n (.file place (max offset bytes.length) access)
          return .ok (Bytes.ofList (bytes.drop offset))
        | _ => return .ok []
      else return .error .badDescriptor
    | .device .zero | .device .full => return .ok (List.replicate 4096 '\x00')
    | .device .null | .output | .errors => return .ok []
    | .directory => return .error .isDirectory
    | .entrance _ => return .error .badDescriptor

/-- Gives back the end of what has been taken from a descriptor. -/
def giveBack (descriptor : Nat) (text : List Char) : Act Unit := do
  match ← channel? descriptor with
  | some (_, .outlet i) =>
    let p ← pipe i
    setPipe i { p with unread := text ++ p.unread }
  | some (n, .file place offset access) =>
    setChannel n (.file place (offset - text.length) access)
  | _ => return

/-- Takes text until there is enough of it or no more. -/
def takeUntil (descriptor : Nat) (enough : List Char → Bool) :
    Nat → List Char → Act (Except Errno (List Char))
  | 0, taken => return .ok taken
  | fuel + 1, taken => do
    match ← takeSome descriptor with
    | .error e => return .error e
    | .ok [] => return .ok taken
    | .ok text =>
      let taken := taken ++ text
      if enough taken then return .ok taken else takeUntil descriptor enough fuel taken

/-- How often text is taken at most; a channel that has no end is never read to it. -/
def mostTakes : Nat := 4096

def takeAll (descriptor : Nat) : Act (Except Errno (List Char)) :=
  takeUntil descriptor (fun _ => false) mostTakes []

/-- Takes a line with its end, if it has one. Nothing behind it is taken. -/
def takeLine (descriptor : Nat) : Act (Except Errno (List Char)) := do
  match ← takeUntil descriptor (·.contains '\n') mostTakes [] with
  | .error e => return .error e
  | .ok text =>
    let line := text.takeWhile (· != '\n')
    let line := line ++ (text.drop line.length).take 1
    giveBack descriptor (text.drop line.length)
    return .ok line

/-! ## Opening -/

/-- What has to be held against opening a path. -/
def openPath (here : Disk.Place) (path : String) (opening : Opening) (protect : Bool) :
    Act (Except Errno Nat) := do
  let d ← disk
  let p : Path := ⟨Bytes.toText path⟩
  let found := d.find here p
  let ofEntry (place : Disk.Place) (access : Access) : Disk.Entry → Act (Except Errno Nat)
    | .directory => do
      if access.writes then return .error .isDirectory
      return .ok (← newChannel .directory)
    | .device dev => do return .ok (← newChannel (.device dev))
    | .file _ _ => do return .ok (← newChannel (.file place 0 access))
    | .program _ | .link _ => do return .ok (← newChannel (.device .null))
  let created (access : Access) (empties : Bool) : Act (Except Errno Nat) := do
    match found with
    | .ok (place, .file bytes executable) =>
      if empties then
        onMachine fun m => { m with disk := m.disk.insert place (.file [] executable) }
      ofEntry place access (.file bytes executable)
    | .ok (place, e) => ofEntry place access e
    | .error .noEntry =>
      match ← onDisk (Disk.createFile here p) with
      | .ok place => return .ok (← newChannel (.file place 0 access))
      | .error e => return .error e
    | .error e => return .error e
  let isSpecial := match found with
    | .ok (_, .device _) => true
    | _ => false
  match opening with
  | .reading =>
    match found with
    | .ok (place, e) => ofEntry place ⟨true, false, false⟩ e
    | .error e => return .error e
  | .writing =>
    if protect && !isSpecial && (match found with | .ok _ => true | .error _ => false) then
      return .error .exists
    created ⟨false, true, false⟩ true
  | .overwriting => created ⟨false, true, false⟩ true
  | .appending => created ⟨false, true, true⟩ false
  | .both => created ⟨true, true, false⟩ false

end Act

/-! ## Variables -/

namespace Process

def found? (p : Process) (name : String) : Option Variable := p.bindings.lookup name

/-- The value of a variable. -/
def value? (p : Process) (name : String) : Option String :=
  (p.found? name).bind Variable.value

def isReadOnly (p : Process) (name : String) : Bool := (p.found? name).any Variable.readOnly

def hasOption (p : Process) (c : Char) : Bool := p.options.contains c

def put (p : Process) (name : String) (v : Variable) : Process :=
  { p with bindings := (name, v) :: p.bindings.filter (·.1 != name) }

/-- Gives a variable a value; it stays exported if it was. -/
def assign (p : Process) (name value : String) : Process :=
  let exported := (p.found? name).any Variable.exported || p.hasOption 'a'
  let p := p.put name ⟨some value, exported, false⟩
  match name with
  | "OPTIND" =>
    let index := ((Numeral.whole? false value).getD 0).toNat
    { p with optionIndex := max index 1, optionOffset := none }
  | "PATH" => { p with known := [] }
  | _ => p

/-- The characters that separate fields. -/
def separators (p : Process) : List Char :=
  match p.value? "IFS" with
  | some s => s.toList
  | none => " \t\n".toList

/-- The variables that another program gets to see, sorted by nothing but age. -/
def environment (p : Process) : List (String × String) :=
  (p.bindings.filterMap fun (name, v) =>
    if v.exported then v.value.map fun value => (name, value) else none).reverse

end Process

end FirmwareMatrix.Shell
