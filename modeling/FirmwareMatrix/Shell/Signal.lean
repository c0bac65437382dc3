import FirmwareMatrix.Shell.Machine
import FirmwareMatrix.Shell.Numeral

/-! Signals: their names, what they do to a process that has no plans of its own for them, and how
they reach it. -/

namespace FirmwareMatrix.Shell

namespace Signal

/-- The names of signals by their numbers, from one on. -/
def names : List String :=
  ["HUP", "INT", "QUIT", "ILL", "TRAP", "ABRT", "BUS", "FPE", "KILL", "USR1", "SEGV", "USR2", "PIPE",
    "ALRM", "TERM", "STKFLT", "CHLD", "CONT", "STOP", "TSTP", "TTIN", "TTOU", "URG", "XCPU", "XFSZ",
    "VTALRM", "PROF", "WINCH", "IO", "PWR", "SYS", "RTMIN"]

/-- What is said of a process that a signal has ended. -/
def reasons : List String :=
  ["Hangup", "Interrupt", "Quit", "Illegal instruction", "Trace/breakpoint trap", "Aborted",
    "Bus error", "Floating point exception", "Killed", "User defined signal 1", "Segmentation fault",
    "User defined signal 2", "Broken pipe", "Alarm clock", "Terminated", "Stack fault",
    "Child exited", "Continued", "Stopped (signal)", "Stopped", "Stopped (tty input)",
    "Stopped (tty output)", "Urgent I/O condition", "CPU time limit exceeded",
    "File size limit exceeded", "Virtual timer expired", "Profiling timer expired",
    "Window changed", "I/O possible", "Power failure", "Bad system call", "Real-time signal 0"]

def largest : Nat := 64

def hangUp : Nat := 1
def interrupt : Nat := 2
def kill : Nat := 9
def brokenPipe : Nat := 13
def terminate : Nat := 15

/-- Signals that a process without plans for them does not notice. -/
def isHarmless (n : Nat) : Bool := n == 17 || n == 18 || n == 23 || n == 28

/-- Signals that make a process wait for another one. -/
def stops (n : Nat) : Bool := 19 ≤ n && n ≤ 22

def name (n : Nat) : String :=
  if n = 0 then "EXIT" else (names[n - 1]?).getD (if n ≤ largest then toString n else "")

/-- The number of a signal by its name or number; zero is the end of a process. -/
def ofWord? (word : String) : Option Nat :=
  match (if word.toList.all Char.isDigit then Numeral.whole? false word else none) with
  | some n => if n ≤ largest then some n.toNat else none
  | none =>
    let upper := String.ofList (word.toList.map Char.toUpper)
    let plain := if "SIG".toList.isPrefixOf upper.toList then String.ofList (upper.toList.drop 3)
      else upper
    if plain == "EXIT" then some 0 else (names.idxOf? plain).map (· + 1)

/-- The reason that is given for the end of a process, if one is. -/
def reason? (n : Nat) : Option String :=
  if n = interrupt || n = brokenPipe then none else some ((reasons[n - 1]?).getD "Unknown signal")

end Signal

namespace Act

/-- A fault of the shell itself. -/
def report (text : String) : Act Unit := do
  let p ← process
  let running := match p.running with
    | some command => command ++ ": "
    | none => ""
  complain (p.name ++ ": " ++ toString p.line ++ ": " ++ running ++ text)

/-- A fault of the shell itself that ends what it is doing. -/
def fail {α : Type} (text : String) : Act α := do
  report text
  setStatus 2
  throw .fault

/-- Sends a signal to a process; it arrives when that process runs again. -/
def send (signal target : Nat) : Act Unit :=
  if signal = 0 then pure ()
  else if target = 1 then do
    if signal = Signal.interrupt then onMachine fun m => { m with interrupted := true }
  else onMachine fun m => { m with signals := m.signals ++ [(target, signal)] }

/-- Sets a variable, which must not be protected. -/
def setVariable (name value : String) : Act Unit := do
  let p ← process
  if p.isReadOnly name then fail (name ++ ": is read only")
  onProcess fun p => p.assign name value

/-- Time passes. -/
def pass (microseconds : Nat) : Act Unit :=
  onMachine fun m => { m with clock := m.clock + microseconds }

end Act

end FirmwareMatrix.Shell
