import FirmwareMatrix.Shell.Run
import FirmwareMatrix.Shell.Installation
import FirmwareMatrix.ToolOutput

/-! Build tools that are programs: an invocation becomes a process on the machine's disk. -/

namespace FirmwareMatrix.Shell

/-- The directory that a process is to work in. -/
def workingPlace (d : Disk) (here : Disk.Place) (p : Path) : Except Errno Disk.Place :=
  match d.find here p with
  | .ok (place, .directory) => .ok place
  | .ok _ => .error .notDirectory
  | .error e => .error e

/-- The program of an invocation and the place that it works in. -/
def prepare (d : Disk) (here : Disk.Place) (i : Invocation) :
    Except Errno (Program × Disk.Place) := do
  if (i.program :: i.args).any fun s => s.toList.contains '\x00' then throw .endInArgument
  let place ← workingPlace d here i.directory
  let path ← Program.locate d place Program.usualPath (Bytes.ofText i.program)
  return (← Program.atPath d place Program.mostInterpreters path, place)

/-- The number of the program that starts the first process. -/
def ownId : Nat := 1

/-- A first process before it does anything. -/
def first (place : Disk.Place) (i : Invocation) : Process :=
  let exported (value : String) : Variable := ⟨some value, true, false⟩
  { id := ownId + 1, shell := ownId + 1, parent := ownId, above := [ownId], here := place
    directory := Bytes.ofText (Disk.pathOf place).text, umask := 18
    name := Bytes.ofText i.program, args := i.args.map Bytes.ofText
    bindings := [("PATH", exported Program.usualPath), ("HOME", exported "/root")]
    saved := [], functions := [], aliases := [], documents := #[], options := []
    descriptors := [(0, 0), (1, 1), (2, 2)]
    traps := [], status := 0, captured := 0, line := 0, running := none, guarded := false
    loops := 0, depth := 0, jobs := [], lastJob := none, optionIndex := 1, optionOffset := none
    known := [], lostOutput := none }

/-- The machine on which a first process starts; it has nothing to read. -/
def machine (d : Disk) : Machine :=
  { disk := d, channels := #[.device .null, .output, .errors], pipes := #[], written := []
    clock := 0, signals := [], lastId := ownId + 1, tasks := [], finished := []
    interrupted := false }

/-- The number of steps after which a script counts as one that does not end. -/
def patience : Nat := 1000000

/-- How a first process ends as others see it. -/
def endingOf : Except Stop Ended → Ending
  | .ok (.exited status) => .exited (status % 256 : Nat)
  | .ok (.killed _) => .exited (-1)
  | .error _ => .pending

/-- The bytes that reached one of the two streams, in the order of the times at which they were
written. -/
def streamed (toErrors : Bool) (written : List Written) : List UInt8 :=
  let sorted := (written.reverse.filter (·.toErrors == toErrors)).mergeSort fun a b => a.time ≤ b.time
  sorted.flatMap fun w => Bytes.toList w.text

/-- Runs an invocation to its end on behalf of a program that works in `here`. -/
def start (here : Disk.Place) (i : Invocation) : StateM Disk Reply := fun d =>
  match prepare d here i with
  | .error e =>
    (⟨[], [], .failed ((Failure.ofCause (.system e)).during (.spawning i.shown))⟩, d)
  | .ok (program, place) =>
    let p := first place i
    let act := Run.toEnd patience (Run.runProgram patience program.name (program.before ++ p.args))
    let (ended, s) := match (Act.outcome act).run ⟨machine d, p⟩ with
      | .ok ended s => (ended, s)
      | .error e s => (.error e, s)
    (⟨streamed false s.machine.written, streamed true s.machine.written, endingOf ended⟩,
      s.machine.disk)

/-- A program as the build tool of a project. -/
def tool (here : Disk.Place) (program : String) (projectDir buildDir : Path) : Tool Disk where
  run c := start here (c.invocation program projectDir buildDir)

end FirmwareMatrix.Shell
