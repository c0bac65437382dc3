import FirmwareMatrix.Command
import FirmwareMatrix.Failure
import FirmwareMatrix.Screen

/-! The output of a build tool, forwarded to the screen line by line. Bytes that are no UTF-8 are
replaced, one carriage return before a line end is dropped, and the status bar is drawn again
after each line. A line feed ends whatever sequence of bytes stands before it, so no character is
lost or changed by cutting the bytes into lines before they are read. -/

namespace FirmwareMatrix

/-- How a command ended. -/
inductive Ending where
  /-- The process ended; the code is -1 when a signal ended it. -/
  | exited (code : Int)
  /-- The command could not be run. -/
  | failed (f : Failure)
  /-- The process is still running when the run is interrupted. -/
  | pending

/-- What counts as the exit code: -1 when the command could not be run, none while it is running. -/
def Ending.code? : Ending → Option Int
  | exited code => some code
  | failed _ => some (-1)
  | pending => none

/-- What a command wrote to its output and to its error stream, and how it ended. -/
structure Reply where
  output : List UInt8
  complaints : List UInt8
  ending : Ending

/-- A build tool: a behaviour for every command on some state. -/
structure Tool (σ : Type) where
  run : Command → StateM σ Reply

/-- What a run hands its commands to: each changes the world, may show things on the screen, and
ends in some way. -/
structure Runner (σ : Type) where
  run : Command → StateM (σ × Screen) Ending

namespace ToolOutput

/-- The pieces that line feeds end, and what follows the last one unless it is empty. -/
def segments : List UInt8 → List (List UInt8)
  | [] => []
  | b :: bs =>
    if b = 0x0a then [] :: segments bs
    else match segments bs with
      | [] => [[b]]
      | s :: ss => (b :: s) :: ss

/-- One carriage return at the end is dropped. -/
def dropReturn (line : List Char) : List Char :=
  if line.getLast? = some '\r' then line.dropLast else line

/-- The lines as they are shown. -/
def lines (output : List UInt8) : List (List Char) :=
  (segments output).map fun s => dropReturn (Text.Utf8.decodeLossy s)

/-- The lines of a command; each of its two streams is cut into lines by itself. -/
def linesOf (r : Reply) : List (List Char) := lines r.output ++ lines r.complaints

/-- Writes lines, each followed by a drawing of the bar, until one is not accepted. -/
def forward : List (List Char) → Screen → Except Failure Unit × Screen
  | [], s => (.ok (), s)
  | line :: rest, s =>
    match s.write (Text.Utf8.encode line ++ [0x0a]) with
    | (true, s) => forward rest s.redraw
    | (false, s) => (.error ((Failure.ofCause .sinkClosed).during .writingToolOutput), s)

/-- Shows the output of a process that ended. -/
def finish (shown : List (List Char)) (code : Int) (s : Screen) : Except Failure Int × Screen :=
  match forward shown s with
  | (.error f, s) => (.error f, s)
  | (.ok _, s) =>
    match s.flush with
    | (true, s) => (.ok code, s)
    | (false, s) => (.error ((Failure.ofCause .flushRefused).during .flushingToolOutput), s)

/-- Shows what a command wrote: its exit code or why there is none, or nothing while the process
is still running. -/
def stream (r : Reply) (s : Screen) : Option (Except Failure Int) × Screen :=
  match r.ending with
  | .failed f => (some (.error f), s)
  | .exited code =>
    let (result, s) := finish (linesOf r) code s
    (some result, s)
  | .pending =>
    match forward (linesOf r) s with
    | (.error f, s) => (some (.error f), s)
    | (.ok _, s) => (none, s)

end ToolOutput

/-- Runs the processes of a tool and shows what they write. What cannot be shown makes the command
one that could not be run. -/
def Tool.runner {σ : Type} (tool : Tool σ) : Runner σ where
  run c := fun (world, screen) =>
    let (reply, world) := tool.run c world
    match ToolOutput.stream reply screen with
    | (none, screen) => (.pending, world, screen)
    | (some (.ok code), screen) => (.exited code, world, screen)
    | (some (.error f), screen) => (.failed f, world, screen)

end FirmwareMatrix
