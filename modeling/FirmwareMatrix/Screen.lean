import FirmwareMatrix.Log
import FirmwareMatrix.Terminal
import FirmwareMatrix.Text.Utf8

/-! What a run shows: text written to a sink, requests of the status bar and diagnostics, in one
order. A sink may accept only so many bytes, or fail to flush. The status bar holds a text and a
frame number and is drawn on request and on every tick of its clock while it is active. -/

namespace FirmwareMatrix

/-- A place that text is written to: how many bytes it still accepts, unless it accepts any
number, and whether flushing it fails. -/
structure Sink where
  room : Option Nat
  failsFlush : Bool
  deriving Repr

/-- The bytes of a write that are accepted. -/
def Sink.accepted (s : Sink) (bytes : List UInt8) : List UInt8 :=
  match s.room with
  | none => bytes
  | some n => bytes.take n

def Sink.acceptsAll (s : Sink) (bytes : List UInt8) : Bool :=
  match s.room with
  | none => true
  | some n => bytes.length ≤ n

/-- A sink that takes everything. -/
def Sink.open : Sink := ⟨none, false⟩

/-- One thing that happened on a screen. -/
inductive Mark where
  | wrote (bytes : List UInt8)
  | flushed
  | bar (e : BarEvent)
  deriving DecidableEq, Repr

/-- The bar is active from a successful start until it is stopped. Its clock runs from the first
wait on. -/
structure StatusBar where
  backend : Backend
  text : String
  frame : Nat
  clock : Nat
  active : Bool
  deriving Repr

structure Screen where
  sink : Sink
  colored : Bool
  /-- The state of the removal of control sequences from progress lines, where they are removed. -/
  plain : Option Text.Escape.State
  bar : StatusBar
  marks : List Mark
  log : List LogEntry

namespace Screen

/-- Writes bytes; whether all were accepted. -/
def write (bytes : List UInt8) (s : Screen) : Bool × Screen :=
  (s.sink.acceptsAll bytes,
    { s with
      sink := { s.sink with room := s.sink.room.map (· - bytes.length) }
      marks := s.marks ++ [.wrote (s.sink.accepted bytes)] })

/-- Flushes; whether that succeeded. -/
def flush (s : Screen) : Bool × Screen :=
  (!s.sink.failsFlush, { s with marks := s.marks ++ [.flushed] })

def report (entry : LogEntry) (s : Screen) : Screen := { s with log := s.log ++ [entry] }

/-! ## The status bar -/

/-- Puts a request to the backend and writes what it answers with. -/
def request (e : BarEvent) (s : Screen) : Option BarFault × Screen :=
  let s' := { s with marks := s.marks ++ [.bar e] }
  match s.bar.backend.perform e with
  | .error f => (some f, s')
  | .ok (text, backend) =>
    let s' := { s' with bar := { s'.bar with backend } }
    if text.isEmpty then (none, s') else (none, (s'.write (Text.Utf8.encode text.toList)).2)

/-- Starts a bar on a backend. On one that shows nothing, or that cannot keep a row for it, the
bar stays inactive. -/
def startBar (backend : Backend) (s : Screen) : Screen :=
  let s := { s with bar := ⟨backend, "", 0, 0, false⟩ }
  if backend.isInteractive then
    match s.request .reserve with
    | (none, s) => { s with bar := { s.bar with active := true } }
    | (some f, s) =>
      s.report ⟨.warn, "could not reserve status row; continuing without status bar",
        [("error", f.message)]⟩
  else s

/-- Replaces the text; the next drawing shows it. -/
def setText (text : String) (s : Screen) : Screen := { s with bar := { s.bar with text } }

/-- Draws the bar as it is; nothing happens once it is inactive, and a fault does not matter. -/
def redraw (s : Screen) : Screen :=
  if s.bar.active then (s.request (.draw s.bar.text s.bar.frame)).2 else s

/-- One tick of the clock: the next frame, drawn. -/
def tick (s : Screen) : Screen :=
  if s.bar.active then redraw { s with bar := { s.bar with frame := s.bar.frame + 1 } } else s

def ticks : Nat → Screen → Screen
  | 0, s => s
  | n + 1, s => ticks n s.tick

/-- Milliseconds between ticks. -/
def period : Nat := 100

/-- How many ticks fall before a point in time, the first one falling at zero. -/
def ticksBefore (time : Nat) : Nat := (time + period - 1) / period

/-- Time passes. -/
def wait (ms : Nat) (s : Screen) : Screen :=
  if s.bar.active then
    let now := s.bar.clock
    let s := { s with bar := { s.bar with clock := now + ms } }
    ticks (ticksBefore (now + ms) - ticksBefore now) s
  else s

/-- Ends the bar and gives the row back. Ticks that come after the end was called for move the
frame on but draw nothing. -/
def finishBar (late : Nat) (reports : Bool) (s : Screen) : Screen :=
  if s.bar.active then
    let s := { s with bar := { s.bar with active := false, frame := s.bar.frame + late } }
    match s.request .restore with
    | (some f, s) =>
      if reports then
        s.report ⟨.warn, "failed to restore terminal scroll region", [("error", f.message)]⟩
      else s
    | (none, s) => s
  else s

/-- Stops the bar; a row that cannot be given back is reported. -/
def stopBar (s : Screen) : Screen := s.finishBar 0 true

/-- Drops the bar without its having been stopped. -/
def dropBar (s : Screen) : Screen := s.finishBar 0 false

/-! ## What was shown -/

def Mark.bytes : Mark → List UInt8
  | .wrote bytes => bytes
  | _ => []

def Mark.event? : Mark → Option BarEvent
  | .bar e => some e
  | _ => none

/-- All bytes that reached the sink. -/
def written (s : Screen) : List UInt8 := s.marks.flatMap Mark.bytes

/-- All requests of the status bar. -/
def barEvents (s : Screen) : List BarEvent := s.marks.filterMap Mark.event?

/-- A screen with nothing on it and no status bar. -/
def blank (sink : Sink) (colored : Bool) : Screen :=
  ⟨sink, colored, none, ⟨.silent, "", 0, 0, false⟩, [], []⟩

end Screen

end FirmwareMatrix
