import FirmwareMatrix.Outcome
import FirmwareMatrix.Screen

/-! Progress lines. Each is one line of text, in a colour where colours are wanted; that a line
cannot be written never matters to anything but itself. -/

namespace FirmwareMatrix.Console

inductive Style where
  | info
  | success
  | warning
  | error
  deriving DecidableEq, Repr

open Text in
def Style.opening : Style → String
  | info => Escape.csi "94m"
  | success => Escape.csi "92m"
  | warning => Escape.csi "93m"
  | error => Escape.bold ++ Escape.csi "91m"

/-- Prints a text and a line end, and flushes what was written whole. -/
def printLine (text : String) (s : Screen) : Screen :=
  let bytes := Text.Utf8.encode text.toList
  let (bytes, plain) :=
    match s.plain with
    | none => (bytes ++ [0x0a], none)
    | some state =>
      let (kept, state) := Text.Escape.strip false state bytes
      let (ending, state) := Text.Escape.strip false state [0x0a]
      (kept ++ ending, some state)
  match { s with plain }.write bytes with
  | (true, s) => s.flush.2
  | (false, s) => s

def plain (text : String) (s : Screen) : Screen := printLine text s

def styled (style : Style) (text : String) (s : Screen) : Screen :=
  if s.colored then printLine (style.opening ++ text ++ Text.Escape.reset) s else printLine text s

def info (text : String) (s : Screen) : Screen := styled .info text s

def success (text : String) (s : Screen) : Screen := styled .success text s

def warning (text : String) (s : Screen) : Screen := styled .warning text s

def error (text : String) (s : Screen) : Screen := styled .error text s

def rule : String := "========================================"

/-- The header of board number `index` of `total`. -/
def banner (index total : Nat) (b : Board) (buildDir : String) (s : Screen) : Screen :=
  s |> info ""
    |> info rule
    |> info ("[" ++ toString index ++ "/" ++ toString total ++ "] Building: " ++ b.title)
    |> info ("Config: " ++ b.source.text)
    |> info ("Dir: " ++ buildDir)
    |> info rule

/-- The closing line of a summary: the boards that failed, or that none did. -/
def verdict (summary : Summary) (s : Screen) : Screen :=
  if summary.failedNames ≠ [] then
    error ("Failed: " ++ String.intercalate ", " summary.failedNames) s
  else if summary.interrupted then s
  else success "All builds successful!" s

/-- The final report. -/
def summary (summary : Summary) (s : Screen) : Screen :=
  let interruption (s : Screen) : Screen :=
    if summary.interrupted then
      warning ("Interrupted after " ++ toString summary.outcomes.length ++ "/" ++
        toString summary.total ++ " configs") s
    else s
  s |> plain ""
    |> plain rule
    |> interruption
    |> plain ("Build Summary: " ++ toString summary.succeeded ++ "/" ++ toString summary.total ++
        " Succeeded")
    |> plain ("Artifacts: " ++ summary.outputDir.text)
    |> verdict summary

/-- Whether colours are wanted: on a terminal, unless the environment asks for none. -/
def wantsColor (isTerminal : Bool) (noColor : Option String) : Bool :=
  isTerminal && noColor.isNone

/-- The screen of a program whose output is a terminal or a file. Where no colours are wanted,
control sequences that reach it in some other way are taken out as well. -/
def screen (isTerminal : Bool) (noColor : Option String) : Screen :=
  let colored := wantsColor isTerminal noColor
  { Screen.blank .open colored with plain := if colored then none else some .ground }

end FirmwareMatrix.Console
