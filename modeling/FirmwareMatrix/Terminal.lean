import FirmwareMatrix.StatusLine
import FirmwareMatrix.Text.Escape

/-! Where the status bar is drawn: a terminal that keeps its last row for the bar, or a recorder
that only answers. The size of a terminal is read when the row is reserved and holds from then
on. -/

namespace FirmwareMatrix

/-- What a status bar asks for. -/
inductive BarEvent where
  | reserve
  | draw (text : String) (frame : Nat)
  | restore
  deriving DecidableEq, Repr

/-- Why a request was not met. -/
inductive BarFault where
  | tooSmall (columns rows : Nat)
  | refused
  deriving DecidableEq, Repr

def BarFault.message : BarFault → String
  | tooSmall columns rows =>
    "terminal too small for a status bar (" ++ toString columns ++ "x" ++ toString rows ++ ")"
  | refused => "refused"

/-- A terminal: its size, and the size in force since the row was reserved. -/
structure Terminal where
  columns : Nat
  rows : Nat
  held : Option (Nat × Nat)
  deriving Repr

namespace Terminal

def ofSize (columns rows : Nat) : Terminal := ⟨columns, rows, none⟩

/-- The row of the bar, counted from one. -/
def barRow (t : Terminal) : Nat := ((t.held.map Prod.snd).getD 0 - 1) + 1

open Text in
/-- The text that meets a request, and the terminal after it. -/
def perform (t : Terminal) : BarEvent → Except BarFault (String × Terminal)
  | .reserve =>
    if t.rows < 2 ∨ t.columns = 0 then .error (.tooSmall t.columns t.rows)
    else .ok (Escape.scrollRows 1 (t.rows - 1) ++ Escape.moveTo 1 1,
      { t with held := some (t.columns, t.rows) })
  | .draw text frame =>
    match t.held with
    | none => .ok ("", t)
    | some (columns, _) =>
      .ok (Escape.saveCursor ++ Escape.moveTo t.barRow 1 ++ Escape.clearLine ++ Escape.bold ++
        Escape.cyan ++ String.ofList (StatusLine.compose text frame columns) ++ Escape.reset ++
        Escape.reset ++ Escape.restoreCursor, t)
  | .restore =>
    .ok (Escape.saveCursor ++ Escape.scrollAll ++ Escape.moveTo t.barRow 1 ++ Escape.clearLine ++
      Escape.restoreCursor ++ "\n", t)

end Terminal

/-- What a status bar draws on. -/
inductive Backend where
  /-- Shows nothing; the flags say which requests are refused. -/
  | recorder (interactive refusesReserve refusesDraw refusesRestore : Bool)
  | terminal (t : Terminal)
  deriving Repr

namespace Backend

/-- Nothing is ever drawn. -/
def silent : Backend := .recorder false false false false

def isInteractive : Backend → Bool
  | recorder interactive _ _ _ => interactive
  | terminal _ => true

def refuses : Backend → BarEvent → Bool
  | recorder _ r _ _, .reserve => r
  | recorder _ _ d _, .draw _ _ => d
  | recorder _ _ _ r, .restore => r
  | terminal _, _ => false

/-- The text that meets a request, and the backend after it. -/
def perform (b : Backend) (e : BarEvent) : Except BarFault (String × Backend) :=
  match b with
  | recorder _ _ _ _ => if b.refuses e then .error .refused else .ok ("", b)
  | terminal t => (t.perform e).map fun (text, t) => (text, terminal t)

end Backend

end FirmwareMatrix
