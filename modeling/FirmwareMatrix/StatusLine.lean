import FirmwareMatrix.Board
import FirmwareMatrix.Text.Blank

/-! The one line of the status bar: a spinner glyph and a text, fitted to the width of the
terminal. Main statement: the line has exactly the wanted width and holds no control character, so
it can neither leave its row nor send the terminal a command. -/

namespace FirmwareMatrix.StatusLine

/-- What is being done for a board. -/
inductive Phase where
  | targeting
  | building
  | copying
  deriving DecidableEq, Repr

def Phase.text : Phase → String
  | targeting => "targeting"
  | building => "building"
  | copying => "copying"

/-- The text for board number `index` of `total`. -/
def textFor (index total : Nat) (b : Board) (phase : Phase) : String :=
  toString index ++ "/" ++ toString total ++ " | " ++ b.name ++ " (" ++ b.target ++ ") | " ++
    phase.text

/-- The spinner, one glyph for each tick. -/
def glyph (frame : Nat) : Char :=
  match frame % 10 with
  | 0 => '⠋'
  | 1 => '⠙'
  | 2 => '⠹'
  | 3 => '⠸'
  | 4 => '⠼'
  | 5 => '⠴'
  | 6 => '⠦'
  | 7 => '⠧'
  | 8 => '⠇'
  | _ => '⠏'

def flatten (c : Char) : Char := if Text.isControl c then ' ' else c

/-- Glyph, space and text, with control characters flattened to spaces. -/
def content (text : String) (frame : Nat) : List Char :=
  (glyph frame :: ' ' :: text.toList).map flatten

/-- The content cut or padded to `width` characters. -/
def compose (text : String) (frame width : Nat) : List Char :=
  let shown := (content text frame).take width
  shown ++ List.replicate (width - shown.length) ' '

theorem length_compose (text : String) (frame width : Nat) :
    (compose text frame width).length = width := by
  simp only [compose, List.length_append, List.length_replicate, List.length_take]
  omega

theorem isControl_flatten (c : Char) : Text.isControl (flatten c) = false := by
  by_cases h : Text.isControl c
  · simp only [flatten, h, ↓reduceIte]
    decide
  · simp [flatten, h]

theorem isControl_of_mem_compose {text : String} {frame width : Nat} {c : Char}
    (h : c ∈ compose text frame width) : Text.isControl c = false := by
  simp only [compose, List.mem_append] at h
  rcases h with h | h
  · obtain ⟨d, -, rfl⟩ := List.mem_map.mp (List.mem_of_mem_take h)
    exact isControl_flatten d
  · rw [List.eq_of_mem_replicate h]
    decide

end FirmwareMatrix.StatusLine
