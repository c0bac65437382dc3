import FirmwareMatrix.Path

/-! Boards: one build each. Boards are ordered by chip target first, so that boards of one chip
stand together and the shared build directory is set up again as rarely as possible. -/

namespace FirmwareMatrix

/-- A board to build for: its name, its chip target and the header that describes it. -/
structure Board where
  name : String
  target : String
  source : Path
  deriving Repr, BEq

namespace Board

instance : Ord Board where
  compare := compareLex (compareOn target) (compareLex (compareOn name) (compareOn source))

/-- Stable, by target, then name, then source. -/
def sort (boards : List Board) : List Board :=
  boards.mergeSort fun a b => (compare a b).isLE

/-- The name of the board's directory below the output directory. Separators, and the names that
stand for a directory itself or its parent, would lead out of it and become underscores. -/
def directoryName (b : Board) : String :=
  if b.name = "." ∨ b.name = ".." then String.ofList (b.name.toList.map fun _ => '_')
  else String.ofList (b.name.toList.map fun c => if c = '/' ∨ c = '\\' then '_' else c)

/-- Name and target, as reports show a board. -/
def title (b : Board) : String := b.name ++ " (" ++ b.target ++ ")"

end Board

end FirmwareMatrix
