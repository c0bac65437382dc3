/-! Reading text from the front: a reader consumes characters and may fail. -/

namespace FirmwareMatrix.Text

abbrev Reader := StateT (List Char) Option

namespace Reader

def fail {α : Type} : Reader α := fun _ => none

def next : Reader Char
  | [] => none
  | c :: cs => some (c, cs)

def peek : Reader (Option Char) := fun cs => some (cs.head?, cs)

/-- Whether `word` stood at the front; it is consumed if so. -/
def accept (word : List Char) : Reader Bool := fun cs =>
  if word.isPrefixOf cs then some (true, cs.drop word.length) else some (false, cs)

def expect (word : List Char) : Reader Unit := do
  if !(← accept word) then fail

def takeWhile (p : Char → Bool) : Reader (List Char) := fun cs =>
  some (cs.takeWhile p, cs.dropWhile p)

/-- Spaces and tabs. -/
def blanks : Reader Unit := do
  let _ ← takeWhile fun c => c == ' ' || c == '\t'

/-- A line end, if one is next. -/
def newline : Reader Bool := do
  if ← accept ['\n'] then return true else accept ['\r', '\n']

end Reader

end FirmwareMatrix.Text
