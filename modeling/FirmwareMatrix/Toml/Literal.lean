import FirmwareMatrix.Text.Reader
import FirmwareMatrix.Toml.Scalar

/-! The written forms of text in a settings document: between double quotes with escapes or between
single quotes as it stands, on one line or, with the quotes tripled, on several. -/

namespace FirmwareMatrix.Toml

open FirmwareMatrix.Text (Reader)
open FirmwareMatrix.Text.Reader

namespace Literal

/-- Characters that may stand in text and comments: all but control characters, and the tab. -/
def isAllowed (c : Char) : Bool := c == '\t' || (0x20 ≤ c.toNat && c != '\x7f')

/-- The character of a code of `width` hexadecimal digits. -/
def scalar (width : Nat) : Reader Char := do
  let digits := (← get).take width
  if digits.length = width ∧ digits.all Scalar.isHexDigit then
    modify fun cs => cs.drop width
    let n := digits.foldl (fun n c =>
      n * 16 + (if c.isDigit then c.toNat - 48 else c.toLower.toNat - 87)) 0
    if h : n.isValidChar then return Char.ofNatAux n h else fail
  else fail

/-- What follows a backslash. -/
def escape : Reader Char := do
  match ← next with
  | 'b' => return '\x08'
  | 't' => return '\t'
  | 'n' => return '\n'
  | 'f' => return '\x0c'
  | 'r' => return '\r'
  | 'e' => return '\x1b'
  | '"' => return '"'
  | '\\' => return '\\'
  | 'x' => scalar 2
  | 'u' => scalar 4
  | 'U' => scalar 8
  | _ => fail

/-- A backslash at the end of a line joins the line with the next character that is no blank; it
has been consumed already. -/
def joinsLines : Reader Bool := fun cs =>
  let isBlank (c : Char) : Bool := c == ' ' || c == '\t'
  match cs.dropWhile isBlank with
  | '\n' :: rest => some (true, skip rest)
  | '\r' :: '\n' :: rest => some (true, skip rest)
  | _ => some (false, cs)
where
  skip : List Char → List Char
    | ' ' :: cs | '\t' :: cs | '\n' :: cs | '\r' :: '\n' :: cs => skip cs
    | cs => cs

/-- The rest of a text on one line. -/
def readLine (quote : Char) (escapes : Bool) : Nat → Reader (List Char)
  | 0 => fail
  | fuel + 1 => do
    let c ← next
    if c = quote then return []
    let c ← if escapes && c == '\\' then escape
      else if isAllowed c then pure c else fail
    return c :: (← readLine quote escapes fuel)

/-- The rest of a text on several lines: three quotes end it, and one or two more of them before
the end belong to it. -/
def readLines (quote : Char) (escapes : Bool) : Nat → Reader (List Char)
  | 0 => fail
  | fuel + 1 => do
    if ← accept [quote, quote, quote] then
      if ← accept [quote] then
        if ← accept [quote] then return [quote, quote] else return [quote]
      else return []
    if ← accept ['\r', '\n'] then
      return '\r' :: '\n' :: (← readLines quote escapes fuel)
    let c ← next
    if escapes && c == '\\' then
      if ← joinsLines then readLines quote escapes fuel
      else
        let c ← escape
        return c :: (← readLines quote escapes fuel)
    else if c == '\n' || isAllowed c then return c :: (← readLines quote escapes fuel)
    else fail

/-- A text on one line in either kind of quotes, if one is next. -/
def readOneLine : Reader (Option String) := do
  let bound := (← get).length + 1
  if ← accept ['"'] then return some (String.ofList (← readLine '"' true bound))
  else if ← accept ['\''] then return some (String.ofList (← readLine '\'' false bound))
  else return none

/-- A text in any of the four forms, if one is next. -/
def read : Reader (Option String) := do
  let bound := (← get).length + 1
  if ← accept ['"', '"', '"'] then
    let _ ← newline
    return some (String.ofList (← readLines '"' true bound))
  else if ← accept ['\'', '\'', '\''] then
    let _ ← newline
    return some (String.ofList (← readLines '\'' false bound))
  else readOneLine

end Literal

end FirmwareMatrix.Toml
