import FirmwareMatrix.Text.Blank

/-! The written forms of a settings document's plain values: truth values, numbers, dates and
times. Only whether a text is such a form is decided; nothing asks for the value. -/

namespace FirmwareMatrix.Toml.Scalar

def isHexDigit (c : Char) : Bool :=
  c.isDigit || ('a' ≤ c && c ≤ 'f') || ('A' ≤ c && c ≤ 'F')

/-- The pieces of a number between underscores. Every underscore stands between two digits: no
piece is empty, and a piece begins and ends with a digit where an underscore is beside it. -/
def areJoined (isDigit : Char → Bool) (isFirst : Bool) : List (List Char) → Bool
  | [] => true
  | piece :: rest =>
    (isFirst || piece.head?.any isDigit) &&
      (rest.isEmpty || (piece.length == 1 && isFirst) || piece.getLast?.any isDigit) &&
      areJoined isDigit false rest

/-- Whether underscores stand only between digits. -/
def hasGoodUnderscores (isDigit : Char → Bool) (cs : List Char) : Bool :=
  let pieces := Text.splitAt '_' cs
  pieces.length == 1 || (!pieces.any List.isEmpty && areJoined isDigit true pieces)

def dropSign : List Char → List Char
  | '+' :: cs | '-' :: cs => cs
  | cs => cs

def isDigitOrUnderscore (c : Char) : Bool := c.isDigit || c == '_'

/-- Whether the digits before a fraction or an exponent may be these: at least one, and a zero first
only if it is alone. -/
def startsWell (cs : List Char) : Bool :=
  let run := cs.takeWhile isDigitOrUnderscore
  let count := run.countP Char.isDigit
  count == 1 || (count != 0 && run.head? != some '0')

/-- Digits and underscores, a digit at least. -/
def dropDigits? (cs : List Char) : Option (List Char) :=
  if (cs.takeWhile isDigitOrUnderscore).any Char.isDigit then
    some (cs.dropWhile isDigitOrUnderscore)
  else none

/-- A fraction, an exponent or both, after the digits before them. -/
def isFractionTail (cs : List Char) : Bool :=
  let afterFraction := match cs with
    | '.' :: cs => dropDigits? cs
    | cs => some cs
  match afterFraction with
  | some ('e' :: cs) | some ('E' :: cs) => dropDigits? (dropSign cs) == some []
  | some cs => cs.isEmpty
  | none => false

/-- A number in tens without its sign; `cs` is the whole of it. A whole number with an underscore
is recognised by its first character and what stands beside its underscores alone. -/
def isTens (cs value : List Char) : Bool :=
  let rest := value.dropWhile Char.isDigit
  if rest.contains ' ' then false
  else if rest.any fun c => c == '.' || c == 'e' || c == 'E' then
    startsWell value && isFractionTail (value.dropWhile isDigitOrUnderscore) &&
      hasGoodUnderscores Char.isDigit cs
  else
    (rest.isEmpty || rest.head? == some '_') && (value == ['0'] || value.head? != some '0') &&
      hasGoodUnderscores isHexDigit cs

/-- Digits of a base, of which there may be none. -/
def isBased (isDigit : Char → Bool) (cs : List Char) : Bool :=
  cs.all (fun c => isDigit c || c == '_') && hasGoodUnderscores isHexDigit cs

def isNumber (cs : List Char) : Bool :=
  match cs with
  | '0' :: 'x' :: digits => isBased isHexDigit digits
  | '0' :: 'o' :: digits => isBased (fun c => '0' ≤ c && c ≤ '7') digits
  | '0' :: 'b' :: digits => isBased (fun c => c == '0' || c == '1') digits
  | cs =>
    let value := dropSign cs
    value == ['i', 'n', 'f'] || value == ['n', 'a', 'n'] ||
      (value.head?.any isDigitOrUnderscore && isTens cs value)

/-- Exactly `width` digits at the front, as a number. -/
def takeNumber (width : Nat) (cs : List Char) : Option (Nat × List Char) :=
  let digits := cs.take width
  if digits.length = width ∧ digits.all Char.isDigit then
    some (digits.foldl (fun n c => n * 10 + (c.toNat - 48)) 0, cs.drop width)
  else none

def daysIn (year month : Nat) : Nat :=
  if month = 2 then
    if year % 4 = 0 ∧ (year % 100 ≠ 0 ∨ year % 400 = 0) then 29 else 28
  else if month = 4 ∨ month = 6 ∨ month = 9 ∨ month = 11 then 30
  else 31

/-- A calendar date at the front. -/
def takeDate (cs : List Char) : Option (List Char) := do
  let (year, cs) ← takeNumber 4 cs
  let '-' :: cs := cs | none
  let (month, cs) ← takeNumber 2 cs
  let '-' :: cs := cs | none
  let (day, cs) ← takeNumber 2 cs
  if 1 ≤ month ∧ month ≤ 12 ∧ 1 ≤ day ∧ day ≤ daysIn year month then some cs else none

def takeHourMinute (cs : List Char) : Option (List Char) := do
  let (hour, cs) ← takeNumber 2 cs
  let ':' :: cs := cs | none
  let (minute, cs) ← takeNumber 2 cs
  if hour ≤ 23 ∧ minute ≤ 59 then some cs else none

/-- A time of day at the front; seconds may be left out, and may have a fraction. -/
def takeTime (cs : List Char) : Option (List Char) := do
  let cs ← takeHourMinute cs
  match cs with
  | ':' :: cs =>
    let (second, cs) ← takeNumber 2 cs
    if 60 < second then none
    match cs with
    | '.' :: cs =>
      let rest := cs.dropWhile Char.isDigit
      if rest.length = cs.length then none else some rest
    | _ => some cs
  | _ => some cs

/-- The distance of a time from that of the prime meridian, or nothing. -/
def isOffset : List Char → Bool
  | [] | ['Z'] | ['z'] => true
  | '+' :: cs | '-' :: cs => takeHourMinute cs == some []
  | _ => false

def isMoment (cs : List Char) : Bool :=
  match takeDate cs with
  | some [] => true
  | some (c :: cs) =>
    (c == 'T' || c == 't' || c == ' ') && (takeTime cs).any isOffset
  | none => takeTime cs == some []

/-- Whether a text is a plain value. -/
def isPlain (cs : List Char) : Bool :=
  cs == "true".toList || cs == "false".toList || isNumber cs || isMoment cs

end FirmwareMatrix.Toml.Scalar
