/-! Whole numbers in text: blanks, a sign and digits, where a leading zero asks for base eight and
`0x` for base sixteen. Numbers have 64 bits; those that are too large in a text become the largest
there are, and results wrap around. -/

namespace FirmwareMatrix.Shell.Numeral

def isSpace (c : Char) : Bool := c == ' ' || ('\t' ≤ c && c ≤ '\r')

/-- The value of a digit, in bases up to thirty-six. -/
def digit? (c : Char) : Option Nat :=
  if c.isDigit then some (c.toNat - 48)
  else if 'a' ≤ c && c ≤ 'z' then some (c.toNat - 87)
  else if 'A' ≤ c && c ≤ 'Z' then some (c.toNat - 55)
  else none

def isDigitOf (base : Nat) (c : Char) : Bool := (digit? c).any (· < base)

def ofDigits (base : Nat) (cs : List Char) : Nat :=
  cs.foldl (fun n c => n * base + (digit? c).getD 0) 0

/-- The digits at the start of a text and what follows them, if there are any. -/
def natural? (base : Nat) (cs : List Char) : Option (Nat × List Char) :=
  match cs.takeWhile (isDigitOf base) with
  | [] => none
  | digits => some (ofDigits base digits, cs.drop digits.length)

/-- A number without a sign; its start may give the base. -/
def unsigned? (cs : List Char) : Option (Nat × List Char) :=
  match cs with
  | '0' :: x :: rest =>
    if x == 'x' || x == 'X' then
      match natural? 16 rest with
      | some found => some found
      | none => some (0, x :: rest)
    else natural? 8 cs
  | cs =>
    match cs with
    | '0' :: _ => natural? 8 cs
    | cs => natural? 10 cs

/-- So many numbers have 64 bits. -/
def count : Nat := 18446744073709551616

def largest : Int := 9223372036854775807

def smallest : Int := -9223372036854775808

/-- A number as 64 bits hold it. -/
def wrap (n : Int) : Int := Int.bmod n count

def clamp (n : Int) : Int := max smallest (min largest n)

/-- The number that a text starts with, of any size, and what follows it. -/
def read? (anyBase : Bool) (cs : List Char) : Option (Int × List Char) :=
  let cs := cs.dropWhile isSpace
  let (negative, cs) := match cs with
    | '-' :: cs => (true, cs)
    | '+' :: cs => (false, cs)
    | cs => (false, cs)
  (if anyBase then unsigned? cs else natural? 10 cs).map fun (n, rest) =>
    (if negative then -(n : Int) else n, rest)

/-- The number that a whole text is, with blanks around it. -/
def whole? (anyBase : Bool) (s : String) : Option Int :=
  match read? anyBase s.toList with
  | some (n, rest) => if rest.all isSpace && clamp n == n then some n else none
  | none => none

end FirmwareMatrix.Shell.Numeral
