import FirmwareMatrix.Shell.Numeral

/-! Numbers with a fraction, in 53 bits. A text becomes the nearest number that has so many bits,
and a number is written with any count of digits, rounded from its exact value; of two that are
equally near the even one is taken. -/

namespace FirmwareMatrix.Shell

inductive Decimal where
  | notANumber (negative : Bool)
  | infinite (negative : Bool)
  /-- The mantissa times a power of two. -/
  | finite (negative : Bool) (mantissa : Nat) (exponent : Int)
  deriving DecidableEq, Repr

namespace Decimal

/-- A quotient to the nearest whole number; of two the even one. -/
def roundDiv (n d : Nat) : Nat :=
  let q := n / d
  let twice := 2 * (n % d)
  if twice < d || (twice == d && q % 2 == 0) then q else q + 1

/-- A ratio times a power. -/
def scaled (base : Nat) (power : Int) (n d : Nat) : Nat × Nat :=
  if 0 ≤ power then (n * Nat.pow base power.toNat, d) else (n, d * Nat.pow base (-power).toNat)

/-- The least mantissa of 53 bits. -/
def leastMantissa : Nat := 4503599627370496

def smallestExponent : Int := -1074

def largestExponent : Int := 971

/-- The nearest number to a ratio, and whether it is too large or too small to be exact. -/
def ofRatio (negative : Bool) (n d : Nat) : Decimal × Bool :=
  if n = 0 then (.finite negative 0 0, false)
  else
    let estimate : Int := (n.log2 : Int) - (d.log2 : Int) - 52
    let quotient (e : Int) : Nat :=
      let (n, d) := scaled 2 (-e) n d
      n / d
    let e := if quotient estimate < leastMantissa then estimate - 1 else estimate
    let isTiny : Bool := e < smallestExponent
    let e := max e smallestExponent
    let (n, d) := scaled 2 (-e) n d
    let m := roundDiv n d
    let (m, e) := if m = 2 * leastMantissa then (leastMantissa, e + 1) else (m, e)
    if largestExponent < e then (.infinite negative, true)
    else (.finite negative m e, isTiny && n % d != 0)

/-! ## Reading -/

def lower (c : Char) : Char := if c.isUpper then Char.ofNat (c.toNat + 32) else c

def startsWith (word : String) (cs : List Char) : Bool :=
  (cs.take word.length).map lower == word.toList

/-- An exponent after its letter, and what follows it. -/
def exponent? (letter : Char) (cs : List Char) : Int × List Char :=
  match cs with
  | c :: rest =>
    if lower c != letter then (0, cs)
    else
      let (negative, digits) := match rest with
        | '-' :: ds => (true, ds)
        | '+' :: ds => (false, ds)
        | ds => (false, ds)
      match Numeral.natural? 10 digits with
      | some (n, rest) => (if negative then -(min n 100000 : Nat) else (min n 100000 : Nat), rest)
      | none => (0, cs)
  | [] => (0, [])

/-- Digits with a point among them: their value, how many stand behind the point, the rest. -/
def digits? (base : Nat) (cs : List Char) : Option (Nat × Nat × List Char) :=
  let front := cs.takeWhile (Numeral.isDigitOf base)
  let rest := cs.drop front.length
  let (back, rest) := match rest with
    | '.' :: ds =>
      let back := ds.takeWhile (Numeral.isDigitOf base)
      if front.isEmpty && back.isEmpty then ([], rest) else (back, ds.drop back.length)
    | rest => ([], rest)
  if front.isEmpty && back.isEmpty then none
  else some (Numeral.ofDigits base (front ++ back), back.length, rest)

/-- The number that a text starts with, what follows it, and whether it is out of range. -/
def read? (cs : List Char) : Option (Decimal × List Char × Bool) :=
  let cs := cs.dropWhile Numeral.isSpace
  let (negative, cs) := match cs with
    | '-' :: cs => (true, cs)
    | '+' :: cs => (false, cs)
    | cs => (false, cs)
  if startsWith "infinity" cs then some (.infinite negative, cs.drop 8, false)
  else if startsWith "inf" cs then some (.infinite negative, cs.drop 3, false)
  else if startsWith "nan" cs then some (.notANumber negative, cs.drop 3, false)
  else
    let hexadecimal := if startsWith "0x" cs then digits? 16 (cs.drop 2) else none
    match hexadecimal with
    | some (n, places, rest) =>
      let (e, rest) := exponent? 'p' rest
      let (n, d) := scaled 2 (e - 4 * places) n 1
      let (x, outside) := ofRatio negative n d
      some (x, rest, outside)
    | none =>
      match digits? 10 cs with
      | some (n, places, rest) =>
        let (e, rest) := exponent? 'e' rest
        let (n, d) := scaled 10 (e - places) n 1
        let (x, outside) := ofRatio negative n d
        some (x, rest, outside)
      | none => none

/-! ## Writing -/

/-- A positive number as a ratio. -/
def ratio (mantissa : Nat) (exponent : Int) : Nat × Nat := scaled 2 exponent mantissa 1

/-- A number of tenths, hundredths and so on with its point. -/
def pointed (places : Nat) (keepPoint : Bool) (n : Nat) : String :=
  let digits := (toString n).toList
  let digits := List.replicate (places + 1 - digits.length) '0' ++ digits
  let front := digits.take (digits.length - places)
  let back := digits.drop (digits.length - places)
  String.ofList (if back.isEmpty && !keepPoint then front else front ++ '.' :: back)

/-- So many places behind the point. -/
def fixed (places : Nat) (keepPoint : Bool) (mantissa : Nat) (exponent : Int) : String :=
  let (n, d) := ratio mantissa exponent
  pointed places keepPoint (roundDiv (n * Nat.pow 10 places) d)

/-- The power of ten of a number's first digit, and so many digits after that one. -/
def scientific (places : Nat) (mantissa : Nat) (exponent : Int) : Int × Nat :=
  if mantissa = 0 then (0, 0)
  else
    let (n, d) := ratio mantissa exponent
    let guess : Int := ((toString n).length : Int) - ((toString d).length : Int)
    let (a, b) := scaled 10 (-guess) n d
    let power := if a < b then guess - 1 else guess
    let (a, b) := scaled 10 (places - power) n d
    let digits := roundDiv a b
    if digits = Nat.pow 10 (places + 1) then (power + 1, Nat.pow 10 places) else (power, digits)

def exponentText (power : Int) : String :=
  let digits := toString power.natAbs
  (if power < 0 then "e-" else "e+") ++ (if digits.length < 2 then "0" else "") ++ digits

def withoutZeros (s : String) : String :=
  if s.toList.contains '.' then
    let kept := s.toList.reverse.dropWhile (· == '0')
    String.ofList (match kept with
      | '.' :: kept => kept.reverse
      | kept => kept.reverse)
  else s

/-- The shorter of both notations, with so many digits in all. -/
def general (digits : Nat) (keepZeros : Bool) (mantissa : Nat) (exponent : Int) : String :=
  let digits := max digits 1
  let (power, n) := scientific (digits - 1) mantissa exponent
  let shortened (s : String) : String := if keepZeros then s else withoutZeros s
  if -4 ≤ power ∧ power < digits then
    shortened (fixed (digits - 1 - power).toNat keepZeros mantissa exponent)
  else shortened (pointed (digits - 1) keepZeros n) ++ exponentText power

def hexadecimal (mantissa : Nat) (exponent : Int) : String :=
  if mantissa = 0 then "0x0p+0"
  else
    let shift := 52 - mantissa.log2
    let m := mantissa * Nat.pow 2 shift
    let power : Int := exponent - shift + 52
    let fraction := (Nat.toDigits 16 (m % leastMantissa))
    let fraction := List.replicate (13 - fraction.length) '0' ++ fraction
    let fraction := (fraction.reverse.dropWhile (· == '0')).reverse
    "0x1" ++ (if fraction.isEmpty then "" else "." ++ String.ofList fraction) ++
      (if power < 0 then "p-" else "p+") ++ toString power.natAbs

def isNegative : Decimal → Bool
  | notANumber negative | infinite negative | finite negative _ _ => negative

/-- A number without its sign in the notation of a conversion letter. -/
def magnitude (kind : Char) (precision : Option Nat) (alternate : Bool) : Decimal → String
  | notANumber _ => "nan"
  | infinite _ => "inf"
  | finite _ m e =>
    match kind with
    | 'e' =>
      let places := precision.getD 6
      let (power, n) := scientific places m e
      pointed places alternate n ++ exponentText power
    | 'g' => general (precision.getD 6) alternate m e
    | 'a' => hexadecimal m e
    | _ => fixed (precision.getD 6) alternate m e

end Decimal

end FirmwareMatrix.Shell
