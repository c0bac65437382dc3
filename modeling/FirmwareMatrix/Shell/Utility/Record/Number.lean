import FirmwareMatrix.Shell.Decimal

/-! Machine numbers: how they stand for decimal ones, how text is taken for them, and how they are
written. -/

namespace FirmwareMatrix.Shell

namespace Decimal

def zero : Decimal := .finite false 0 0

def toFloat : Decimal → Float
  | notANumber _ => 0.0 / 0.0
  | infinite s => if s then -1.0 / 0.0 else 1.0 / 0.0
  | finite s m e =>
    let x := (Float.ofNat m).scaleB e
    if s then -x else x

/-- The exact value of a machine number. One that is no number has its sign bit set. -/
def ofFloat (x : Float) : Decimal :=
  let bits := x.toBits.toNat
  let negative := bits / leastMantissa / 2048 == 1
  let e : Nat := bits / leastMantissa % 2048
  let m : Nat := bits % leastMantissa
  if e = 2047 then (if m = 0 then .infinite negative else .notANumber true)
  else if e = 0 then .finite negative m smallestExponent
  else .finite negative (m + leastMantissa) ((e : Int) - 1075)

/-- The whole number towards zero. -/
def truncated? : Decimal → Option Int
  | finite s m e =>
    let (n, d) := ratio m e
    some (if s then -((n / d : Nat) : Int) else (n / d : Nat))
  | _ => none

def isWhole : Decimal → Bool
  | finite _ m e =>
    let (n, d) := ratio m e
    n % d == 0
  | _ => false

/-- What remains of a division with a whole quotient; it has the sign of the first number. -/
def remainder (x y : Decimal) : Decimal :=
  match x, y with
  | finite s m e, finite _ k f =>
    if k = 0 then .notANumber true
    else
      let (a, b) := ratio m e
      let (c, d) := ratio k f
      (ofRatio s (a * d % (c * b)) (b * d)).1
  | finite _ _ _, infinite _ => x
  | _, _ => .notANumber true

end Decimal

namespace Utility.Record

/-- The number that a text starts with, and what follows it; zero if it starts with none. -/
def leading (cs : List Char) : Float × List Char :=
  match Decimal.read? cs with
  | some (x, rest, _) => (x.toFloat, rest)
  | none => (0, cs)

/-- The number that a whole text is, with blanks around it. -/
def whole? (cs : List Char) : Option Float :=
  match Decimal.read? cs with
  | some (x, rest, _) => if rest.all Numeral.isSpace then some x.toFloat else none
  | none => none

/-- The whole number towards zero, in 64 bits. -/
def whole (x : Float) : Int :=
  let d := Decimal.ofFloat x
  match d.truncated? with
  | some n => if n < 0 then max n Numeral.smallest else min n (Numeral.count - 1)
  | none => if d.isNegative then Numeral.smallest else Numeral.count - 1

def truncated (x : Float) : Float := if x < 0 then x.ceil else x.floor

/-- The text of a whole number that 64 bits hold. -/
def wholeText? (x : Float) : Option String :=
  let d := Decimal.ofFloat x
  match d.truncated? with
  | some n =>
    if d.isWhole && Numeral.smallest ≤ n && n < Numeral.count then some (toString n) else none
  | none => none

end Utility.Record

end FirmwareMatrix.Shell
