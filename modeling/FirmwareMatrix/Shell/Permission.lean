import FirmwareMatrix.Shell.Numeral

/-! Permissions as numbers of nine bits, and the changes to them that a text describes: an octal
number, or who gets, keeps or loses what. -/

namespace FirmwareMatrix.Shell.Permission

/-- The bits of the classes that a letter stands for. -/
def classBits : Char → Option Nat
  | 'u' => some 0o700
  | 'g' => some 0o070
  | 'o' => some 0o007
  | 'a' => some 0o777
  | _ => none

/-- The bits of what may be done, for all classes. -/
def rightBits (isDirectory : Bool) (mode : Nat) : Char → Option Nat
  | 'r' => some 0o444
  | 'w' => some 0o222
  | 'x' => some 0o111
  | 'X' => some (if isDirectory || mode &&& 0o111 != 0 then 0o111 else 0)
  | 's' | 't' => some 0
  | _ => none

/-- One change: classes, a sign, rights. -/
def clause (isDirectory : Bool) (mask mode : Nat) (text : List Char) : Option Nat := do
  let who := text.takeWhile fun c => (classBits c).isSome
  let classes := if who.isEmpty then 0o777 &&& (0o777 ^^^ mask)
    else who.foldl (fun n c => n ||| (classBits c).getD 0) 0
  match text.drop who.length with
  | sign :: rights =>
    let bits ← rights.foldlM (fun n c => (rightBits isDirectory mode c).map (n ||| ·)) 0
    let bits := bits &&& classes
    match sign with
    | '+' => some (mode ||| bits)
    | '-' => some (mode &&& (0o777 ^^^ bits))
    | '=' => some ((mode &&& (0o777 ^^^ classes)) ||| bits)
    | _ => none
  | [] => none

def splitCommas (cs : List Char) : List (List Char) :=
  cs.foldr (fun c found => match found with
    | [] => if c == ',' then [[], []] else [[c]]
    | piece :: rest => if c == ',' then [] :: piece :: rest else (c :: piece) :: rest) []

/-- The permissions that a text makes of others. -/
def change? (isDirectory : Bool) (mask mode : Nat) (text : List Char) : Option Nat :=
  match Numeral.natural? 8 text with
  | some (n, []) => if n < 0o10000 then some (n % 0o1000) else none
  | _ =>
    if text.isEmpty then none
    else (splitCommas text).foldlM (fun m t => clause isDirectory mask m t) mode

end FirmwareMatrix.Shell.Permission
