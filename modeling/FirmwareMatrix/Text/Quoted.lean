import FirmwareMatrix.Text.Native
import FirmwareMatrix.Text.Printable

/-! Text in double quotes, as messages show a path: quotes and backslashes are escaped, and so is
every character that would not show by itself and every byte that belongs to no character. -/

namespace FirmwareMatrix.Text.Quoted

/-- How a character is written between the quotes. -/
def escape (c : Char) : List Char :=
  if c = '\x00' then ['\\', '0']
  else if c = '\t' then ['\\', 't']
  else if c = '\r' then ['\\', 'r']
  else if c = '\n' then ['\\', 'n']
  else if c = '\\' then ['\\', '\\']
  else if c = '"' then ['\\', '"']
  else if isPrintable c then [c]
  else ['\\', 'u', '\x7b'] ++ Nat.toDigits 16 c.toNat ++ ['\x7d']

/-- How a byte that belongs to no character is written; it is none of the lower half. -/
def escapeByte (b : UInt8) : List Char :=
  '\\' :: 'x' :: (Nat.toDigits 16 b.toNat).map Char.toUpper

/-- What bytes are read as, written piece by piece. -/
def escapePieces : List Utf8.Piece → List UInt8 → List Char
  | [], _ => []
  | .scalar c :: ps, bs => escape c ++ escapePieces ps (bs.drop c.utf8Size)
  | .malformed width :: ps, bs | .truncated width :: ps, bs =>
    (bs.take width).flatMap escapeByte ++ escapePieces ps (bs.drop width)

def quote (t : NativeText) : String :=
  let between := match t with
    | .text s => s.toList.flatMap escape
    | .stray b => escapePieces (Utf8.pieces b.bytes) b.bytes
  String.ofList ('"' :: between ++ ['"'])

end FirmwareMatrix.Text.Quoted
