/-! UTF-8 as a byte-driven machine. A state holds the unfinished sequence, each byte either
extends it, completes it or ends it as malformed, and a malformed sequence is never longer than
the longest prefix some well-formed sequence has. Reading strictly reports the first malformed
sequence and where it starts; reading leniently writes one replacement character for each. Main
statement: what follows a line feed is read as if it stood alone, so reading line by line gives
the same characters as reading the whole. -/

namespace FirmwareMatrix.Text.Utf8

/-- The bytes of some characters. -/
def encode (cs : List Char) : List UInt8 := cs.flatMap String.utf8EncodeChar

/-- What a run of bytes is read as. -/
inductive Piece where
  | scalar (c : Char)
  /-- A sequence of this many bytes that nothing can complete. -/
  | malformed (width : Nat)
  /-- A sequence of this many bytes that the end of the input cuts off. -/
  | truncated (width : Nat)
  deriving DecidableEq, Repr

/-- The unfinished sequence: how many bytes it holds, how many it still needs, the range its next
byte has to lie in, and the bits gathered so far. -/
inductive State where
  | idle
  | within (held need : Nat) (low high : UInt8) (bits : Nat)
  deriving DecidableEq, Repr

/-- A byte that starts a sequence. -/
def start (b : UInt8) : List Piece × State :=
  let n := b.toNat
  if n < 0x80 then ([.scalar (Char.ofNat n)], .idle)
  else if 0xc2 ≤ n ∧ n ≤ 0xdf then ([], .within 1 1 0x80 0xbf (n - 0xc0))
  else if n = 0xe0 then ([], .within 1 2 0xa0 0xbf 0)
  else if n = 0xed then ([], .within 1 2 0x80 0x9f 0xd)
  else if 0xe1 ≤ n ∧ n ≤ 0xef then ([], .within 1 2 0x80 0xbf (n - 0xe0))
  else if n = 0xf0 then ([], .within 1 3 0x90 0xbf 0)
  else if 0xf1 ≤ n ∧ n ≤ 0xf3 then ([], .within 1 3 0x80 0xbf (n - 0xf0))
  else if n = 0xf4 then ([], .within 1 3 0x80 0x8f 4)
  else ([.malformed 1], .idle)

/-- One byte read: a byte that cannot extend the sequence ends it and starts the next. -/
def feed : State → UInt8 → List Piece × State
  | .idle, b => start b
  | .within held need low high bits, b =>
    if low ≤ b ∧ b ≤ high then
      let bits := bits * 64 + (b.toNat - 0x80)
      if need = 1 then ([.scalar (Char.ofNat bits)], .idle)
      else ([], .within (held + 1) (need - 1) 0x80 0xbf bits)
    else
      let (pieces, s) := start b
      (.malformed held :: pieces, s)

/-- What is left at the end of the input. -/
def finish : State → List Piece
  | .idle => []
  | .within held _ _ _ _ => [.truncated held]

/-- The pieces read from `s` on. -/
def piecesFrom : State → List UInt8 → List Piece
  | s, [] => finish s
  | s, b :: bs => (feed s b).1 ++ piecesFrom (feed s b).2 bs

def pieces (bs : List UInt8) : List Piece := piecesFrom .idle bs

/-- The replacement character stands for every piece that is no character. -/
def Piece.lenient : Piece → Char
  | .scalar c => c
  | .malformed _ | .truncated _ => '\uFFFD'

def decodeLossy (bs : List UInt8) : List Char := (pieces bs).map Piece.lenient

/-- Where strict reading stops: the position of the sequence and, unless the input ends within
it, its width. -/
structure Fault where
  position : Nat
  width : Option Nat
  deriving DecidableEq, Repr

def Fault.message (f : Fault) : String :=
  match f.width with
  | some n => s!"invalid utf-8 sequence of {n} bytes from index {f.position}"
  | none => s!"incomplete utf-8 byte sequence from index {f.position}"

/-- The characters of `ps`, or the first fault, for pieces that start at `position`. -/
def strict (position : Nat) : List Piece → Except Fault (List Char)
  | [] => .ok []
  | .scalar c :: ps => (strict (position + c.utf8Size) ps).map (c :: ·)
  | .malformed width :: _ => .error ⟨position, some width⟩
  | .truncated _ :: _ => .error ⟨position, none⟩

def decode (bs : List UInt8) : Except Fault (List Char) := strict 0 (pieces bs)

/-- Every state that bytes lead to wants a next byte of the upper half. -/
def State.Upper : State → Prop
  | .idle => True
  | .within _ _ low _ _ => 0x80 ≤ low

theorem upper_start (b : UInt8) : (start b).2.Upper := by
  unfold start
  grind [State.Upper]

theorem upper_feed (s : State) (b : UInt8) : (feed s b).2.Upper := by
  have h := upper_start b
  unfold feed
  grind [State.Upper]

/-- A line feed ends whatever sequence stands before it. -/
theorem piecesFrom_append_newline (s : State) (as bs : List UInt8) (hs : s.Upper) :
    (piecesFrom s (as ++ 0x0a :: bs)).map Piece.lenient =
      (piecesFrom s as).map Piece.lenient ++ '\n' :: decodeLossy bs := by
  induction as generalizing s with
  | nil =>
    cases s with
    | idle => rfl
    | within held need low high bits =>
      have hlow : ¬ low ≤ 0x0a := by
        simp only [State.Upper, UInt8.le_iff_toNat_le] at hs ⊢
        have h1 : (0x80 : UInt8).toNat = 128 := rfl
        have h2 : (0x0a : UInt8).toNat = 10 := rfl
        omega
      simp only [List.nil_append, piecesFrom, feed, finish, hlow, false_and, ↓reduceIte]
      rfl
  | cons a as ih => simp [piecesFrom, ih _ (upper_feed s a)]

theorem decodeLossy_append_newline (as bs : List UInt8) :
    decodeLossy (as ++ 0x0a :: bs) = decodeLossy as ++ '\n' :: decodeLossy bs :=
  piecesFrom_append_newline .idle as bs trivial

end FirmwareMatrix.Text.Utf8
