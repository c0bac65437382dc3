import FirmwareMatrix.Text.Blank

/-! Digests of messages of bytes: words are kept as natural numbers below a power of two, a message is
padded to whole blocks of sixteen words, and each block is mixed into a state. The constants of the
younger digests are the first bits of the fractions of roots of prime numbers. -/

namespace FirmwareMatrix.Shell.Digest

/-- The largest number of so many bits. -/
def ones (bits : Nat) : Nat := Nat.pow 2 bits - 1

def rotateLeft (bits n x : Nat) : Nat := ((x <<< n) ||| (x >>> (bits - n))) &&& ones bits

def rotateRight (bits n x : Nat) : Nat := rotateLeft bits (bits - n) x

/-- The bits that a word does not have. -/
def flipped (bits x : Nat) : Nat := ones bits - x

/-- The lowest bytes of a number, lowest first. -/
def lowBytes : Nat → Nat → List Nat
  | 0, _ => []
  | count + 1, n => n % 256 :: lowBytes count (n / 256)

/-- How the bytes of a word follow each other. -/
inductive Order where
  | lowFirst
  | highFirst
  deriving DecidableEq, Repr

def Order.bytes (o : Order) (count n : Nat) : List Nat :=
  match o with
  | lowFirst => lowBytes count n
  | highFirst => (lowBytes count n).reverse

def Order.word (o : Order) (bytes : List Nat) : Nat :=
  let highFirst := match o with
    | lowFirst => bytes.reverse
    | highFirst => bytes
  highFirst.foldl (fun n b => n * 256 + b) 0

/-- A list in pieces of `size`; the last one may be shorter. -/
def pieces {α : Type} (size : Nat) : Nat → List α → List (List α)
  | 0, _ => []
  | _, [] => []
  | fuel + 1, xs => xs.take size :: pieces size fuel (xs.drop size)

/-- A message in whole blocks of sixteen words: behind it stand a one bit, zeros and its length in
bits, which takes two words. -/
def blocks (o : Order) (wordBytes : Nat) (message : List Nat) : List (Array Nat) :=
  let size := 16 * wordBytes
  let tail := 2 * wordBytes
  let zeros := (size - (message.length + 1 + tail) % size) % size
  let all := message ++ 0x80 :: List.replicate zeros 0 ++ o.bytes tail (8 * message.length)
  (pieces size (all.length + 1) all).map fun block =>
    ((pieces wordBytes (size + 1) block).map o.word).toArray

def nth (words : Array Nat) (i : Nat) : Nat := (words[i]?).getD 0

/-- Adds two states word by word. -/
def added (bits : Nat) (a b : List Nat) : List Nat := a.zipWith (fun x y => (x + y) &&& ones bits) b

/-! ## Sixteen bytes -/

def sines : Array Nat := #[
  0xd76aa478, 0xe8c7b756, 0x242070db, 0xc1bdceee, 0xf57c0faf, 0x4787c62a, 0xa8304613, 0xfd469501,
  0x698098d8, 0x8b44f7af, 0xffff5bb1, 0x895cd7be, 0x6b901122, 0xfd987193, 0xa679438e, 0x49b40821,
  0xf61e2562, 0xc040b340, 0x265e5a51, 0xe9b6c7aa, 0xd62f105d, 0x02441453, 0xd8a1e681, 0xe7d3fbc8,
  0x21e1cde6, 0xc33707d6, 0xf4d50d87, 0x455a14ed, 0xa9e3e905, 0xfcefa3f8, 0x676f02d9, 0x8d2a4c8a,
  0xfffa3942, 0x8771f681, 0x6d9d6122, 0xfde5380c, 0xa4beea44, 0x4bdecfa9, 0xf6bb4b60, 0xbebfbc70,
  0x289b7ec6, 0xeaa127fa, 0xd4ef3085, 0x04881d05, 0xd9d4d039, 0xe6db99e5, 0x1fa27cf8, 0xc4ac5665,
  0xf4292244, 0x432aff97, 0xab9423a7, 0xfc93a039, 0x655b59c3, 0x8f0ccc92, 0xffeff47d, 0x85845dd1,
  0x6fa87e4f, 0xfe2ce6e0, 0xa3014314, 0x4e0811a1, 0xf7537e82, 0xbd3af235, 0x2ad7d2bb, 0xeb86d391]

def turns : Array Nat := #[7, 12, 17, 22, 5, 9, 14, 20, 4, 11, 16, 23, 6, 10, 15, 21]

/-- One of the sixty-four steps of mixing a block. -/
def step5 (block : Array Nat) (state : List Nat) (i : Nat) : List Nat :=
  match state with
  | [a, b, c, d] =>
    let (mix, j) := match i / 16 with
      | 0 => ((b &&& c) ||| (flipped 32 b &&& d), i)
      | 1 => ((d &&& b) ||| (flipped 32 d &&& c), 5 * i + 1)
      | 2 => (b ^^^ c ^^^ d, 3 * i + 5)
      | _ => (c ^^^ (b ||| flipped 32 d), 7 * i)
    let sum := (a + mix + nth sines i + nth block (j % 16)) &&& ones 32
    [d, (b + rotateLeft 32 (nth turns (i / 16 * 4 + i % 4)) sum) &&& ones 32, b, c]
  | _ => state

/-- The MD5 digest. -/
def md5 (message : List Nat) : List Nat :=
  let mixed := (blocks .lowFirst 4 message).foldl (fun state block =>
    added 32 state ((List.range 64).foldl (step5 block) state))
    [0x67452301, 0xefcdab89, 0x98badcfe, 0x10325476]
  mixed.flatMap (Order.bytes .lowFirst 4)

/-! ## Twenty bytes -/

/-- The block's words and those that follow from them, `rounds` in all. -/
def schedule (next : Array Nat → Nat → Nat) (rounds : Nat) (block : Array Nat) : Array Nat :=
  (List.range (rounds - 16)).foldl (fun words i => words.push (next words (i + 16))) block

def step1 (words : Array Nat) (state : List Nat) (i : Nat) : List Nat :=
  match state with
  | [a, b, c, d, e] =>
    let (mix, k) := match i / 20 with
      | 0 => ((b &&& c) ||| (flipped 32 b &&& d), 0x5a827999)
      | 1 => (b ^^^ c ^^^ d, 0x6ed9eba1)
      | 2 => ((b &&& c) ||| (b &&& d) ||| (c &&& d), 0x8f1bbcdc)
      | _ => (b ^^^ c ^^^ d, 0xca62c1d6)
    [(rotateLeft 32 5 a + mix + e + k + nth words i) &&& ones 32, a, rotateLeft 32 30 b, c, d]
  | _ => state

/-- The SHA-1 digest. -/
def sha1 (message : List Nat) : List Nat :=
  let next (words : Array Nat) (i : Nat) : Nat :=
    rotateLeft 32 1 (nth words (i - 3) ^^^ nth words (i - 8) ^^^ nth words (i - 14) ^^^
      nth words (i - 16))
  let mixed := (blocks .highFirst 4 message).foldl (fun state block =>
    added 32 state ((List.range 80).foldl (step1 (schedule next 80 block)) state))
    [0x67452301, 0xefcdab89, 0x98badcfe, 0x10325476, 0xc3d2e1f0]
  mixed.flatMap (Order.bytes .highFirst 4)

/-! ## From roots of primes -/

def isPrime (n : Nat) : Bool := 2 ≤ n && (List.range n).all fun d => d < 2 || n % d != 0

/-- The first eighty primes. -/
def primes : List Nat := (List.range 410).filter isPrime

/-- The largest number of at most `bits` bits whose power does not exceed `n`. -/
def rootBelow (power bits n : Nat) : Nat :=
  (List.range bits).reverse.foldl (fun root i =>
    let larger := root + 1 <<< i
    if Nat.pow larger power ≤ n then larger else root) 0

/-- The first bits of the fraction of a root of a number below 1024. -/
def fractionOfRoot (power bits n : Nat) : Nat :=
  rootBelow power (bits + 5) (n <<< (power * bits)) &&& ones bits

/-- What tells the digests of this kind apart. -/
structure Mixing where
  wordBytes : Nat
  rounds : Nat
  start : List Nat
  /-- Turns of the words that enter a round, then of those that the schedule is made of; of the
  latter the last one is a shift. -/
  first : Nat × Nat × Nat
  fifth : Nat × Nat × Nat
  older : Nat × Nat × Nat
  newer : Nat × Nat × Nat

namespace Mixing

def bits (m : Mixing) : Nat := 8 * m.wordBytes

def turned (m : Mixing) (amounts : Nat × Nat × Nat) (x : Nat) : Nat :=
  rotateRight m.bits amounts.1 x ^^^ rotateRight m.bits amounts.2.1 x ^^^ rotateRight m.bits amounts.2.2 x

def shifted (m : Mixing) (amounts : Nat × Nat × Nat) (x : Nat) : Nat :=
  rotateRight m.bits amounts.1 x ^^^ rotateRight m.bits amounts.2.1 x ^^^ (x >>> amounts.2.2)

def next (m : Mixing) (words : Array Nat) (i : Nat) : Nat :=
  (nth words (i - 16) + m.shifted m.older (nth words (i - 15)) + nth words (i - 7) +
    m.shifted m.newer (nth words (i - 2))) &&& ones m.bits

def step (m : Mixing) (constants words : Array Nat) (state : List Nat) (i : Nat) : List Nat :=
  match state with
  | [a, b, c, d, e, f, g, h] =>
    let choice := (e &&& f) ^^^ (flipped m.bits e &&& g)
    let sum := h + m.turned m.fifth e + choice + nth constants i + nth words i
    let majority := (a &&& b) ^^^ (a &&& c) ^^^ (b &&& c)
    [(sum + m.turned m.first a + majority) &&& ones m.bits, a, b, c, (d + sum) &&& ones m.bits,
      e, f, g]
  | _ => state

/-- The whole state at the end of a message. -/
def digest (m : Mixing) (message : List Nat) : List Nat :=
  let constants := ((primes.take m.rounds).map (fractionOfRoot 3 m.bits)).toArray
  let mixed := (blocks .highFirst m.wordBytes message).foldl (fun state block =>
    added m.bits state
      ((List.range m.rounds).foldl (m.step constants (schedule m.next m.rounds block)) state)) m.start
  mixed.flatMap (Order.bytes .highFirst m.wordBytes)

def small (start : List Nat) : Mixing :=
  { wordBytes := 4, rounds := 64, start
    first := (2, 13, 22), fifth := (6, 11, 25), older := (7, 18, 3), newer := (17, 19, 10) }

def large (start : List Nat) : Mixing :=
  { wordBytes := 8, rounds := 80, start
    first := (28, 34, 39), fifth := (14, 18, 41), older := (1, 8, 7), newer := (19, 61, 6) }

end Mixing

def firstRoots (bits : Nat) : List Nat := (primes.take 8).map (fractionOfRoot 2 bits)

def secondRoots (bits : Nat) : List Nat := ((primes.drop 8).take 8).map (fractionOfRoot 2 bits)

def sha256 (message : List Nat) : List Nat := (Mixing.small (firstRoots 32)).digest message

def sha224 (message : List Nat) : List Nat :=
  ((Mixing.small ((secondRoots 64).map (· &&& ones 32))).digest message).take 28

def sha512 (message : List Nat) : List Nat := (Mixing.large (firstRoots 64)).digest message

def sha384 (message : List Nat) : List Nat := ((Mixing.large (secondRoots 64)).digest message).take 48

/-! ## Sums -/

/-- One byte into a cyclic redundancy check of thirty-two bits. -/
def checked (crc byte : Nat) : Nat :=
  (List.range 8).foldl (fun crc _ =>
    if crc >>> 31 = 1 then ((crc <<< 1) &&& ones 32) ^^^ 0x04c11db7 else crc <<< 1)
    (crc ^^^ (byte <<< 24))

/-- The check of a message, with its length behind it. -/
def crc (message : List Nat) : Nat :=
  let length := lowBytes 8 message.length
  let length := (length.reverse.dropWhile (· == 0)).reverse
  flipped 32 ((message ++ length).foldl checked 0)

/-- A sum of sixteen bits that is turned before each byte. -/
def turnedSum (message : List Nat) : Nat :=
  message.foldl (fun sum b => ((sum >>> 1) + ((sum &&& 1) <<< 15) + b) &&& ones 16) 0

/-- The sum of all bytes, folded to sixteen bits. -/
def foldedSum (message : List Nat) : Nat :=
  let sum := message.foldl (· + ·) 0 &&& ones 32
  let sum := (sum &&& ones 16) + (sum >>> 16)
  (sum &&& ones 16) + (sum >>> 16)

/-- Bytes as pairs of hexadecimal digits. -/
def hexadecimal (bytes : List Nat) : String :=
  String.ofList (bytes.flatMap fun b => [Nat.digitChar (b / 16), Nat.digitChar (b % 16)])

end FirmwareMatrix.Shell.Digest
