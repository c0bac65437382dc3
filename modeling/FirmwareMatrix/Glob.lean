import FirmwareMatrix.Text.Utf8
import Std.Data.HashSet

/-! File-name patterns. A pattern is read into tokens and matched against the bytes of a path:
a question mark stands for one byte and a star for any number, separators included; two stars
between separators stand for any number of directories, none included; brackets hold a class of
bytes and braces hold alternatives. A matcher keeps every remainder that the tokens so far can
leave, so its work is bounded by the length of the path for each token. -/

namespace FirmwareMatrix

inductive Glob.Token where
  | literal (c : Char)
  | any
  | star
  /-- Two stars at the start: any number of leading directories. -/
  | leading
  /-- Two stars at the end: everything below. -/
  | trailing
  /-- Two stars between separators: any number of directories in between. -/
  | between
  | oneOf (negated : Bool) (ranges : List (Char × Char))
  | either (branches : List (List Glob.Token))

inductive Glob.Fault where
  | unclosedClass
  | invalidRange (low high : Char)
  | unopenedGroup
  | unclosedGroup
  | danglingEscape
  deriving DecidableEq, Repr

/-- A pattern: its text and what it was read as. -/
structure Glob where
  source : String
  tokens : List Glob.Token

namespace Glob

def Fault.message : Fault → String
  | unclosedClass => "unclosed character class; missing ']'"
  | invalidRange low high => "invalid range; '" ++ low.toString ++ "' > '" ++ high.toString ++ "'"
  | unopenedGroup =>
    "unopened alternate group; missing '\x7b' (maybe escape '\x7d' with '[\x7d]'?)"
  | unclosedGroup =>
    "unclosed alternate group; missing '\x7d' (maybe escape '\x7b' with '[\x7b]'?)"
  | danglingEscape => "dangling '\\'"

/-! ## Reading -/

/-- A group whose closing brace has not been read: the tokens before it and its finished
branches. -/
structure Group where
  before : List Token
  branches : List (List Token)

/-- How far a pattern has been read: the groups still open, innermost first, the tokens of the
sequence being read, and the last character taken. -/
structure Reader where
  groups : List Group
  current : List Token
  last : Option Char

namespace Reader

def push (r : Reader) (t : Token) (last : Char) : Reader :=
  { r with current := r.current ++ [t], last := some last }

/-- The second character of a range replaces the upper end of the range before it. -/
def closeRange : List (Char × Char) → Char → Except Fault (List (Char × Char))
  | [], c => .ok [(c, c)]
  | [(low, _)], c => if c < low then .error (.invalidRange low c) else .ok [(low, c)]
  | r :: rs, c => (closeRange rs c).map (r :: ·)

/-- The ranges of a class and the text after its closing bracket. A closing bracket or a dash
that comes first stands for itself, and so does a dash that comes last. -/
def readClass (isFirst inRange : Bool) (ranges : List (Char × Char)) :
    List Char → Except Fault (List (Char × Char) × List Char)
  | [] => .error .unclosedClass
  | c :: rest =>
    if c = ']' ∧ !isFirst then
      .ok (if inRange then ranges ++ [('-', '-')] else ranges, rest)
    else if c = '-' ∧ !isFirst ∧ !inRange then readClass false true ranges rest
    else if inRange ∧ c ≠ ']' then do readClass false false (← closeRange ranges c) rest
    else readClass false false (ranges ++ [(c, c)]) rest

/-- Two stars, the text after them being `rest`. They stand for directories only as a whole
step: after a separator or the start of a sequence, and before a separator or its end. -/
def readStars (r : Reader) (rest : List Char) : Reader × List Char :=
  let plain := ({ r with current := r.current ++ [.star, .star], last := some '*' }, rest)
  let inGroup := !r.groups.isEmpty
  if r.current.isEmpty then
    match rest with
    | [] => (r.push .leading '*', [])
    | '/' :: rest => (r.push .leading '/', rest)
    | _ => plain
  else if r.last ≠ some '/' ∧ !(inGroup ∧ (r.last = some ',' ∨ r.last = some '\x7b')) then plain
  else
    let replaceLast (t : Token) (last : Char) : Reader :=
      let t := match r.current.getLast? with
        | some .leading => .leading
        | some .trailing => .trailing
        | _ => t
      { r with current := r.current.dropLast ++ [t], last := some last }
    match rest with
    | [] => (replaceLast .trailing '*', [])
    | '/' :: rest => (replaceLast .between '/', rest)
    | c :: _ => if inGroup ∧ (c = ',' ∨ c = '\x7d') then (replaceLast .trailing '*', rest) else plain

/-- Reads the whole text; every step takes at least one character, so a fuel of the length of
the text suffices. -/
def readAll : Nat → Reader → List Char → Except Fault Reader
  | _, r, [] => .ok r
  | 0, r, _ => .ok r
  | fuel + 1, r, c :: rest =>
    match c with
    | '?' => readAll fuel (r.push .any c) rest
    | '*' =>
      match rest with
      | '*' :: rest =>
        let (r, rest) := readStars r rest
        readAll fuel r rest
      | _ => readAll fuel (r.push .star c) rest
    | '[' => do
      let (negated, body) := match rest with
        | '!' :: body => (true, body)
        | '^' :: body => (true, body)
        | body => (false, body)
      let (ranges, rest) ← readClass true false [] body
      readAll fuel (r.push (.oneOf negated ranges) ']') rest
    | '\x7b' =>
      readAll fuel { groups := ⟨r.current, []⟩ :: r.groups, current := [], last := some c } rest
    | '\x7d' =>
      match r.groups with
      | [] => .error .unopenedGroup
      | g :: groups =>
        let group := .either (g.branches ++ [r.current])
        readAll fuel { groups, current := g.before ++ [group], last := some c } rest
    | ',' =>
      match r.groups with
      | [] => readAll fuel (r.push (.literal c) c) rest
      | g :: groups =>
        let g := { g with branches := g.branches ++ [r.current] }
        readAll fuel { groups := g :: groups, current := [], last := some c } rest
    | '\\' =>
      match rest with
      | [] => .error .danglingEscape
      | c :: rest => readAll fuel (r.push (.literal c) c) rest
    | c => readAll fuel (r.push (.literal c) c) rest

end Reader

/-- Reads a pattern. -/
def read (source : String) : Except Fault Glob :=
  let cs := source.toList
  match Reader.readAll cs.length ⟨[], [], none⟩ cs with
  | .error e => .error e
  | .ok r => if r.groups.isEmpty then .ok ⟨source, r.current⟩ else .error .unclosedGroup

/-! ## Depth

A pattern is matched as a regular expression. Its depth is how far the parts of that lie within each
other: groups, alternatives, repetitions, classes and sequences of several parts each count. -/

/-- The depth of parts that follow each other. -/
def depthOfRow : List Nat → Nat
  | [] => 0
  | [d] => d
  | ds => ds.foldl max 0 + 1

/-- The number of members that a class is written with, a range counting as one; a character of
several bytes is one for each. -/
def memberCount (ranges : List (Char × Char)) : Nat :=
  ranges.foldl (fun n (low, high) =>
    n + if low = high then low.utf8Size else low.utf8Size + high.utf8Size - 1) 0

mutual

/-- The depths of the parts that a token adds to a row. -/
def Token.depths : Token → List Nat
  | .literal c => List.replicate c.utf8Size 0
  | .any => [0]
  | .star => [1]
  | .leading => [4]
  | .trailing => [0, 1]
  | .between => [4]
  | .oneOf _ ranges => [if memberCount ranges = 1 then 1 else 2]
  | .either branches =>
    match depthsOfBranches branches with
    | [] => []
    | branches => [depthOfRow branches + 1]

def depthsOfSequence : List Token → List Nat
  | [] => []
  | t :: ts => t.depths ++ depthsOfSequence ts

/-- The depths of the branches that are not blank. -/
def depthsOfBranches : List (List Token) → List Nat
  | [] => []
  | b :: branches =>
    match depthsOfSequence b with
    | [] => depthsOfBranches branches
    | row => depthOfRow row :: depthsOfBranches branches

end

/-- The depth of a whole pattern, which stands between two anchors. -/
def depth (g : Glob) : Nat :=
  match g.tokens with
  | [.leading] => 2
  | tokens => (depthsOfSequence tokens).foldl max 0 + 1

/-! ## Matching -/

/-- A class holds single bytes and ranges of bytes: a range between characters of several bytes
runs from the last byte of its low end to the first byte of its high end. -/
def classHolds (b : UInt8) : List (Char × Char) → Bool
  | [] => false
  | (low, high) :: rest =>
    let lows := String.utf8EncodeChar low
    let highs := String.utf8EncodeChar high
    let held :=
      if low = high then lows.contains b
      else lows.dropLast.contains b || highs.tail.contains b ||
        match lows.getLast?, highs.head? with
        | some l, some h => l ≤ b && b ≤ h
        | _, _ => false
    held || classHolds b rest

def slash : UInt8 := 0x2f

/-- What can follow a separator in `bs`. -/
def afterSlashes : List UInt8 → List (List UInt8)
  | [] => []
  | b :: bs => if b = slash then bs :: afterSlashes bs else afterSlashes bs

mutual

/-- A group whose branches are all blank adds nothing. -/
def Token.isBlank : Token → Bool
  | .either branches => allBlank branches
  | _ => false

def isBlankSequence : List Token → Bool
  | [] => true
  | t :: ts => t.isBlank && isBlankSequence ts

def allBlank : List (List Token) → Bool
  | [] => true
  | b :: bs => isBlankSequence b && allBlank bs

end

/-- What follows a separator at the start of `bs`. -/
def afterSlash : List UInt8 → Option (List UInt8)
  | [] => none
  | b :: bs => if b = slash then some bs else none

/-- What follows a byte at the start of `bs` that `holds` is true of. -/
def afterByte (holds : UInt8 → Bool) : List UInt8 → Option (List UInt8)
  | [] => none
  | b :: bs => if holds b then some bs else none

/-- What follows `cs` at the start of `bs`. -/
def afterBytes (cs bs : List UInt8) : Option (List UInt8) :=
  if cs.isPrefixOf bs then some (bs.drop cs.length) else none

def suffixes : List UInt8 → List (List UInt8)
  | [] => [[]]
  | b :: bs => (b :: bs) :: suffixes bs

/-- The members of a list, each once. -/
def distinct (all : List (List UInt8)) : List (List UInt8) := (Std.HashSet.ofList all).toList

mutual

/-- The remainders that `t` can leave of any of `all`. -/
def Token.rests : Token → List (List UInt8) → List (List UInt8)
  | .literal c, all => all.filterMap (afterBytes (String.utf8EncodeChar c))
  | .any, all => all.filterMap (afterByte fun _ => true)
  | .star, all => all.flatMap suffixes
  | .leading, all => all ++ all.flatMap afterSlashes
  | .trailing, all => (all.filterMap afterSlash).flatMap suffixes
  | .between, all =>
    let below := all.filterMap afterSlash
    below ++ below.flatMap afterSlashes
  | .oneOf negated ranges, all =>
    all.filterMap (afterByte fun b => classHolds b ranges != negated)
  | .either branches, all => if allBlank branches then all else restsOfBranches branches all

/-- The remainders that a sequence can leave of any of `all`, each once. -/
def restsOfSequence : List Token → List (List UInt8) → List (List UInt8)
  | [], all => all
  | t :: ts, all => restsOfSequence ts (distinct (t.rests all))

/-- The remainders that a branch can leave of any of `all`; blank branches do not count. -/
def restsOfBranches : List (List Token) → List (List UInt8) → List (List UInt8)
  | [], _ => []
  | b :: branches, all =>
    (if isBlankSequence b then [] else restsOfSequence b all) ++ restsOfBranches branches all

end

/-- Whether the pattern covers the whole of `bs`; two stars alone cover everything. -/
def matchesBytes (g : Glob) (bs : List UInt8) : Bool :=
  match g.tokens with
  | [.leading] => true
  | tokens => (restsOfSequence tokens [bs]).contains []

def «matches» (g : Glob) (path : String) : Bool := g.matchesBytes (Text.Utf8.encode path.toList)

/-! ## Compilers -/

/-- What makes a matcher of a pattern that was read. -/
structure Compiler where
  /-- Whether there is a matcher; a pattern without one ends the program. -/
  compiles : Glob → Bool
  /-- The texts that the matcher takes. -/
  accepts : Glob → String → Bool

/-- The greatest depth that `Compiler.nesting` compiles. -/
def deepest : Nat := 250

/-- The compiler that searches use. It refuses patterns for their depth alone; a compiler that also
limits the size of a matcher is another one. -/
def Compiler.nesting : Compiler where
  compiles g := g.depth ≤ deepest
  accepts := Glob.matches

@[simp] theorem Compiler.nesting_accepts (g : Glob) : Compiler.nesting.accepts g = g.matches := rfl

end Glob

end FirmwareMatrix
