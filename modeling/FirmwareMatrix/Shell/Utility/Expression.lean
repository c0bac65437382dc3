import FirmwareMatrix.Shell.Numeral
import FirmwareMatrix.Shell.Pattern

/-! Regular expressions in two notations: the basic one, where a backslash gives parentheses,
braces and some other signs their meaning, and the extended one, where it takes it away. Of all
matches the leftmost counts, and of those that start there the longest. -/

namespace FirmwareMatrix.Shell.Utility

open Pattern (Member)

inductive Expression where
  | empty
  | char (c : Char)
  | any
  | set (inverted : Bool) (members : List Member)
  /-- The start of the text, or its end. -/
  | start
  | stop
  /-- Places where a word starts, where it ends, where it does either or neither. -/
  | wordStart
  | wordStop
  | wordEdge
  | noEdge
  | group (n : Nat) (e : Expression)
  | seq (a b : Expression)
  | either (a b : Expression)
  | times (e : Expression) (low : Nat) (high : Option Nat)
  /-- What a group has matched, once more. -/
  | again (n : Nat)
  deriving Repr

namespace Expression

/-! ## Matching -/

/-- How far a match has come, and what its groups have matched, by start and end. -/
structure Progress where
  position : Nat
  groups : List (Nat × Nat × Nat)

/-- A text, and whether upper and lower case are the same. -/
structure Subject where
  text : Array Char
  folds : Bool

def isWord (c : Char) : Bool := c.isAlphanum || c == '_'

def Subject.isWordAt (s : Subject) (i : Nat) : Bool := (s.text[i]?).any isWord

def Subject.same (s : Subject) (c d : Char) : Bool :=
  c == d || (s.folds && c.toLower == d.toLower)

def Subject.inSet (s : Subject) (members : List Member) (c : Char) : Bool :=
  members.any (Member.admits c) ||
    (s.folds && (members.any (Member.admits c.toLower) || members.any (Member.admits c.toUpper)))

/-- Whether an expression stands for one character, and which. -/
def single? (s : Subject) : Expression → Option (Char → Bool)
  | char c => some (s.same c)
  | any => some fun _ => true
  | set inverted members => some fun c => s.inSet members c != inverted
  | _ => none

/-- One of each position; the first counts. -/
def distinct (n : Nat) (ps : List Progress) : List Progress :=
  ((ps.foldl (fun (state : Array Bool × List Progress) p =>
    if (state.1[p.position]?).getD false then state
    else (state.1.setIfInBounds p.position true, p :: state.2))
    (Array.replicate (n + 1) false, []))).2.reverse

/-- Something repeated, as often as it can be first. -/
def repeated (n : Nat) (step : Progress → List Progress) (low : Nat) (high : Option Nat) :
    Nat → Progress → List Progress
  | 0, p => if low = 0 then [p] else []
  | fuel + 1, p =>
    let more := if high == some 0 then []
      else ((step p).filter fun q => q.position != p.position || low > 0).flatMap
        (repeated n step (low - 1) (high.map (· - 1)) fuel)
    distinct n (more ++ if low = 0 then [p] else [])

/-- How many characters from a position on a test admits. -/
def runLength (text : Array Char) (admits : Char → Bool) : Nat → Nat → Nat
  | 0, _ => 0
  | fuel + 1, i =>
    match text[i]? with
    | some c => if admits c then runLength text admits fuel (i + 1) + 1 else 0
    | none => 0

/-- All the ways in which an expression matches from a position on, the preferred ones first. -/
def ends (s : Subject) : Expression → Progress → List Progress
  | empty, p => [p]
  | char c, p =>
    if (s.text[p.position]?).any (s.same c) then [{ p with position := p.position + 1 }] else []
  | any, p => if p.position < s.text.size then [{ p with position := p.position + 1 }] else []
  | set inverted members, p =>
    if (s.text[p.position]?).any fun c => s.inSet members c != inverted then
      [{ p with position := p.position + 1 }]
    else []
  | start, p => if p.position = 0 then [p] else []
  | stop, p => if p.position = s.text.size then [p] else []
  | wordStart, p =>
    if s.isWordAt p.position && !(p.position != 0 && s.isWordAt (p.position - 1)) then [p] else []
  | wordStop, p =>
    if !s.isWordAt p.position && p.position != 0 && s.isWordAt (p.position - 1) then [p] else []
  | wordEdge, p =>
    if s.isWordAt p.position != (p.position != 0 && s.isWordAt (p.position - 1)) then [p] else []
  | noEdge, p =>
    if s.isWordAt p.position == (p.position != 0 && s.isWordAt (p.position - 1)) then [p] else []
  | group n e, p =>
    (ends s e p).map fun q =>
      { q with groups := (n, p.position, q.position) :: q.groups.filter (·.1 != n) }
  | seq a b, p => distinct s.text.size ((ends s a p).flatMap (ends s b))
  | either a b, p => distinct s.text.size (ends s a p ++ ends s b p)
  | times e low high, p =>
    match single? s e with
    | some admits =>
      let longest := runLength s.text admits (s.text.size + 1) p.position
      let longest := match high with
        | some n => min n longest
        | none => longest
      ((List.range (longest + 1)).reverse.filter (low ≤ ·)).map fun k =>
        { p with position := p.position + k }
    | none => repeated s.text.size (ends s e) low high (s.text.size + low + 1) p
  | again n, p =>
    match p.groups.find? (·.1 == n) with
    | none => []
    | some (_, low, high) =>
      let part := s.text.extract low high
      let here := s.text.extract p.position (p.position + part.size)
      if here.size == part.size && (here.zip part).all fun (c, d) => s.same c d then
        [{ p with position := p.position + part.size }]
      else []

/-- A match: where it starts and ends, and what its groups have matched. -/
structure Match where
  low : Nat
  high : Nat
  groups : List (Nat × Nat × Nat)

/-- The longest match from a position on. -/
def matchAt? (e : Expression) (s : Subject) (i : Nat) : Option Match :=
  match ends s e ⟨i, []⟩ with
  | [] => none
  | p :: ps =>
    let best := ps.foldl (fun (best : Progress) q => if best.position < q.position then q else best) p
    some ⟨i, best.position, best.groups⟩

/-- The first match from a position on. -/
def find? (e : Expression) (s : Subject) : Nat → Nat → Option Match
  | 0, _ => none
  | fuel + 1, i =>
    if s.text.size < i then none
    else match matchAt? e s i with
      | some m => some m
      | none => find? e s fuel (i + 1)

def search? (e : Expression) (folds : Bool) (text : List Char) (start : Nat) : Option Match :=
  find? e ⟨text.toArray, folds⟩ (text.length + 1) start

/-! ## Reading -/

/-- Why a text is no expression. -/
inductive Fault where
  | openBracket
  | openGroup
  | closedGroup
  | openBrace
  | badBrace
  | nothingRepeated
  | trailingBackslash
  | noGroup
  | badClass
  | badRange
  | incomplete
  deriving DecidableEq, Repr

def Fault.message : Fault → String
  | openBracket => "Unmatched [, [^, [:, [., or [="
  | openGroup => "Unmatched ( or \\("
  | closedGroup => "Unmatched ) or \\)"
  | openBrace => "Unmatched \\\x7b"
  | badBrace => "Invalid content of \\\x7b\\\x7d"
  | nothingRepeated => "Invalid preceding regular expression"
  | trailingBackslash => "Trailing backslash"
  | noGroup => "Invalid back reference"
  | badClass => "Invalid character class name"
  | badRange => "Invalid range end"
  | incomplete => "Invalid regular expression"

/-- The members of a bracket up to the closing one. -/
def bracket (first : Bool) : Nat → List Char → Except Fault (List Member × List Char)
  | 0, _ => .error .openBracket
  | _, [] => .error .openBracket
  | fuel + 1, c :: cs => do
    if c == ']' && !first then return ([], cs)
    let add (m : Member) (rest : List Char) : Except Fault (List Member × List Char) := do
      let (ms, rest) ← bracket false fuel rest
      return (m :: ms, rest)
    let named : Option (Member × List Char) :=
      if c == '[' then
        match Pattern.class? (cs.map fun d => (d, false)) with
        | some (name, rest) => some (.named name, rest.map Prod.fst)
        | none =>
          match cs with
          | '=' :: d :: '=' :: ']' :: rest => some (.range d d, rest)
          | '.' :: d :: '.' :: ']' :: rest => some (.range d d, rest)
          | _ => none
      else none
    match named, cs with
    | some (m, rest), _ => add m rest
    | none, ':' :: rest =>
      if c == '[' && ((rest.dropWhile Char.isAlpha).take 2) == [':', ']'] then throw .badClass
      add (.range c c) cs
    | none, '-' :: high :: rest =>
      if high == ']' then add (.range c c) cs
      else if high < c then throw .badRange
      else add (.range c high) rest
    | none, cs => add (.range c c) cs

def wordMembers : List Member := [.named "alnum", .range '_' '_']

def spaceMembers : List Member := [.named "space"]

/-- A sign with a meaning of its own. -/
inductive Sign where
  | open_
  | close
  | bar
  | star
  | plus
  | question
  | brace
  | ordinary (e : Expression)

/-- How many groups have been opened, and what is still to be read. -/
structure Scan where
  rest : List Char
  groups : Nat

abbrev Reading := EStateM Fault Scan

/-- What a letter after a backslash stands for in both notations. -/
def named? (c : Char) : Option Expression :=
  match c with
  | 'w' => some (.set false wordMembers)
  | 'W' => some (.set true wordMembers)
  | 's' => some (.set false spaceMembers)
  | 'S' => some (.set true spaceMembers)
  | '<' => some .wordStart
  | '>' => some .wordStop
  | 'b' => some .wordEdge
  | 'B' => some .noEdge
  | '\'' => some .stop
  | c => if c == '\x60' then some .start else none

/-- Whether a dollar sign here stands for the end: nothing, or something that closes, follows. -/
def endsBranch (extended : Bool) (cs : List Char) : Bool :=
  extended || match cs with
    | [] => true
    | '\\' :: ')' :: _ | '\\' :: '|' :: _ => true
    | _ => false

/-- The next sign. `first` says that a branch starts here, and `bare` that there is nothing to
repeat yet. -/
def sign (extended first bare : Bool) : Reading (Option Sign) := do
  let s ← get
  let take (rest : List Char) (x : Sign) : Reading (Option Sign) := do
    modify fun s => { s with rest }
    return some x
  match s.rest with
  | [] => return none
  | '\\' :: cs =>
    match cs with
    | [] => throw .trailingBackslash
    | c :: rest =>
      if !extended && c == '(' then take rest .open_
      else if !extended && c == ')' then take rest .close
      else if !extended && c == '|' then take rest .bar
      else if !extended && c == '+' then take rest .plus
      else if !extended && c == '?' then take rest .question
      else if !extended && c == '\x7b' then take rest .brace
      else if c.isDigit && c != '0' then
        if c.toNat - 48 ≤ s.groups then take rest (.ordinary (.again (c.toNat - 48)))
        else throw .noGroup
      else match named? c with
        | some e => take rest (.ordinary e)
        | none => take rest (.ordinary (.char (if c == 'n' then '\n' else c)))
  | '[' :: cs =>
    let (inverted, body) := match cs with
      | '^' :: body => (true, body)
      | body => (false, body)
    if body.isEmpty then throw .incomplete
    match bracket true (body.length + 1) body with
    | .ok (ms, rest) => take rest (.ordinary (.set inverted ms))
    | .error f => throw f
  | c :: rest =>
    match c with
    | '.' => take rest (.ordinary .any)
    | '*' => take rest (if bare && !extended then .ordinary (.char '*') else .star)
    | '^' => take rest (.ordinary (if first || extended then .start else .char '^'))
    | '$' => take rest (.ordinary (if endsBranch extended rest then .stop else .char '$'))
    | c =>
      if extended && c == '(' then take rest .open_
      else if extended && c == ')' then take rest .close
      else if extended && c == '|' then take rest .bar
      else if extended && c == '+' then take rest .plus
      else if extended && c == '?' then take rest .question
      else if extended && c == '\x7b' then take rest .brace
      else take rest (.ordinary (.char c))

/-- The bounds between braces. -/
def bounds (extended : Bool) : Reading (Option (Nat × Option Nat)) := do
  let s ← get
  let (low, rest) := match Numeral.natural? 10 s.rest with
    | some (n, rest) => (some n, rest)
    | none => (none, s.rest)
  let (high, rest) : Option (Option Nat) × List Char := match rest with
    | ',' :: rest =>
      match Numeral.natural? 10 rest with
      | some (n, rest) => (some (some n), rest)
      | none => (some none, rest)
    | rest => (low.map some, rest)
  let closing := if extended then ['\x7d'] else ['\\', '\x7d']
  match high with
  | none =>
    if extended then return none else throw (if rest.isEmpty then .openBrace else .badBrace)
  | some high =>
    if rest.take closing.length == closing then
      modify fun s => { s with rest := rest.drop closing.length }
      if high.any (· < low.getD 0) then throw .badBrace
      return some (low.getD 0, high)
    else if extended then return none
    else throw (if rest.contains '\x7d' then .badBrace else .openBrace)

/-- Joins an expression with one before it. -/
def joined (before : Option Expression) (e : Expression) : Option Expression :=
  match before with
  | none => some e
  | some b => some (.seq b e)

mutual

/-- Branches up to a closing parenthesis or the end; the result says which. -/
def branches (extended nested : Bool) : Nat → Reading Expression
  | 0 => throw .openGroup
  | fuel + 1 => do
    let (e, next) ← branch extended nested none none fuel
    match next with
    | some .bar => return .either e (← branches extended nested fuel)
    | some _ => return e
    | none => if nested then throw .openGroup else return e

/-- One branch: what came before its last piece, that piece, and the sign that ends the branch. -/
def branch (extended nested : Bool) (before last : Option Expression) :
    Nat → Reading (Expression × Option Sign)
  | 0 => throw .openGroup
  | fuel + 1 => do
    let settled := match last with
      | some e => joined before e
      | none => before
    let finish (s : Option Sign) : Reading (Expression × Option Sign) :=
      return (settled.getD .empty, s)
    let again (low : Nat) (high : Option Nat) (text : Char) :
        Reading (Expression × Option Sign) := do
      match last with
      | some e => branch extended nested before (some (.times e low high)) fuel
      | none =>
        if extended then
          if settled.isNone || text == '*' then branch extended nested settled none fuel
          else throw .nothingRepeated
        else branch extended nested settled (some (.char text)) fuel
    let isAnchor := match last with
      | some .start => before.isNone
      | _ => false
    match ← sign extended settled.isNone (settled.isNone || isAnchor) with
    | none => finish none
    | some .bar => finish (some .bar)
    | some .close =>
      if nested then finish (some .close)
      else if extended then branch extended nested settled (some (.char ')')) fuel
      else throw .closedGroup
    | some .open_ =>
      let n := (← get).groups + 1
      modify fun s => { s with groups := n }
      let e ← branches extended true fuel
      branch extended nested settled (some (.group n e)) fuel
    | some .star => again 0 none '*'
    | some .plus => again 1 none '+'
    | some .question => again 0 (some 1) '?'
    | some .brace =>
      if settled.isNone then branch extended nested settled (some (.char '\x7b')) fuel
      else
        match ← bounds extended with
        | some (low, high) => again low high '\x7b'
        | none => branch extended nested settled (some (.char '\x7b')) fuel
    | some (.ordinary e) => branch extended nested settled (some e) fuel

end

/-- Reads an expression. -/
def read (extended : Bool) (text : List Char) : Except Fault Expression :=
  match (branches extended false (4 * text.length + 16)).run ⟨text, 0⟩ with
  | .ok e _ => .ok e
  | .error f _ => .error f

/-- An expression that matches a text and nothing else. -/
def ofText (text : List Char) : Expression :=
  text.foldr (fun c e => .seq (.char c) e) .empty

end Expression

end FirmwareMatrix.Shell.Utility
