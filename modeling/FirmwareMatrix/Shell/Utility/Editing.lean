import FirmwareMatrix.Shell.Utility.Expression
import FirmwareMatrix.Shell.Utility.Arguments

/-! Editing lines by a script of commands, each with the lines that it is for. A line is held in a
buffer that the commands change, and shown when they are through with it. -/

namespace FirmwareMatrix.Shell.Utility.Editing

open Act

inductive Address where
  | line (n : Nat)
  | last
  /-- An expression; the last one that was used if there is none. -/
  | matching (e : Option Expression) (folds : Bool)
  /-- A line and every so-manieth after it. -/
  | every (first step : Nat)

inductive Stop where
  | address (a : Address)
  /-- So many lines more. -/
  | more (n : Nat)
  /-- Up to a line whose number is a multiple. -/
  | multiple (n : Nat)

inductive Lines where
  | all
  | only (a : Address)
  | range (a : Address) (stop : Stop)

/-- A piece of what takes the place of a match. -/
inductive Piece where
  | text (c : Char)
  | group (n : Nat)
  /-- Upper or lower case from here on, or for one character; or as it stands again. -/
  | case (kind : Char)

/-- A replacement of what an expression matches. -/
structure Substitution where
  expression : Option Expression
  folds : Bool
  replacement : List Piece
  which : Nat
  global : Bool
  prints : Bool
  target : Option String

inductive Action where
  | open_ (past : Nat)
  | close
  | label
  | delete
  | deleteFirst
  | print
  | printFirst
  | next
  | nextAppended
  | hold
  | holdAppended
  | get
  | getAppended
  | exchange
  | substitute (s : Substitution)
  | translate (froms tos : List Char)
  | append (text : List Char)
  | insert (text : List Char)
  | change (text : List Char)
  /-- Goes on at a label, or at the end if there is none; always, or depending on whether something
  has been replaced. -/
  | branch (name : String) (when : Option Bool)
  | quit (status : Nat) (silent : Bool)
  | number
  | list
  | readFile (name : String)
  | writeFile (name : String) (firstLine : Bool)
  | empty

structure Command where
  lines : Lines
  negated : Bool
  action : Action
  /-- The name of a label. -/
  name : String

/-! ## Reading -/

structure Scan where
  rest : List Char
  read : Nat

/-- What is wrong, and after how many characters. -/
abbrev Reading := EStateM (String × Nat) Scan

def fault {α : Type} (text : String) : Reading α := do
  throw (text, (← get).read)

def peek : Reading (Option Char) := return (← get).rest.head?

def next : Reading (Option Char) := do
  let s ← get
  match s.rest with
  | [] => return none
  | c :: rest =>
    set (⟨rest, s.read + 1⟩ : Scan)
    return some c

def skip (p : Char → Bool) : Reading Unit := modify fun s =>
  let taken := s.rest.takeWhile p
  ⟨s.rest.drop taken.length, s.read + taken.length⟩

def takeWhile (p : Char → Bool) : Reading (List Char) := do
  let taken := (← get).rest.takeWhile p
  modify fun s => ⟨s.rest.drop taken.length, s.read + taken.length⟩
  return taken

def isSpace (c : Char) : Bool := c == ' ' || c == '\t'

def number : Reading Nat := do return Numeral.ofDigits 10 (← takeWhile Char.isDigit)

/-- A character by its code after a backslash and a letter for the base. -/
def coded? (letter : Char) (cs : List Char) : Option (Char × Nat) := do
  let (base, most) ← match letter with
    | 'x' => some (16, 2)
    | 'o' => some (8, 3)
    | 'd' => some (10, 3)
    | _ => none
  let digits := (cs.take most).takeWhile (Numeral.isDigitOf base)
  if digits.isEmpty then none
  else some (Char.ofNat (Numeral.ofDigits base digits % 256), digits.length)

/-- The part of a text that stands between brackets, with the closing one; the opening one has been
taken. -/
def bracketed (cs : List Char) : List Char :=
  let (before, body) := match cs with
    | '^' :: ']' :: body => (['^', ']'], body)
    | ']' :: body => ([']'], body)
    | body => ([], body)
  let rec go : Nat → List Char → List Char
    | 0, _ => []
    | _, [] => []
    | _ + 1, ']' :: _ => [']']
    | fuel + 1, '[' :: ':' :: rest =>
      let name := rest.takeWhile Char.isAlpha
      if (rest.drop name.length).take 2 == [':', ']'] then
        '[' :: ':' :: name ++ [':', ']'] ++ go fuel (rest.drop (name.length + 2))
      else '[' :: go fuel (':' :: rest)
    | fuel + 1, c :: rest => c :: go fuel rest
  before ++ go (body.length + 1) body

def skipCount (n : Nat) : Reading Unit := modify fun s => ⟨s.rest.drop n, s.read + n⟩

/-- Text up to a delimiter. A backslash before the delimiter is taken off, and one before a letter
may stand for a character. In an expression, delimiters between brackets do not count. -/
def delimited (d : Char) (inExpression : Bool) (sofar : List Char) :
    Nat → Reading (Option (List Char))
  | 0 => return none
  | fuel + 1 => do
    let go (cs : List Char) : Reading (Option (List Char)) :=
      delimited d inExpression (cs.reverse ++ sofar) fuel
    match ← next with
    | none => return none
    | some c =>
      if c == d then return some sofar.reverse
      else if c == '\n' then return none
      else if c == '[' && inExpression then
        let part := bracketed (← get).rest
        if part.contains '\n' then return none
        skipCount part.length
        go (c :: part)
      else if c == '\\' then
        match ← next with
        | none => return none
        | some e =>
          if e == d then go [e]
          else if e == 'n' && inExpression then go ['\n']
          else if e == 't' then go ['\t']
          else if e == 'f' && inExpression then go ['\x0c']
          else if e == 'r' then go ['\r']
          else match coded? e (← get).rest with
          | some (c, n) =>
            skipCount n
            go (if c.isAlphanum then [c] else ['\\', c])
          | none => go ['\\', e]
      else go [c]

def expression (extended : Bool) (text : List Char) : Reading (Option Expression) := do
  if text.isEmpty then return none
  match Expression.read extended text with
  | .ok e => return some e
  | .error f => fault f.message

def address? (extended : Bool) : Reading (Option Address) := do
  match ← peek with
  | some c =>
    if c.isDigit then
      let n ← number
      if (← peek) == some '~' then
        let _ ← next
        return some (.every n (← number))
      return some (.line n)
    else if c == '$' then
      let _ ← next
      return some .last
    else if c == '/' || c == '\\' then
      let _ ← next
      let d ← if c == '\\' then do pure ((← next).getD '/') else pure '/'
      match ← delimited d true [] ((← get).rest.length + 1) with
      | none => fault "unterminated address regex"
      | some text =>
        let e ← expression extended text
        let folds := (← peek) == some 'I'
        if folds then
          let _ ← next
        return some (.matching e folds)
    else return none
  | none => return none

def linesOf (extended : Bool) : Reading Lines := do
  match ← address? extended with
  | none => return .all
  | some a =>
    skip isSpace
    if (← peek) == some ',' then
      let _ ← next
      skip isSpace
      match ← peek with
      | some '+' =>
        let _ ← next
        return .range a (.more (← number))
      | some '~' =>
        let _ ← next
        return .range a (.multiple (← number))
      | _ =>
        match ← address? extended with
        | some b => return .range a (.address b)
        | none =>
          let _ ← next
          fault "unexpected `,'"
    else return .only a

/-- The pieces of a replacement. -/
def pieces : Nat → List Char → List Piece
  | 0, _ => []
  | _, [] => []
  | fuel + 1, '\\' :: c :: rest =>
    if c.isDigit then .group (c.toNat - 48) :: pieces fuel rest
    else if "ULEul".toList.contains c then .case c :: pieces fuel rest
    else if c == 'n' then .text '\n' :: pieces fuel rest
    else .text c :: pieces fuel rest
  | fuel + 1, '&' :: rest => .group 0 :: pieces fuel rest
  | fuel + 1, c :: rest => .text c :: pieces fuel rest

/-- How many groups an expression has. -/
def groupCount : Expression → Nat
  | .group n e => max n (groupCount e)
  | .seq a b | .either a b => max (groupCount a) (groupCount b)
  | .times e _ _ => groupCount e
  | _ => 0

/-- A file name up to the end of its line. -/
def fileName : Reading String := do
  skip isSpace
  return String.ofList (← takeWhile (· != '\n'))

/-- The letters behind a substitution. -/
def flags (s : Substitution) : Nat → Reading Substitution
  | 0 => return s
  | fuel + 1 => do
    match ← peek with
    | some 'g' =>
      let _ ← next
      if s.global then fault "multiple `g' options to `s' command"
      flags { s with global := true } fuel
    | some 'p' =>
      let _ ← next
      if s.prints then fault "multiple `p' options to `s' command"
      flags { s with prints := true } fuel
    | some 'i' | some 'I' =>
      let _ ← next
      flags { s with folds := true } fuel
    | some 'm' | some 'M' =>
      let _ ← next
      flags s fuel
    | some 'w' =>
      let _ ← next
      return { s with target := some (← fileName) }
    | some c =>
      if c.isDigit then
        let n ← number
        if n = 0 then fault "number option to `s' command may not be zero"
        flags { s with which := n } fuel
      else if c == '\n' || c == ';' || c == '\x7d' || c == '#' || isSpace c || c == '\r' then return s
      else
        let _ ← next
        fault "unknown option to `s'"
    | none => return s

/-- Text up to a line end that no backslash stands before, with that end. -/
def untilLineEnd (sofar : List Char) : Nat → Reading (List Char)
  | 0 => return sofar.reverse
  | fuel + 1 => do
    match ← next with
    | none | some '\n' => return ('\n' :: sofar).reverse
    | some '\\' =>
      match ← next with
      | some c => untilLineEnd (c :: sofar) fuel
      | none => return ('\n' :: sofar).reverse
    | some c => untilLineEnd (c :: sofar) fuel

/-- Text for a line: behind the command, or after a backslash and maybe a line end. -/
def lineText : Reading (List Char) := do
  skip isSpace
  match ← peek with
  | none | some '\n' => fault "expected \\ after `a', `c' or `i'"
  | some '\\' =>
    let _ ← next
    let blanks := (← get).rest.takeWhile isSpace
    match (← get).rest.drop blanks.length with
    | '\n' :: _ => skipCount (blanks.length + 1)
    | _ => pure ()
    if (← get).rest.isEmpty then return []
    untilLineEnd [] ((← get).rest.length + 1)
  | some _ => untilLineEnd [] ((← get).rest.length + 1)

/-- The name of a file, which must be there. -/
def neededName : Reading String := do
  let name ← fileName
  if name.isEmpty then fault "missing filename in r/R/w/W commands"
  return name

def label : Reading String := do
  skip isSpace
  let text ← takeWhile fun c => c != '\n' && c != ';' && c != '\x7d'
  return String.ofList (text.reverse.dropWhile isSpace).reverse

/-- What follows a command that takes nothing more. -/
def finished : Reading Unit := do
  skip isSpace
  match ← peek with
  | none | some '\n' | some ';' | some '\x7d' | some '#' => return
  | some _ =>
    let _ ← next
    fault "extra characters after command"

def action (extended : Bool) (c : Char) : Reading (Action × String) := do
  let plain (a : Action) : Reading (Action × String) := do
    finished
    return (a, "")
  match c with
  | '\x7b' => return (.open_ 0, "")
  | '\x7d' => plain .close
  | 'd' => plain .delete
  | 'D' => plain .deleteFirst
  | 'p' => plain .print
  | 'P' => plain .printFirst
  | 'n' => plain .next
  | 'N' => plain .nextAppended
  | 'h' => plain .hold
  | 'H' => plain .holdAppended
  | 'g' => plain .get
  | 'G' => plain .getAppended
  | 'x' => plain .exchange
  | '=' => plain .number
  | 'z' => plain .empty
  | 'l' =>
    skip isSpace
    let _ ← number
    plain .list
  | 'q' =>
    skip isSpace
    let n ← number
    plain (.quit n false)
  | 'Q' =>
    skip isSpace
    let n ← number
    plain (.quit n true)
  | 'b' => return (.branch (← label) none, "")
  | 't' => return (.branch (← label) (some true), "")
  | 'T' => return (.branch (← label) (some false), "")
  | ':' =>
    let name ← label
    if name.isEmpty then fault "\":\" lacks a label"
    return (.label, name)
  | 'a' => return (.append (← lineText), "")
  | 'i' => return (.insert (← lineText), "")
  | 'c' => return (.change (← lineText), "")
  | 'r' => return (.readFile (← neededName), "")
  | 'w' => return (.writeFile (← neededName) false, "")
  | 'W' => return (.writeFile (← neededName) true, "")
  | 'v' =>
    let _ ← label
    return (.label, "")
  | 'y' =>
    let d := (← next).getD '/'
    let fuel := (← get).rest.length + 1
    match ← delimited d true [] fuel, ← delimited d true [] fuel with
    | some froms, some tos =>
      let plainText (cs : List Char) : List Char :=
        let rec go : List Char → List Char
          | '\\' :: c :: rest => c :: go rest
          | c :: rest => c :: go rest
          | [] => []
        go cs
      let froms := plainText froms
      let tos := plainText tos
      if froms.length != tos.length then fault "strings for `y' command are different lengths"
      plain (.translate froms tos)
    | _, _ => fault "unterminated `y' command"
  | 's' =>
    let d := (← next).getD '/'
    let fuel := (← get).rest.length + 1
    match ← delimited d true [] fuel with
    | none => fault "unterminated `s' command"
    | some from_ =>
      match ← delimited d false [] fuel with
      | none => fault "unterminated `s' command"
      | some to_ =>
        let ps := pieces (to_.length + 1) to_
        let s ← flags ⟨none, false, ps, 1, false, false, none⟩ fuel
        let e ← expression extended from_
        let most := ps.foldl (fun n p => match p with
          | .group k => max n k
          | _ => n) 0
        if let some e := e then
          if groupCount e < most then
            fault ("invalid reference \\" ++ toString most ++ " on `s' command's RHS")
        finished
        return (.substitute { s with expression := e }, "")
  | c => fault ("unknown command: `" ++ c.toString ++ "'")

/-- The commands of a script in order. -/
def commands (extended : Bool) (found : List Command) : Nat → Reading (List Command)
  | 0 => return found.reverse
  | fuel + 1 => do
    skip fun c => isSpace c || c == '\n' || c == ';' || c == '\r'
    match ← peek with
    | none => return found.reverse
    | some '#' =>
      skip (· != '\n')
      commands extended found fuel
    | some _ =>
      let lines ← linesOf extended
      skip isSpace
      let negated := (← peek) == some '!'
      if negated then
        let _ ← next
        skip isSpace
        if (← peek) == some '!' then
          let _ ← next
          fault "multiple `!'s"
      match ← next with
      | none => fault "missing command"
      | some c =>
        match lines, c with
        | .only (.line 0), _ => fault "invalid usage of line address 0"
        | .range (.line 0) (.address (.matching _ _)), _ => pure ()
        | .range (.line 0) _, _ => fault "invalid usage of line address 0"
        | _, _ => pure ()
        let (a, name) ← action extended c
        commands extended (⟨lines, negated, a, name⟩ :: found) fuel

/-- Where the block that opens at a position closes. -/
def closing (cs : Array Command) : Nat → Nat → Nat → Option Nat
  | 0, _, _ => none
  | fuel + 1, depth, i =>
    match cs[i]? with
    | none => none
    | some c =>
      match c.action with
      | .open_ _ => closing cs fuel (depth + 1) (i + 1)
      | .close => if depth = 0 then some i else closing cs fuel (depth - 1) (i + 1)
      | _ => closing cs fuel depth (i + 1)

/-- What is wrong with a script, and where. -/
inductive Fault where
  | after (characters : Nat) (text : String)
  | noLabel (name : String)

def Fault.message : Fault → String
  | after n text => "-e expression #1, char " ++ toString n ++ ": " ++ text
  | noLabel name => "can't find label for jump to `" ++ name ++ "'"

def Fault.status : Fault → Nat
  | after _ _ => 1
  | noLabel _ => 4

/-- Blocks know where they end, and branches lead somewhere. -/
def linked (cs : Array Command) : Except Fault (Array Command) :=
  (List.range cs.size).foldlM (fun (out : Array Command) i =>
    match cs[i]? with
    | none => .ok out
    | some c =>
      match c.action with
      | .open_ _ =>
        match closing cs (cs.size + 1) 0 (i + 1) with
        | some j => .ok (out.push { c with action := .open_ j })
        | none => .error (.after 0 "unmatched `\x7b'")
      | .branch name _ =>
        if name.isEmpty || cs.any fun d => (match d.action with | .label => d.name == name | _ => false)
        then .ok (out.push c)
        else .error (.noLabel name)
      | _ => .ok (out.push c)) #[]

/-- Reads a script. -/
def read (extended : Bool) (text : List Char) : Except Fault (Array Command) :=
  match (commands extended [] (text.length + 1)).run ⟨text, 0⟩ with
  | .error (m, n) _ => .error (.after n m)
  | .ok found _ =>
    let depths := found.foldl (fun (d : Int × Bool) c =>
      match c.action with
      | .open_ _ => (d.1 + 1, d.2)
      | .close => (d.1 - 1, d.2 || d.1 - 1 < 0)
      | _ => d) ((0 : Int), false)
    if depths.2 then .error (.after text.length "unexpected `\x7d'") else linked found.toArray

/-! ## Running -/

structure State where
  buffer : List Char
  held : List Char
  number : Nat
  /-- The lines that follow, each with whether it has an end and whether a file ends with it. -/
  rest : List (List Char × Bool × Bool)
  hasEnd : Bool
  heldEnd : Bool
  /-- Whether the last line that was shown had no end. -/
  owes : Bool
  isLast : Bool
  /-- For commands with ranges under way, the line on which each ends at the latest. -/
  active : List (Nat × Option Nat)
  /-- Text to be shown after the line. -/
  queued : List (List Char)
  replaced : Bool
  lastUsed : Option Expression
  /-- What has been shown, in reverse. -/
  shown : List (List Char)
  /-- What is to be written to other files, in reverse. -/
  others : List (String × List Char)
  quit : Option Nat

abbrev Edit := StateM State

/-- Shows text; a line before it that had no end gets one. -/
def tell (text : List Char) : Edit Unit := modify fun s =>
  if text.isEmpty then s
  else { s with shown := (if s.owes then '\n' :: text else text) :: s.shown, owes := false }

/-- Shows a line; one without an end stays without if it is the last. -/
def display (text : List Char) : Edit Unit := do
  if (← get).hasEnd then tell (text ++ ['\n'])
  else
    modify fun s =>
      { s with shown := (if s.owes then '\n' :: text else text) :: s.shown, owes := true }

def used (e : Option Expression) : Edit Expression := do
  match e with
  | some e =>
    modify fun s => { s with lastUsed := some e }
    return e
  | none => return (← get).lastUsed.getD .empty

def holdsFor (a : Address) : Edit Bool := do
  let s ← get
  match a with
  | .line n => return s.number == n
  | .last => return s.isLast
  | .matching e folds =>
    let e ← used e
    return (Expression.search? e folds s.buffer 0).isSome
  | .every first step =>
    return if step = 0 then s.number == first else s.number ≥ first && (s.number - first) % step == 0

/-- Whether a command is for the line; `i` is its position. -/
def selected (i : Nat) (ls : Lines) : Edit Bool := do
  match ls with
  | .all => return true
  | .only a => holdsFor a
  | .range a stop =>
    let s ← get
    let close : Edit Unit := modify fun s => { s with active := s.active.filter (·.1 != i) }
    let opened (limit : Option Nat) : Edit Unit :=
      modify fun s => { s with active := (i, limit) :: s.active.filter (·.1 != i) }
    match s.active.lookup i with
    | some limit =>
      match limit with
      | some n =>
        if n ≤ s.number then close
        return s.number ≤ n || (match stop with | .address (.line _) => false | _ => true) && s.number ≤ n
      | none =>
        match stop with
        | .address b => if ← holdsFor b then close
        | _ => close
        return true
    | none =>
      let starts ← match a, stop with
        | .line 0, .address (.matching _ _) => pure (s.number == 1)
        | a, _ => holdsFor a
      if !starts then return false
      match stop with
      | .address (.line n) => if s.number < n then opened (some n)
      | .more n => if 0 < n then opened (some (s.number + n))
      | .multiple n =>
        if 0 < n && s.number % n != 0 then opened (some ((s.number / n + 1) * n))
      | .address (.matching e folds) =>
        match a with
        | .line 0 =>
          let found ← holdsFor (.matching e folds)
          if !found then opened none
        | _ => opened none
      | .address .last => if !s.isLast then opened none
      | .address _ => opened none
      return true

/-- Goes to the next line; whether there is one. -/
def advance : Edit Bool := do
  let s ← get
  match s.rest with
  | [] => return false
  | (l, hasEnd, _) :: rest =>
    set { s with
      buffer := l, hasEnd, rest, number := s.number + 1, isLast := rest.isEmpty }
    return true

def flushQueue : Edit Unit := do
  let s ← get
  let texts := s.queued.reverse
  set { s with queued := [] }
  texts.forM tell

/-- Characters in another case. -/
def cased (lasting once : Option Char) (cs : List Char) : List Char :=
  let apply (k : Option Char) (c : Char) : Char :=
    match k with
    | some 'U' | some 'u' => c.toUpper
    | some 'L' | some 'l' => c.toLower
    | _ => c
  match cs with
  | [] => []
  | c :: rest => apply (once.or lasting) c :: rest.map (apply lasting)

/-- The text that takes the place of a match. -/
def replaced (text : List Char) (m : Expression.Match) :
    Option Char → Option Char → List Piece → List Char
  | _, _, [] => []
  | lasting, once, p :: ps =>
    match p with
    | .case 'E' => replaced text m none none ps
    | .case c => if c.isUpper then replaced text m (some c) once ps else replaced text m lasting (some c) ps
    | .text c => cased lasting once [c] ++ replaced text m lasting none ps
    | .group n =>
      let part := if n = 0 then (text.drop m.low).take (m.high - m.low)
        else match m.groups.find? (·.1 == n) with
          | some (_, low, high) => (text.drop low).take (high - low)
          | none => []
      cased lasting once part ++ replaced text m lasting (if part.isEmpty then once else none) ps

/-- A text after a substitution, and whether anything was replaced. `n` counts the matches before,
and `lastEnd` is the end of the last one. -/
def substituted (s : Substitution) (e : Expression) (text : List Char) :
    Nat → Nat → Nat → Option Nat → List Char × Bool
  | 0, i, _, _ => (text.drop i, false)
  | fuel + 1, i, n, lastEnd =>
    match Expression.search? e s.folds text i with
    | none => (text.drop i, false)
    | some m =>
      let before := (text.drop i).take (m.low - i)
      if m.high = m.low && lastEnd == some m.low then
        match text[m.low]? with
        | none => (before, false)
        | some c =>
          let (rest, done) := substituted s e text fuel (m.low + 1) n none
          (before ++ c :: rest, done)
      else
        let n := n + 1
        let chosen := n == s.which || (s.global && s.which ≤ n)
        let new := if chosen then replaced text m none none s.replacement
          else (text.drop m.low).take (m.high - m.low)
        if chosen && !s.global then (before ++ new ++ text.drop m.high, true)
        else if m.high = m.low then
          match text[m.low]? with
          | none => (before ++ new, chosen)
          | some c =>
            let (rest, done) := substituted s e text fuel (m.low + 1) n none
            (before ++ new ++ c :: rest, chosen || done)
        else
          let (rest, done) := substituted s e text fuel m.high n (some m.high)
          (before ++ new ++ rest, chosen || done)

/-- A buffer as it is listed. -/
def listed (text : List Char) : List Char :=
  let one (c : Char) : List Char :=
    match c with
    | '\\' => ['\\', '\\']
    | '\x07' => ['\\', 'a']
    | '\x08' => ['\\', 'b']
    | '\x0c' => ['\\', 'f']
    | '\n' => ['\\', 'n']
    | '\r' => ['\\', 'r']
    | '\t' => ['\\', 't']
    | '\x0b' => ['\\', 'v']
    | c =>
      if 32 ≤ c.toNat && c.toNat < 127 then [c]
      else
        let ds := Nat.toDigits 8 c.toNat
        '\\' :: List.replicate (3 - ds.length) '0' ++ ds
  let rec wrap : Nat → Nat → List (List Char) → List Char
    | 0, _, _ => []
    | _, _, [] => ['$', '\n']
    | fuel + 1, column, piece :: rest =>
      if column + piece.length > 69 then '\\' :: '\n' :: piece ++ wrap fuel piece.length rest
      else piece ++ wrap fuel (column + piece.length) rest
  let all := text.map one
  wrap (all.length + 1) 0 all

/-- What happens after a command. -/
inductive Flow where
  | goOn (i : Nat)
  /-- The line is done, and shown unless that is not wanted. -/
  | done (shows : Bool)
  /-- The commands start again with what is left of the buffer. -/
  | restart

/-- Carries out one command. -/
def perform (quiet : Bool) (cs : Array Command) (i : Nat) (c : Command) (chosen : Bool) :
    Edit Flow := do
  let after : Flow := .goOn (i + 1)
  let s ← get
  if !chosen then
    match c.action with
    | .open_ past => return .goOn (past + 1)
    | _ => return after
  match c.action with
  | .open_ _ | .close | .label => return after
  | .delete => return .done false
  | .deleteFirst =>
    match Text.cutAt '\n' s.buffer with
    | none => return .done false
    | some (_, rest) =>
      set { s with buffer := rest }
      return .restart
  | .print =>
    display s.buffer
    return after
  | .printFirst =>
    display (s.buffer.takeWhile (· != '\n'))
    return after
  | .next =>
    if s.rest.isEmpty then
      set { s with quit := some 0 }
      return .done true
    if !quiet then display s.buffer
    flushQueue
    let _ ← advance
    return after
  | .nextAppended =>
    if s.rest.isEmpty then
      set { s with quit := some 0 }
      return .done true
    flushQueue
    let _ ← advance
    modify fun t => { t with buffer := s.buffer ++ '\n' :: t.buffer }
    return after
  | .hold =>
    set { s with held := s.buffer, heldEnd := s.hasEnd }
    return after
  | .holdAppended =>
    set { s with held := s.held ++ '\n' :: s.buffer }
    return after
  | .get =>
    set { s with buffer := s.held, hasEnd := s.heldEnd }
    return after
  | .getAppended =>
    set { s with buffer := s.buffer ++ '\n' :: s.held }
    return after
  | .exchange =>
    set { s with buffer := s.held, held := s.buffer, hasEnd := s.heldEnd, heldEnd := s.hasEnd }
    return after
  | .empty =>
    set { s with buffer := [] }
    return after
  | .number =>
    tell ((toString s.number).toList ++ ['\n'])
    return after
  | .list =>
    tell (listed s.buffer)
    return after
  | .translate froms tos =>
    let f (c : Char) : Char := ((froms.zip tos).lookup c).getD c
    set { s with buffer := s.buffer.map f }
    return after
  | .append text =>
    set { s with queued := text :: s.queued }
    return after
  | .insert text =>
    tell text
    return after
  | .change text =>
    let inRange := match c.lines with
      | .range _ _ => (s.active.lookup i).isSome && !c.negated
      | _ => false
    if !inRange then tell text
    return .done false
  | .readFile name =>
    set { s with queued := ('\x00' :: name.toList) :: s.queued }
    return after
  | .writeFile name firstLine =>
    let text := if firstLine then s.buffer.takeWhile (· != '\n') else s.buffer
    set { s with others := (name, text ++ ['\n']) :: s.others }
    return after
  | .quit status silent =>
    set { s with quit := some status }
    return .done !silent
  | .branch name when =>
    let goes := match when with
      | none => true
      | some wanted => s.replaced == wanted
    if when.isSome then set { s with replaced := false }
    if !goes then return after
    if name.isEmpty then return .done true
    let found := cs.findIdx? fun d => match d.action with
      | .label => d.name == name
      | _ => false
    return .goOn (found.getD cs.size)
  | .substitute sub =>
    let e ← used sub.expression
    let (text, done) := substituted sub e s.buffer (2 * s.buffer.length + 4) 0 0 none
    if done then
      modify fun t => { t with buffer := text, replaced := true }
      if sub.prints then display text
      if let some name := sub.target then
        modify fun t => { t with others := (name, text ++ ['\n']) :: t.others }
    return after

/-- Runs the commands on the line in the buffer from a position on. -/
def steps (quiet : Bool) (cs : Array Command) : Nat → Nat → Edit Flow
  | 0, _ => return .done true
  | fuel + 1, i => do
    match cs[i]? with
    | none => return .done true
    | some c =>
      let chosen ← match c.action with
        | .close | .label => pure true
        | _ => do pure ((← selected i c.lines) != c.negated)
      match ← perform quiet cs i c chosen with
      | .goOn j => steps quiet cs fuel j
      | flow => return flow

/-- Runs the script on the line in the buffer and all that follow. -/
def run (quiet : Bool) (cs : Array Command) : Nat → Edit Unit
  | 0 => return
  | fuel + 1 => do
    modify fun s => { s with replaced := false }
    let flow ← steps quiet cs (1000 * (cs.size + 1)) 0
    let again ← match flow with
      | .restart => pure true
      | .done shows => do
        if shows && !quiet then display (← get).buffer
        pure false
      | .goOn _ => pure false
    flushQueue
    if again then run quiet cs fuel
    else if (← get).quit.isSome then return
    else if ← advance then run quiet cs fuel
    else return

/-- The lines of a text as they are edited. -/
def prepared (text : List Char) : List (List Char × Bool × Bool) :=
  let ls := lines text
  let whole := endsWithLine text
  ls.zipIdx.map fun (l, i) => (l, whole || i + 1 != ls.length, false)

/-- Edits lines, and gives what is shown, what is for other files, and the status. -/
def edit (quiet : Bool) (cs : Array Command) (ls : List (List Char × Bool × Bool)) : State :=
  let start : State :=
    { buffer := [], held := [], number := 0, rest := ls, hasEnd := true, heldEnd := true, owes := false
      isLast := false, active := [], queued := [], replaced := false, lastUsed := none, shown := []
      others := [], quit := none }
  let act : Edit Unit := do
    if ← advance then run quiet cs (100 * ls.length + 1000)
  (act.run start).2

/-- Texts to be shown, with the files that they ask for put in. -/
def filled : List (List Char) → Act (List Char)
  | [] => return []
  | ('\x00' :: name) :: rest => do
    let name := String.ofList name
    let text ← match ← contents (if name == "/dev/stdin" then "-" else name) with
      | .ok text => pure text
      | .error _ => pure []
    return text ++ (← filled rest)
  | text :: rest => return text ++ (← filled rest)

def sed (args : List String) : Act Nat :=
  let k : Known := ⟨"sed", "nErszuI", "efl", [("quiet", 'n'), ("silent", 'n'), ("expression", 'e'),
    ("file", 'f'), ("regexp-extended", 'E'), ("separate", 's'), ("in-place", 'I'),
    ("null-data", 'z'), ("unbuffered", 'u')], 1⟩
  let inPlace (a : String) : Bool := "-i".toList.isPrefixOf a.toList
  let suffix := (args.find? inPlace).map fun a => String.ofList (a.toList.drop 2)
  let args := args.map fun a => if inPlace a then "-I" else a
  withArguments k args fun g => do
    let ofFiles ← (g.values 'f').mapM fun name => do
      match ← contents name with
      | .ok text => return String.ofList (if text.getLast? == some '\n' then text.dropLast else text)
      | .error _ => return ""
    let given := g.options.filterMap fun (c, v) => if c == 'e' then some v else none
    let (script, names) := match given ++ ofFiles, g.operands with
      | [], [] => (none, [])
      | [], s :: rest => (some s, rest)
      | scripts, names => (some (String.intercalate "\n" scripts), names)
    match script with
    | none =>
      complain "Usage: sed [OPTION]... \x7bscript-only-if-no-other-script\x7d [input-file]..."
      return 1
    | some script =>
      let quiet := g.has 'n' || script == "#n" || "#n\n".toList.isPrefixOf script.toList
      match read (g.has 'E' || g.has 'r') script.toList with
      | .error m =>
        complain ("sed: " ++ m.message)
        return m.status
      | .ok cs =>
        let writeOthers (s : State) : Act Unit := do
          let names := (s.others.reverse.map (·.1)).eraseDups
          names.forM fun name => do
            let text := (s.others.reverse.filter (·.1 == name)).flatMap (·.2)
            if name == "/dev/stdout" then emit (String.ofList text)
            else if let .ok n := ← openPath (← process).here name .writing false then
              attach 19 n
              let _ ← write 19 text
              close 19
        if g.has 'I' then
          let rec each : List String → Nat → Act Nat
            | [], status => return status
            | name :: rest, status => do
              match ← contents name with
              | .error e =>
                complain ("sed: can't read " ++ name ++ ": " ++ e.text)
                each rest 2
              | .ok text =>
                let s := edit quiet cs (prepared text)
                let out ← filled s.shown.reverse
                let here := (← process).here
                if let some extra := suffix then
                  if !extra.isEmpty then
                    let _ ← onDisk (Disk.writeBytes here (pathOf (name ++ extra)) (Bytes.toList text))
                let _ ← onDisk (Disk.writeBytes here (pathOf name) (Bytes.toList out))
                writeOthers s
                each rest (max status (s.quit.getD 0))
          each names 0
        else
          let quits := cs.any fun c => match c.action with
            | .quit _ _ => true
            | _ => false
          if names.isEmpty && quits then
            let enough (text : List Char) : Bool :=
              endsWithLine text && !text.isEmpty && (edit quiet cs (prepared text)).quit.isSome &&
                !(edit quiet cs (prepared text)).isLast
            match ← takeUntil 0 enough mostTakes [] with
            | .error e =>
              complain ("sed: couldn't read -: " ++ e.text)
              return 4
            | .ok text =>
              let s := edit quiet cs (prepared text)
              emit (String.ofList (← filled s.shown.reverse))
              writeOthers s
              return s.quit.getD 0
          else
            let rec gather : List String → Act (List (List Char) × Bool)
              | [] => return ([], true)
              | name :: rest => do
                match ← contents name with
                | .ok text =>
                  let (more, ok) ← gather rest
                  return (text :: more, ok)
                | .error e =>
                  complain (if e = .isDirectory then "sed: couldn't edit " ++ name ++ ": not a regular file"
                    else "sed: can't read " ++ name ++ ": " ++ e.text)
                  let (more, _) ← gather rest
                  return (more, false)
            let (found, ok) ← gather (orInput names)
            let groups := if g.has 's' then found.map prepared
              else
                let glued := found.filter (!·.isEmpty)
                let ended := (glued.zipIdx).map fun (t, i) =>
                  if i + 1 != glued.length && !endsWithLine t then t ++ ['\n'] else t
                [prepared ended.flatten]
            let rec editAll : List (List (List Char × Bool × Bool)) → Nat → Act Nat
              | [], status => return status
              | ls :: rest, status => do
                let s := edit quiet cs ls
                emit (String.ofList (← filled s.shown.reverse))
                writeOthers s
                match s.quit with
                | some n => return max status n
                | none => editAll rest status
            editAll groups (if ok then 0 else 2)

end FirmwareMatrix.Shell.Utility.Editing
