import FirmwareMatrix.Shell.Bytes

/-! Patterns that a shell matches text against: an asterisk stands for any text, a question mark for
any character and brackets for one of the characters between them, unless they are quoted. A
backslash that a value has brought in quotes the character after it. -/

namespace FirmwareMatrix.Shell.Pattern

/-- A character and whether it was quoted, so that it stands for itself. -/
abbrev Mark := Char × Bool

def literal (s : List Char) : List Mark := s.map fun c => (c, true)

/-- Classes of characters by the names that brackets know. -/
def classes : List (String × (Char → Bool)) :=
  let isPunctuation (c : Char) : Bool := '!' ≤ c && c ≤ '~' && !c.isAlphanum
  let isSpace (c : Char) : Bool := c == ' ' || ('\t' ≤ c && c ≤ '\r')
  let isControl (c : Char) : Bool := c < ' ' || c == '\x7f'
  [("alnum", Char.isAlphanum), ("alpha", Char.isAlpha), ("blank", fun c => c == ' ' || c == '\t'),
    ("cntrl", isControl), ("digit", Char.isDigit), ("graph", fun c => '!' ≤ c && c ≤ '~'),
    ("lower", Char.isLower), ("print", fun c => ' ' ≤ c && c ≤ '~'), ("punct", isPunctuation),
    ("space", isSpace), ("upper", Char.isUpper),
    ("xdigit", fun c => c.isDigit || ('a' ≤ c && c ≤ 'f') || ('A' ≤ c && c ≤ 'F'))]

/-- What stands between brackets. -/
inductive Member where
  | range (low high : Char)
  | named (name : String)
  deriving DecidableEq, Repr

def Member.admits (c : Char) : Member → Bool
  | range low high => low ≤ c && c ≤ high
  | named name => (classes.lookup name).any (· c)

inductive Element where
  | any
  | one
  | char (c : Char)
  | set (inverted : Bool) (members : List Member)
  deriving DecidableEq, Repr

/-- Whether an element that stands for one character admits it. -/
def Element.admits (c : Char) : Element → Bool
  | any => false
  | one => true
  | char d => c == d
  | set inverted members => members.any (Member.admits c) != inverted

/-- Backslashes out of quotes quote what follows them. -/
def settled : List Mark → List Mark
  | ('\\', false) :: (c, _) :: rest => (c, true) :: settled rest
  | m :: rest => m :: settled rest
  | [] => []

/-- The class that a text after an opening bracket names, and what follows it. -/
def class? (ms : List Mark) : Option (String × List Mark) :=
  (classes.map Prod.fst).findSome? fun name =>
    let text := (":" ++ name ++ ":]").toList
    if (ms.take text.length) == text.map (fun c => (c, false)) then
      some (name, ms.drop text.length)
    else none

/-- The members of a bracket and what follows it, if it is closed; a closing bracket that comes
first is a member. `fuel` is at least the number of marks. -/
def members (first : Bool) : Nat → List Mark → Option (List Member × List Mark)
  | 0, _ => none
  | _, [] => none
  | fuel + 1, (c, quoted) :: rest =>
    if c == ']' && !quoted && !first then some ([], rest)
    else
      let add (m : Member) (found : Option (List Member × List Mark)) :
          Option (List Member × List Mark) := found.map fun (ms, rest) => (m :: ms, rest)
      match if c == '[' && !quoted then class? rest else none with
      | some (name, rest) => add (.named name) (members false fuel rest)
      | none =>
        match rest with
        | ('-', false) :: (high, q) :: after =>
          if high == ']' && !q then add (.range c c) (members false fuel rest)
          else add (.range c high) (members false fuel after)
        | rest => add (.range c c) (members false fuel rest)

/-- The elements of a pattern; `fuel` is at least the number of marks. -/
def elements : Nat → List Mark → List Element
  | 0, _ => []
  | _, [] => []
  | fuel + 1, ('*', false) :: rest => .any :: elements fuel rest
  | fuel + 1, ('?', false) :: rest => .one :: elements fuel rest
  | fuel + 1, ('[', false) :: rest =>
    let (inverted, body) := match rest with
      | ('!', false) :: body => (true, body)
      | body => (false, body)
    match members true (body.length + 1) body with
    | some (ms, after) => .set inverted ms :: elements fuel after
    | none => .char '[' :: elements fuel rest
  | fuel + 1, (c, _) :: rest => .char c :: elements fuel rest

def compile (ms : List Mark) : List Element :=
  let ms := settled ms
  elements (ms.length + 1) ms

def suffixes : List Char → List (List Char)
  | [] => [[]]
  | c :: cs => (c :: cs) :: suffixes cs

/-- Whether a pattern matches the whole of a text. -/
def accepts : List Element → List Char → Bool
  | [], cs => cs.isEmpty
  | .any :: es, cs => (suffixes cs).any (accepts es)
  | e :: es, c :: cs => e.admits c && accepts es cs
  | _ :: _, [] => false

def matchesText (ms : List Mark) (cs : List Char) : Bool := accepts (compile ms) cs

/-- What is left of a text once the shortest or longest part of it at the start that matches has
been cut off. -/
def cutFront (longest : Bool) (ms : List Mark) (cs : List Char) : List Char :=
  let es := compile ms
  let lengths := List.range (cs.length + 1)
  match (if longest then lengths.reverse else lengths).find? fun n => accepts es (cs.take n) with
  | some n => cs.drop n
  | none => cs

/-- The same at the end of a text. -/
def cutBack (longest : Bool) (ms : List Mark) (cs : List Char) : List Char :=
  let es := compile ms
  let lengths := List.range (cs.length + 1)
  match (if longest then lengths else lengths.reverse).find? fun n => accepts es (cs.drop n) with
  | some n => cs.take n
  | none => cs

/-- Whether there is anything in a pattern that does not stand for itself. -/
def hasWildcard (ms : List Mark) : Bool :=
  (settled ms).any fun (c, quoted) => !quoted && (c == '*' || c == '?' || c == '[')

end FirmwareMatrix.Shell.Pattern
