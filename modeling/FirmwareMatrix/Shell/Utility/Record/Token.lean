import FirmwareMatrix.Shell.Utility.Record.Number
import FirmwareMatrix.Shell.Utility.Record.Program

/-! The tokens of a program for records. A slash starts an expression where an operand may stand,
and divides after one. -/

namespace FirmwareMatrix.Shell.Utility.Record

inductive Token where
  | number (x : Float)
  | text (s : List Char)
  /-- What stands between slashes. -/
  | regex (s : List Char)
  | name (s : String)
  /-- A name right before an opening bracket. -/
  | call (s : String)
  | routine (r : Routine) (s : String)
  | keyword (s : String)
  | sign (s : String)
  | lineEnd
  deriving BEq

def keywords : List String :=
  ["BEGIN", "END", "function", "if", "else", "while", "for", "do", "break", "continue", "next",
    "nextfile", "exit", "return", "delete", "in", "getline", "print", "printf"]

def routines : List (String × Routine) :=
  [("length", .length), ("substr", .part), ("index", .index), ("split", .split),
    ("sub", .replace false), ("gsub", .replace true), ("match", .locate), ("sprintf", .format),
    ("sin", .sine), ("cos", .cosine), ("atan2", .angle), ("exp", .exponential),
    ("log", .logarithm), ("sqrt", .root), ("int", .whole), ("rand", .random), ("srand", .seed),
    ("tolower", .lower), ("toupper", .upper), ("system", .system), ("close", .close),
    ("fflush", .flush)]

/-- How many arguments a function may have. -/
def Routine.takes (r : Routine) (n : Nat) : Bool :=
  match r with
  | .length | .seed | .flush => n ≤ 1
  | .random => n = 0
  | .part | .split | .replace _ => n = 2 || n = 3
  | .index | .locate | .angle => n = 2
  | .format => 1 ≤ n
  | _ => n = 1

/-- Signs, the longer ones first. -/
def signs : List String :=
  ["&&", "||", "++", "--", "+=", "-=", "*=", "/=", "%=", "^=", "==", "<=", ">=", "!=", "!~", ">>",
    "\x7b", "\x7d", "(", ")", "[", "]", ";", ",", "+", "-", "*", "/", "%", "^", "!", ">", "<", "|",
    "?", ":", "~", "$", "="]

/-- Whether a slash after a token divides. -/
def Token.isOperand : Token → Bool
  | number _ | text _ | regex _ | name _ | routine _ _ => true
  | sign s => s == ")" || s == "]" || s == "++" || s == "--"
  | keyword _ | call _ | lineEnd => false

/-- A token as messages show it. -/
def Token.shown : Token → String
  | number x => (wholeText? x).getD ((Decimal.ofFloat x).magnitude 'g' none false)
  | text s => "\"" ++ String.ofList s ++ "\""
  | regex s => "/" ++ String.ofList s ++ "/"
  | name s | call s | routine _ s | keyword s | sign s => s
  | lineEnd => "unexpected newline"

/-- What is wrong with a program. -/
inductive Fault where
  | unexpected (line : Nat) (token : String)
  | missingBrace (line : Nat)
  | missingBracket (line : Nat) (token : String)
  /-- A statement that may not stand where it does. -/
  | misplaced (line : Nat) (text : String)
  | wrongCount (line : Nat) (routine : String)
  | openText (line : Nat) (start : String)
  | openExpression (line : Nat) (start : String)
  | badCharacter (line : Nat) (c : Char)
  | badExpression (line : Nat) (text : String)
  | noFunction (line : Nat) (name : String)

def Fault.message : Fault → String
  | unexpected n t => "line " ++ toString n ++ ": syntax error at or near " ++ t
  | missingBrace n => "line " ++ toString n ++ ": missing \x7d near end of file"
  | missingBracket n t => "line " ++ toString n ++ ": missing ) near " ++ t
  | misplaced n s => "line " ++ toString n ++ ": " ++ s
  | wrongCount n s => "line " ++ toString n ++ ": wrong number of arguments in call to " ++ s
  | openText n s => "line " ++ toString n ++ ": runaway string constant " ++ s ++ " ..."
  | openExpression n s => "line " ++ toString n ++ ": runaway regular expression /" ++ s ++ " ..."
  | badCharacter n c => toString n ++ ": unexpected character '" ++ c.toString ++ "'"
  | badExpression n s =>
    "line " ++ toString n ++ ": regular expression compile failed (missing operand)\n" ++ s
  | noFunction n s => "line " ++ toString n ++ ": function " ++ s ++ " never defined"

/-- The character of a letter after a backslash. -/
def escape? : Char → Option Char
  | 'n' => some '\n'
  | 't' => some '\t'
  | 'r' => some '\r'
  | 'a' => some '\x07'
  | 'b' => some '\x08'
  | 'f' => some '\x0c'
  | 'v' => some '\x0b'
  | _ => none

def isOctal (c : Char) : Bool := '0' ≤ c && c ≤ '7'

/-- The character that a code of at most three digits after a backslash stands for. -/
def octal? (cs : List Char) : Option (Char × List Char) :=
  match (cs.take 3).takeWhile isOctal with
  | [] => none
  | digits => some (Char.ofNat (Numeral.ofDigits 8 digits % 256), cs.drop digits.length)

/-- The character of a letter, or of a code in base eight or sixteen, after a backslash. -/
def escaped? (cs : List Char) : Option (Char × List Char) :=
  match cs with
  | [] => none
  | 'x' :: rest =>
    match (rest.take 2).takeWhile (Numeral.isDigitOf 16) with
    | [] => none
    | digits => some (Char.ofNat (Numeral.ofDigits 16 digits), rest.drop digits.length)
  | c :: rest => ((escape? c).map fun d => (d, rest)).or (octal? cs)

/-- Text without its escapes; `fuel` is at least its length. -/
def unescaped : Nat → List Char → List Char
  | 0, _ => []
  | _, [] => []
  | fuel + 1, '\\' :: c :: cs =>
    match escaped? (c :: cs) with
    | some (d, rest) => d :: unescaped fuel rest
    | none =>
      if c == '"' || c == '\\' then c :: unescaped fuel cs
      else if c == '\n' then unescaped fuel cs
      else '\\' :: c :: unescaped fuel cs
  | fuel + 1, c :: cs => c :: unescaped fuel cs

/-- What stands before the next sign that closes, and what follows it; a sign after a backslash does
not close, and no line end may stand before it. -/
def closedBy (sign : Char) : List Char → Option (List Char × List Char)
  | [] => none
  | '\\' :: c :: cs => (closedBy sign cs).map fun (s, rest) => ('\\' :: c :: s, rest)
  | c :: cs =>
    if c == sign then some ([], cs)
    else if c == '\n' then none
    else (closedBy sign cs).map fun (s, rest) => (c :: s, rest)

def isNameChar (c : Char) : Bool := c.isAlphanum || c == '_'

/-- The token of a word. -/
def Token.ofWord (word rest : List Char) : Token :=
  let s := String.ofList word
  if keywords.contains s then .keyword s
  else match routines.lookup s with
    | some r => .routine r s
    | none => if rest.head? == some '(' then .call s else .name s

/-- The tokens of a program with the numbers of their lines; `fuel` is at least its length. -/
def tokens : Nat → Nat → Token → List Char → Except Fault (List (Token × Nat))
  | 0, _, _, _ => .ok []
  | _, _, _, [] => .ok []
  | fuel + 1, line, last, c :: cs => do
    let add (t : Token) (rest : List Char) : Except Fault (List (Token × Nat)) := do
      return (t, line) :: (← tokens fuel line t rest)
    if c == ' ' || c == '\t' || c == '\r' then tokens fuel line last cs
    else if c == '\\' && cs.head? == some '\n' then tokens fuel (line + 1) last cs.tail
    else if c == '#' then tokens fuel line last (cs.dropWhile (· != '\n'))
    else if c == '\n' then return (.lineEnd, line) :: (← tokens fuel (line + 1) .lineEnd cs)
    else if c == '"' then
      match closedBy '"' cs with
      | some (s, rest) => add (.text (unescaped s.length s)) rest
      | none => throw (.openText line (String.ofList ((c :: cs).take 10)))
    else if c == '/' && !last.isOperand then
      match closedBy '/' cs with
      | some (s, rest) => add (.regex s) rest
      | none => throw (.openExpression line (String.ofList (cs.take 10)))
    else if c.isDigit || (c == '.' && cs.head?.any Char.isDigit) then
      let isBased := c == '0' && cs.head?.any fun d => Decimal.lower d == 'x'
      let (x, rest) := if isBased then (0, cs) else leading (c :: cs)
      add (.number x) rest
    else if c.isAlpha || c == '_' then
      let word := (c :: cs).takeWhile isNameChar
      let rest := (c :: cs).drop word.length
      add (Token.ofWord word rest) rest
    else
      match signs.find? fun s => s.toList.isPrefixOf (c :: cs) with
      | some s => add (.sign s) ((c :: cs).drop s.length)
      | none => throw (.badCharacter line c)

/-! ## Expressions -/

/-- A character that stands for itself, outside brackets and within them. -/
def plainly (inBrackets : Bool) (c : Char) : List Char :=
  if !inBrackets then
    if isNameChar c || c == '<' || c == '>' || c.toNat > 127 then [c] else ['\\', c]
  else if "]^-\\[".toList.contains c then ['[', '.', c, '.', ']']
  else [c]

/-- An expression in the notation that all programs read: escapes for characters are gone. -/
def usual (inBrackets : Bool) : Nat → List Char → List Char
  | 0, _ => []
  | _, [] => []
  | fuel + 1, '\\' :: c :: cs =>
    match escaped? (c :: cs) with
    | some (d, rest) => plainly inBrackets d ++ usual inBrackets fuel rest
    | none => plainly inBrackets c ++ usual inBrackets fuel cs
  | fuel + 1, c :: cs =>
    if inBrackets then
      match c, cs with
      | '[', d :: cs =>
        if d == ':' || d == '.' || d == '=' then
          let name := cs.takeWhile (· != d)
          c :: d :: name ++ (cs.drop name.length).take 2 ++
            usual true fuel (cs.drop (name.length + 2))
        else c :: usual true fuel (d :: cs)
      | c, cs => c :: usual (c != ']') fuel cs
    else if c == '[' then
      let (sign, cs) := match cs with
        | '^' :: cs => (['^'], cs)
        | cs => ([], cs)
      let (first, cs) := match cs with
        | ']' :: cs => ([']'], cs)
        | cs => ([], cs)
      c :: sign ++ first ++ usual true fuel cs
    else c :: usual false fuel cs

/-- Reads the expression that a text is. -/
def expression? (s : List Char) : Option Expression :=
  match Expression.read true (usual false (s.length + 1) s) with
  | .ok e => some e
  | .error _ => none

end FirmwareMatrix.Shell.Utility.Record
