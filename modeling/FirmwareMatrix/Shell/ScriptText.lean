import FirmwareMatrix.Shell.Script

/-! Reading scripts, one complete command after the other, so that what stands before a fault is
carried out. Control words and aliases count only where a command may start and out of quotes. The
text of a here-document follows the line on which it is asked for; documents are kept under numbers
because the command that uses one has been read before the document itself. -/

namespace FirmwareMatrix.Shell

/-- Where a script cannot be read, and why. -/
structure Fault where
  line : Nat
  text : String
  deriving DecidableEq, Repr

/-- What a redirection is before its target has been read. -/
inductive RedirectionKind where
  | file (opening : Opening)
  | share
  | document (dropTabs : Bool)
  deriving DecidableEq, Repr

inductive Token where
  | finish
  | newline
  | semicolon
  | ampersand
  | both
  | either
  | bar
  | left
  | right
  | endCase
  | redirection (descriptor : Nat) (kind : RedirectionKind)
  | word (w : Word)
  | keyword (name : String)

/-- A here-document that has been asked for: its number, the line that ends it, whether tabs before
lines are dropped, and whether parameters in it count. -/
structure Awaited where
  number : Nat
  mark : List Char
  dropTabs : Bool
  expands : Bool

/-- How far a script has been read. -/
structure Scan where
  rest : List Char
  line : Nat
  held : Option Token
  awaited : List Awaited
  /-- The documents read so far by number. -/
  documents : Array Word
  aliases : List (String × String)
  /-- Aliases that stand for text still to be read, and how long the text after it is. -/
  active : List (String × Nat)

abbrev Reading := StateT Scan (Except Fault)

namespace Token

def keywords : List String :=
  ["!", "case", "do", "done", "elif", "else", "esac", "fi", "for", "if", "in", "then", "until",
    "while", "\x7b", "\x7d"]

/-- Whether a list of commands ends before the token. -/
def endsList : Token → Bool
  | finish | right | endCase => true
  | keyword name =>
    ["do", "done", "elif", "else", "esac", "fi", "then", "\x7d"].contains name
  | _ => false

/-- The token as faults name it. -/
def label : Token → String
  | finish => "end of file"
  | newline => "newline"
  | semicolon => "\";\""
  | ampersand => "\"&\""
  | both => "\"&&\""
  | either => "\"||\""
  | bar => "\"|\""
  | left => "\"(\""
  | right => "\")\""
  | endCase => "\";;\""
  | redirection _ _ => "redirection"
  | word _ => "word"
  | keyword name => "\"" ++ name ++ "\""

def isKeyword (t : Token) (name : String) : Bool :=
  match t with
  | keyword n => n == name
  | _ => false

end Token

/-- What is looked for when a token is read: line ends that do not count, control words, aliases. -/
structure Looking where
  pastLines : Bool
  forKeywords : Bool
  forAliases : Bool

namespace Looking

def plain : Looking := ⟨false, false, false⟩

def atCommand (pastLines : Bool) : Looking := ⟨pastLines, true, true⟩

end Looking

namespace ScriptText

def isNameStart (c : Char) : Bool := c.isAlpha || c == '_'

def isName (c : Char) : Bool := c.isAlphanum || c == '_'

/-- Parameters that are no names and no numbers. -/
def isSpecial (c : Char) : Bool := "@*#?$!-".toList.contains c

def isGoodName (cs : List Char) : Bool := cs.head?.any isNameStart && cs.all isName

/-- The commands that no function can replace. -/
def reserved : List String :=
  [".", ":", "break", "continue", "eval", "exec", "exit", "export", "local", "readonly", "return",
    "set", "shift", "times", "trap", "unset"]

def backquote : Char := '\x60'

/-- Characters that end a word. -/
def endsWord (c : Char) : Bool := " \t\n;&|<>()".toList.contains c

/-! ## Characters -/

def fault {α : Type} (text : String) : Reading α := do
  let s ← get
  throw ⟨s.line, text⟩

def unexpected {α : Type} (t : Token) (wanted : Option String) : Reading α :=
  fault (t.label ++ " unexpected" ++ match wanted with
    | some w => " (expecting " ++ w ++ ")"
    | none => "")

/-- Takes the next character; line ends are counted. -/
def next : Reading (Option Char) := do
  let s ← get
  match s.rest with
  | [] => return none
  | c :: rest =>
    set { s with rest, line := if c == '\n' then s.line + 1 else s.line }
    return some c

/-- Joins a line that ends in a backslash with the one after it. -/
def joined (line : Nat) : List Char → Nat × List Char
  | '\\' :: '\n' :: cs => joined (line + 1) cs
  | cs => (line, cs)

def join : Reading Unit := modify fun s =>
  let (line, rest) := joined s.line s.rest
  { s with line, rest }

/-- The next character once lines are joined, without taking it. -/
def peek : Reading (Option Char) := do
  join
  return (← get).rest.head?

def advance : Reading Unit := do
  let _ ← next

/-- Takes a character if it is next. -/
def accept (c : Char) : Reading Bool := do
  if (← peek) == some c then
    advance
    return true
  else return false

def hold (t : Token) : Reading Unit := modify fun s => { s with held := some t }

/-! ## Words under way -/

/-- Parts in reverse, and so are their texts. -/
abbrev Building := List Part

def addChar (c : Char) (inQuotes : Bool) : Building → Building
  | .text s q :: built => if q == inQuotes then .text (c :: s) q :: built
    else .text [c] inQuotes :: .text s q :: built
  | built => .text [c] inQuotes :: built

/-- Quotes begin or end, so there is a text even if it is empty. -/
def addQuotes : Building → Building
  | .text s true :: built => .text s true :: built
  | built => .text [] true :: built

def finished (built : Building) : Word :=
  built.reverse.map fun p => match p with
    | .text s q => .text s.reverse q
    | p => p

/-- What surrounds the characters of a word. -/
inductive Mode where
  | plain
  /-- The braces of a parameter. -/
  | braces
  | quotes (inBraces : Bool)
  /-- The braces of a parameter in quotes. -/
  | quotedBraces
  | document
  | sum
  deriving DecidableEq, Repr

namespace Mode

def inQuotes : Mode → Bool
  | plain | braces => false
  | _ => true

/-- Whether a backslash before the character takes away its meaning; elsewhere in quotes the
backslash stands for itself. -/
def escapes (m : Mode) (c : Char) : Bool :=
  match m with
  | plain | braces => true
  | m =>
    c == '\\' || c == backquote || c == '$' || (c == '"' && m != .document) ||
      (c == '}' && (m == .quotedBraces || m == .quotes true))

end Mode

/-- The rest of a text in single quotes. -/
def singleQuoted (built : Building) : Nat → Reading Building
  | 0 => fault "Unterminated quoted string"
  | fuel + 1 => do
    match ← next with
    | none => fault "Unterminated quoted string"
    | some '\'' => return built
    | some c => singleQuoted (addChar c true built) fuel

/-- The text of a command in backquotes, where backslashes guard some characters. -/
def backquoted (inQuotes : Bool) (text : List Char) : Nat → Reading (List Char)
  | 0 => fault "EOF in backquote substitution"
  | fuel + 1 => do
    join
    match ← next with
    | none => fault "EOF in backquote substitution"
    | some '\\' =>
      match ← next with
      | none => fault "EOF in backquote substitution"
      | some c =>
        if c == '\\' || c == backquote || c == '$' || (inQuotes && c == '"') then
          backquoted inQuotes (c :: text) fuel
        else backquoted inQuotes (c :: '\\' :: text) fuel
    | some c => if c == backquote then return text.reverse else backquoted inQuotes (c :: text) fuel

/-- Takes characters that a test admits; lines are joined on the way. -/
def takeWhile (p : Char → Bool) (taken : List Char) : Nat → Reading (List Char)
  | 0 => return taken.reverse
  | fuel + 1 => do
    match ← peek with
    | some c =>
      if p c then
        advance
        takeWhile p (c :: taken) fuel
      else return taken.reverse
    | none => return taken.reverse

/-! ## Here-documents -/

/-- The lines up to the one that ends a document, and the text after that one. -/
def documentLines (mark : List Char) (dropTabs : Bool) :
    Nat → List Char → List Char × List Char
  | 0, cs => ([], cs)
  | _, [] => ([], [])
  | fuel + 1, cs =>
    let cs := if dropTabs then cs.dropWhile (· == '\t') else cs
    let line := cs.takeWhile (· != '\n')
    let rest := cs.drop line.length
    if line == mark then ([], rest.drop 1)
    else
      let (more, rest) := documentLines mark dropTabs fuel (rest.drop 1)
      (line ++ (if cs.length == line.length then [] else ['\n']) ++ more, rest)

/-- The text of a word out of which a mark is made. -/
def markOf (w : Word) : List Char :=
  w.flatMap fun p => match p with
    | .text s _ => s
    | _ => []

def isQuoted (w : Word) : Bool :=
  w.any fun p => match p with
    | .text _ q => q
    | _ => false

/-- The one text out of quotes that a word is. -/
def plainText? : Word → Option (List Char)
  | [.text s false] => some s
  | _ => none

/-! ## Tokens -/

/-- Aliases whose text has been read are free again. Says whether one of them ends in a blank,
after which the next word may be an alias too. -/
def settleAliases : Reading Bool := do
  let s ← get
  if s.active.isEmpty then return false
  let length := s.rest.length
  let (done, active) := s.active.partition fun e => length ≤ e.2
  set { s with active }
  return done.any fun e =>
    ((s.aliases.lookup e.1).bind fun value => value.toList.getLast?).any fun c =>
      c == ' ' || c == '\t'

/-- The text that a word stands for as an alias, if it does. -/
def alias? (word : List Char) : Reading (Option String) := do
  let s ← get
  let name := String.ofList word
  return if s.active.any (·.1 == name) then none else s.aliases.lookup name

def useAlias (word : List Char) (value : String) : Reading Unit := modify fun s =>
  { s with
    rest := value.toList ++ s.rest
    active := (String.ofList word, s.rest.length) :: s.active }

/-- The kind of a redirection after its first character. -/
def redirectionKind (first : Char) : Reading RedirectionKind := do
  if first == '>' then
    if ← accept '>' then return .file .appending
    if ← accept '&' then return .share
    if ← accept '|' then return .file .overwriting
    return .file .writing
  else
    if ← accept '<' then return .document (← accept '-')
    if ← accept '&' then return .share
    if ← accept '>' then return .file .both
    return .file .reading

/-- Joins commands that follow each other. -/
def after (first : Option Command) (c : Command) : Option Command :=
  match first with
  | none => some c
  | some first => some (.sequence first c)

def backgrounded (line : Nat) : Command → Command
  | .redirected line c redirections => .background line c redirections
  | c => .background line c []

/-- The arguments of the script, in which a loop without a list of its own goes through. -/
def allArguments : Word := [.text [] true, .parameter "@" .none true, .text [] true]

mutual

/-- Characters of a word up to its end. `isMark` says that the word ends a document, so that
parameters do not count; `depth` counts the open parentheses of a sum. -/
def parts (m : Mode) (isMark : Bool) (depth : Nat) (built : Building) : Nat → Reading Building
  | 0 => fault "word too long"
  | fuel + 1 => do
    match ← peek with
    | none =>
      match m with
      | .plain | .document => return built
      | .sum => fault "Missing '))'"
      | .braces => fault "Missing '\x7d'"
      | _ => fault "Unterminated quoted string"
    | some c =>
      if m == .plain && endsWord c then return built
      advance
      if c == '\\' then
        match ← next with
        | none => parts m isMark depth (addChar c true built) fuel
        | some d =>
          let built := if m.escapes d then built else addChar c true built
          parts m isMark depth (addChar d true built) fuel
      else if c == '\'' && !m.inQuotes then
        let built ← singleQuoted (addQuotes built) fuel
        parts m isMark depth built fuel
      else if c == '"' && m != .document && m != .sum then
        match m with
        | .quotes _ => return addQuotes built
        | _ =>
          let inner ← parts (.quotes (m != .plain)) isMark 0 (addQuotes built) fuel
          parts m isMark depth inner fuel
      else if c == '}' && (m == .braces || m == .quotedBraces) then return built
      else if c == '$' && !isMark then
        let p ← dollar m fuel
        match p with
        | some p => parts m isMark depth (p :: built) fuel
        | none => parts m isMark depth (addChar c m.inQuotes built) fuel
      else if c == backquote && !isMark then
        let text ← backquoted m.inQuotes [] fuel
        let command ← inBackquotes text fuel
        parts m isMark depth (.output command m.inQuotes :: built) fuel
      else if m == .sum && c == '(' then
        parts m isMark (depth + 1) (addChar c true built) fuel
      else if m == .sum && c == ')' then
        match depth with
        | 0 => if ← accept ')' then return built else parts m isMark 0 (addChar c true built) fuel
        | depth + 1 => parts m isMark depth (addChar c true built) fuel
      else parts m isMark depth (addChar c m.inQuotes built) fuel

/-- The command whose text stood in backquotes; it is read by itself. -/
def inBackquotes (text : List Char) : Nat → Reading Command
  | 0 => fault "word too long"
  | fuel + 1 => do
    let s ← get
    set { s with rest := text, line := 1, held := none, awaited := [], active := [] }
    let c ← list false true none fuel
    modify fun inner => { s with documents := inner.documents }
    return c.getD .nothing

/-- What follows a dollar sign; nothing where the sign stands for itself. -/
def dollar (m : Mode) : Nat → Reading (Option Part)
  | 0 => fault "word too long"
  | fuel + 1 => do
    match ← peek with
    | some '(' =>
      advance
      if ← accept '(' then
        let body ← parts .sum false 0 [] fuel
        return some (.sum (finished body) m.inQuotes)
      else
        let s ← get
        set { s with held := none, awaited := [] }
        let c ← list false true none fuel
        match ← token .plain fuel with
        | .right => pure ()
        | t => unexpected t (some (Token.label .right))
        modify fun inner => { inner with
          awaited := s.awaited
          documents := inner.awaited.foldl (fun ds a => ds.setIfInBounds a.number []) inner.documents }
        return some (.output (c.getD .nothing) m.inQuotes)
    | some '{' =>
      advance
      return some (← inBraces m fuel)
    | some c =>
      if isNameStart c then
        let name ← takeWhile isName [] fuel
        return some (.parameter (String.ofList name) .none m.inQuotes)
      else if c.isDigit || isSpecial c then
        advance
        return some (.parameter c.toString .none m.inQuotes)
      else return none
    | none => return none

/-- A parameter in braces after the opening one. -/
def inBraces (m : Mode) : Nat → Reading Part
  | 0 => fault "word too long"
  | fuel + 1 => do
    let inner : Mode := if m.inQuotes then .quotedBraces else .braces
    let malformed : Reading Part := do
      let _ ← parts inner false 0 [] fuel
      return .parameter "" .malformed m.inQuotes
    let plainName (c : Char) : Reading (Option String) := do
      if isNameStart c then return some (String.ofList (← takeWhile isName [] fuel))
      else if c.isDigit then return some (String.ofList (← takeWhile Char.isDigit [] fuel))
      else return none
    match ← peek with
    | none => malformed
    | some '#' =>
      let start ← get
      advance
      match ← peek with
      | some c =>
        match ← plainName c with
        | some name =>
          if ← accept '}' then return .parameter name .length m.inQuotes else malformed
        | none =>
          let afterSign ← get
          advance
          if c != '}' && (← peek) == some '}' then
            advance
            if isSpecial c then return .parameter c.toString .length m.inQuotes
            else return .parameter "" .malformed m.inQuotes
          else
            set { afterSign with documents := start.documents }
            edited m "#" fuel
      | none => malformed
    | some c =>
      match ← plainName c with
      | some name => edited m name fuel
      | none =>
        if c == '}' then malformed
        else
          advance
          if isSpecial c then edited m c.toString fuel else malformed

/-- What follows the name of a parameter in braces. -/
def edited (m : Mode) (name : String) : Nat → Reading Part
  | 0 => fault "word too long"
  | fuel + 1 => do
    let inner : Mode := if m.inQuotes then .quotedBraces else .braces
    let word : Reading Word := do return finished (← parts inner false 0 [] fuel)
    let pattern : Reading Word := do return finished (← parts .braces false 0 [] fuel)
    let made (e : Edit) : Part := .parameter name e m.inQuotes
    let malformed : Reading Part := do
      let _ ← word
      return made .malformed
    let onValue (evenEmpty : Bool) (c : Char) : Reading Part := do
      match c with
      | '-' => return made (.otherwise evenEmpty (← word))
      | '=' => return made (.assign evenEmpty (← word))
      | '?' => return made (.demand evenEmpty (← word))
      | '+' => return made (.instead evenEmpty (← word))
      | _ => malformed
    match ← peek with
    | none => malformed
    | some c =>
      advance
      match c with
      | '}' => return made .none
      | '#' => return made (.cut false (← accept '#') (← pattern))
      | '%' => return made (.cut true (← accept '%') (← pattern))
      | ':' =>
        match ← peek with
        | some d =>
          advance
          onValue true d
        | none => malformed
      | c => onValue false c

/-- The next token before control words and aliases are looked for. -/
def rawToken : Nat → Reading Token
  | 0 => fault "word too long"
  | fuel + 1 => do
    if let some t := (← get).held then
      modify fun s => { s with held := none }
      return t
    match ← peek with
    | none => return .finish
    | some c =>
      if c == ' ' || c == '\t' then
        advance
        rawToken fuel
      else if c == '#' then
        modify fun s => { s with rest := s.rest.dropWhile (· != '\n') }
        rawToken fuel
      else if c == '\n' then
        advance
        return .newline
      else if c == '&' then
        advance
        return if ← accept '&' then .both else .ampersand
      else if c == '|' then
        advance
        return if ← accept '|' then .either else .bar
      else if c == ';' then
        advance
        return if ← accept ';' then .endCase else .semicolon
      else if c == '(' then
        advance
        return .left
      else if c == ')' then
        advance
        return .right
      else wordToken false fuel

/-- A word, or a redirection where a digit or nothing stands before its sign. -/
def wordToken (isMark : Bool) : Nat → Reading Token
  | 0 => fault "word too long"
  | fuel + 1 => do
    let w := finished (← parts .plain isMark 0 [] fuel)
    match ← peek with
    | some c =>
      if c == '<' || c == '>' then
        let usual := if c == '<' then 0 else 1
        match w with
        | [] =>
          advance
          return .redirection usual (← redirectionKind c)
        | [.text [d] false] =>
          if d.isDigit then
            advance
            return .redirection (d.toNat - 48) (← redirectionKind c)
          else return .word w
        | w => return .word w
      else return .word w
    | none => return .word w

def token (looking : Looking) : Nat → Reading Token
  | 0 => fault "word too long"
  | fuel + 1 => do
    let t ← rawToken fuel
    match t with
    | .newline =>
      if looking.pastLines then
        readDocuments fuel
        token looking fuel
      else return t
    | .word w =>
      let blankBefore ← settleAliases
      match plainText? w with
      | none => return t
      | some text =>
        let name := String.ofList text
        if looking.forKeywords && Token.keywords.contains name then return .keyword name
        if looking.forAliases || blankBefore then
          if let some value ← alias? text then
            useAlias text value
            return ← token looking fuel
        return t
    | t => return t

/-- Reads the documents that have been asked for. -/
def readDocuments : Nat → Reading Unit
  | 0 => pure ()
  | fuel + 1 => do
    let s ← get
    match s.awaited with
    | [] => pure ()
    | a :: awaited =>
      let (text, rest) := documentLines a.mark a.dropTabs (s.rest.length + 1) s.rest
      let line := s.line + (s.rest.take (s.rest.length - rest.length)).count '\n'
      let word ← if a.expands then do
          set { s with rest := text, held := none, awaited := [] }
          let built ← parts .document false 0 [] fuel
          pure (finished built)
        else pure (Word.ofText text)
      modify fun inner => { s with
        rest, line, awaited
        documents := inner.documents.setIfInBounds a.number word }
      readDocuments fuel

/-- The target of a redirection. -/
def target (descriptor : Nat) (kind : RedirectionKind) : Nat → Reading Redirection
  | 0 => fault "word too long"
  | fuel + 1 => do
    match kind with
    | .document dropTabs =>
      let t ← do
        match ← blankThenMark fuel with
        | some t => pure t
        | none => rawToken fuel
      match t with
      | .word w =>
        let s ← get
        let number := s.documents.size
        let awaited : Awaited := ⟨number, markOf w, dropTabs, !isQuoted w⟩
        set { s with documents := s.documents.push [], awaited := s.awaited ++ [awaited] }
        return .document descriptor number
      | t => unexpected t none
    | kind =>
      match ← token .plain fuel with
      | .word w =>
        match kind with
        | .share => return .share descriptor w
        | .file opening => return .file descriptor opening w
        | .document _ => return .document descriptor 0
      | t => unexpected t none

/-- The word that ends a document, if a word is next. -/
def blankThenMark : Nat → Reading (Option Token)
  | 0 => return none
  | fuel + 1 => do
    match ← peek with
    | some c =>
      if c == ' ' || c == '\t' then
        advance
        blankThenMark fuel
      else if endsWord c || c == '#' then return none
      else return some (← wordToken true fuel)
    | none => return none

/-- Redirections after a command that is not simple. -/
def redirections (looking : Looking) : Nat → Reading (List Redirection)
  | 0 => fault "word too long"
  | fuel + 1 => do
    match ← token looking fuel with
    | .redirection descriptor kind =>
      let r ← target descriptor kind fuel
      return r :: (← redirections looking fuel)
    | t =>
      hold t
      return []

/-- The rest of a simple command, or of the definition of a function. What has been found so far
is in reverse. -/
def simple (line : Nat) (first : Bool) (assignments : List (String × Word)) (words : List Word)
    (found : List Redirection) : Nat → Reading Command
  | 0 => fault "word too long"
  | fuel + 1 => do
    let finish : Command :=
      .simple line assignments.reverse words.reverse found.reverse
    match ← token ⟨false, false, first⟩ fuel with
    | .word w =>
      match if first then w.assignment? else none with
      | some a => simple line first (a :: assignments) words found fuel
      | none => simple line false assignments (w :: words) found fuel
    | .redirection descriptor kind =>
      let r ← target descriptor kind fuel
      simple line first assignments words (r :: found) fuel
    | .left =>
      match words, assignments, found with
      | [w], [], [] =>
        match ← token .plain fuel with
        | .right => pure ()
        | t => unexpected t (some (Token.label .right))
        match plainText? w with
        | some name =>
          if isGoodName name && !reserved.contains (String.ofList name) then
            let line := (← get).line
            let body ← command (.atCommand true) fuel
            return .define line (String.ofList name) body
          else fault "Bad function name"
        | none => fault "Bad function name"
      | _, _, _ =>
        hold .left
        return finish
    | t =>
      hold t
      return finish

/-- The rest of a conditional after the word that opens a branch. -/
def branches : Nat → Reading Command
  | 0 => fault "word too long"
  | fuel + 1 => do
    let condition ← list false false none fuel
    expectKeyword "then" fuel
    let consequence ← list false false none fuel
    let t ← token .plain fuel
    let made := Command.branch (condition.getD .nothing) (consequence.getD .nothing)
    if t.isKeyword "elif" then return made (some (← branches fuel))
    else if t.isKeyword "else" then
      let alternative ← list false false none fuel
      return made (some (alternative.getD .nothing))
    else
      hold t
      return made none

def expectKeyword (name : String) : Nat → Reading Unit
  | 0 => fault "word too long"
  | fuel + 1 => do
    let t ← token .plain fuel
    if !t.isKeyword name then unexpected t (some ("\"" ++ name ++ "\""))

/-- The patterns of a case after the token that comes first, up to the closing parenthesis. What
stands in place of a pattern is found out only by what follows it. -/
def patterns (t : Token) (found : List Word) : Nat → Reading (List Word)
  | 0 => fault "word too long"
  | fuel + 1 => do
    let w : Word := match t with
      | .word w => w
      | .keyword name => [Part.text name.toList false]
      | _ => []
    match ← token .plain fuel with
    | .bar => patterns (← token .plain fuel) (w :: found) fuel
    | .right => return (w :: found).reverse
    | t => unexpected t (some (Token.label .right))

def cases (found : List (List Word × Command)) : Nat → Reading (List (List Word × Command))
  | 0 => fault "word too long"
  | fuel + 1 => do
    let t ← token ⟨true, true, false⟩ fuel
    if t.isKeyword "esac" then return found.reverse
    let t ← match t with
      | .left => token .plain fuel
      | t => pure t
    let ps ← patterns t [] fuel
    let body ← list false true none fuel
    let found := (ps, body.getD .nothing) :: found
    match ← token ⟨true, true, false⟩ fuel with
    | .endCase => cases found fuel
    | t =>
      if t.isKeyword "esac" then return found.reverse
      unexpected t (some (Token.label .endCase))

/-- The words that a loop goes through, and the token after them. -/
def items (found : List Word) : Nat → Reading (List Word × Token)
  | 0 => fault "word too long"
  | fuel + 1 => do
    match ← token .plain fuel with
    | .word w => items (w :: found) fuel
    | t => return (found.reverse, t)

def command (looking : Looking) : Nat → Reading Command
  | 0 => fault "word too long"
  | fuel + 1 => do
    let line := (← get).line
    let t ← token looking fuel
    let wrapped (c : Command) : Reading Command := do
      match ← redirections ⟨false, true, true⟩ fuel with
      | [] => return c
      | found =>
        match c with
        | .subshell line c _ => return .subshell line c found
        | c => return .redirected line c found
    match t with
    | .keyword "if" =>
      let c ← branches fuel
      expectKeyword "fi" fuel
      wrapped c
    | .keyword "while" =>
      let condition ← list false false none fuel
      expectKeyword "do" fuel
      let body ← list false false none fuel
      expectKeyword "done" fuel
      wrapped (.loop true (condition.getD .nothing) (body.getD .nothing))
    | .keyword "until" =>
      let condition ← list false false none fuel
      expectKeyword "do" fuel
      let body ← list false false none fuel
      expectKeyword "done" fuel
      wrapped (.loop false (condition.getD .nothing) (body.getD .nothing))
    | .keyword "for" =>
      let name ← match ← token .plain fuel with
        | .word w =>
          match plainText? w with
          | some name => if isGoodName name then pure name else fault "Bad for loop variable"
          | none => fault "Bad for loop variable"
        | _ => fault "Bad for loop variable"
      let t ← token (.atCommand true) fuel
      let found ← if t.isKeyword "in" then do
          let (found, t) ← items [] fuel
          match t with
          | .newline =>
            hold .newline
          | .semicolon => pure ()
          | t => unexpected t none
          pure found
        else do
          match t with
          | .semicolon => pure ()
          | t => hold t
          pure [allArguments]
      let t ← token (.atCommand true) fuel
      if !t.isKeyword "do" then unexpected t (some "\"do\"")
      let body ← list false false none fuel
      expectKeyword "done" fuel
      wrapped (.each line (String.ofList name) found (body.getD .nothing))
    | .keyword "case" =>
      let w ← match ← token .plain fuel with
        | .word w => pure w
        | t => unexpected t (some "word")
      let t ← token (.atCommand true) fuel
      if !t.isKeyword "in" then unexpected t (some "\"in\"")
      wrapped (.choose line w (← cases [] fuel))
    | .left =>
      let c ← list false false none fuel
      match ← token .plain fuel with
      | .right => wrapped (.subshell line (c.getD .nothing) [])
      | t => unexpected t (some (Token.label .right))
    | .keyword "\x7b" =>
      let c ← list false false none fuel
      expectKeyword "\x7d" fuel
      wrapped (c.getD .nothing)
    | .word _ | .redirection _ _ =>
      hold t
      simple (← get).line true [] [] [] fuel
    | t => unexpected t none

/-- Commands joined by bars. -/
def pipeline (looking : Looking) : Nat → Reading Command
  | 0 => fault "word too long"
  | fuel + 1 => do
    let t ← token looking fuel
    if t.isKeyword "!" then
      return .negated (← piped (⟨false, true, true⟩) [] fuel)
    else
      hold t
      piped .plain [] fuel

/-- The rest of a pipeline; the commands before it are in reverse. -/
def piped (looking : Looking) (found : List Command) : Nat → Reading Command
  | 0 => fault "word too long"
  | fuel + 1 => do
    let c ← command looking fuel
    match ← token .plain fuel with
    | .bar => piped (.atCommand true) (c :: found) fuel
    | t =>
      hold t
      return match found with
        | [] => c
        | found => .piped (c :: found).reverse

/-- The pipelines that follow a first one, joined by conditions. -/
def conditional (first : Command) : Nat → Reading Command
  | 0 => fault "word too long"
  | fuel + 1 => do
    match ← token .plain fuel with
    | .both => conditional (.both first (← pipeline (.atCommand true) fuel)) fuel
    | .either => conditional (.either first (← pipeline (.atCommand true) fuel)) fuel
    | t =>
      hold t
      return first

/-- Commands one after another. The list of a whole script ends with its line; any other may have
several lines, and `mayEnd` says whether it can end where it stands. -/
def list (whole mayEnd : Bool) (sofar : Option Command) : Nat → Reading (Option Command)
  | 0 => fault "word too long"
  | fuel + 1 => do
    let t ← token (.atCommand (!whole)) fuel
    match t with
    | .newline =>
      readDocuments fuel
      return sofar
    | .finish =>
      readDocuments fuel
      hold .finish
      return sofar
    | t =>
      hold t
      if mayEnd && !whole && t.endsList then return sofar
      let first ← pipeline .plain fuel
      let c ← conditional first fuel
      let t ← token .plain fuel
      let line := (← get).line
      let c := match t with
        | .ampersand => backgrounded line c
        | _ => c
      let sofar := after sofar c
      match t with
      | .finish =>
        readDocuments fuel
        hold .finish
        return sofar
      | .newline =>
        hold .newline
        list whole true sofar fuel
      | .ampersand | .semicolon => list whole true sofar fuel
      | t =>
        if whole then unexpected t none
        hold t
        return sofar

end

/-- Starts reading a text; new documents get numbers after those there are. -/
def start (text : List Char) (documents : Array Word) (aliases : List (String × String)) : Scan :=
  ⟨text, 1, none, [], documents, aliases, []⟩

/-- One step of reading a script. -/
inductive Read where
  | command (c : Command) (next : Scan)
  /-- A line without a command. -/
  | blank (next : Scan)
  | finished
  | malformed (f : Fault) (documents : Array Word)

/-- Reads the next complete command. -/
def read (s : Scan) : Read :=
  let fuel := 16 * s.rest.length + 256
  match (list true false none fuel).run s with
  | .error f => .malformed f s.documents
  | .ok (some c, next) => .command c next
  | .ok (none, next) =>
    match next.held with
    | some .finish => .finished
    | _ => .blank next

/-- Whether nothing more can be read. -/
def isAtEnd (s : Scan) : Bool :=
  match s.held with
  | some .finish => true
  | _ => false

end ScriptText

end FirmwareMatrix.Shell
