import FirmwareMatrix.Shell.Utility.Record.Token

/-! The grammar of programs for records. Operators are joined by their strength: what joins more
strongly is read as one operand of what joins less. -/

namespace FirmwareMatrix.Shell.Utility.Record

/-- The tokens that are left, the line of the last one taken, and what is being read. -/
structure Scan where
  rest : List (Token × Nat)
  line : Nat
  inFunction : Bool
  forRecords : Bool
  inLoop : Bool

abbrev Reading := EStateM Fault Scan

def peek : Reading (Option Token) := return (← get).rest.head?.map Prod.fst

def skip : Reading Unit := modify fun s =>
  match s.rest with
  | (_, line) :: rest => { s with rest, line }
  | [] => s

def refuse {α : Type} : Reading α := do
  let s ← get
  match s.rest with
  | (t, line) :: _ => throw (.unexpected line t.shown)
  | [] => throw (.missingBrace (s.line + 1))

/-- Takes a sign, if it is the next token. -/
def takes (sign : String) : Reading Bool := do
  if (← peek) == some (.sign sign) then
    skip
    return true
  else return false

def need (sign : String) : Reading Unit := do
  if !(← takes sign) then
    if sign == ")" && (← peek) == some (.sign "\x7d") then
      throw (.missingBracket (← get).line "\x7d")
    refuse

def skipLines : Reading Unit := modify fun s =>
  let after := s.rest.dropWhile (·.1 == .lineEnd)
  let line := ((s.rest.take (s.rest.length - after.length)).getLast?.map (·.2)).getD s.line
  { s with rest := after, line }

def nameNext : Reading String := do
  match ← peek with
  | some (.name s) =>
    skip
    return s
  | _ => refuse

/-! ## Terms -/

/-- How two operands are joined. -/
inductive Joint where
  | or
  | and
  | isIn
  | matches_ (wanted : Bool)
  | compare (c : Comparison)
  | join
  | binary (op : Operator)

def Joint.strength : Joint → Nat
  | or => 1
  | and => 2
  | isIn => 3
  | matches_ _ => 4
  | compare _ => 5
  | join => 6
  | binary .plus | binary .minus => 7
  | binary _ => 8

def Joint.term (j : Joint) (a b : Term) : Term :=
  match j with
  | or => .or a b
  | and => .and a b
  | isIn => .several [a, b]
  | matches_ wanted => .matches_ wanted a b
  | compare c => .compare c a b
  | join => .join a b
  | binary op => .binary op a b

def joints : List (String × Joint) :=
  [("||", .or), ("&&", .and), ("~", .matches_ true), ("!~", .matches_ false), ("<", .compare .less),
    ("<=", .compare .notMore), ("==", .compare .same), ("!=", .compare .different),
    (">", .compare .more), (">=", .compare .notLess), ("+", .binary .plus), ("-", .binary .minus),
    ("*", .binary .times), ("/", .binary .divide), ("%", .binary .rest)]

def assignments : List (String × Option Operator) :=
  [("=", none), ("+=", some .plus), ("-=", some .minus), ("*=", some .times), ("/=", some .divide),
    ("%=", some .rest), ("^=", some .power)]

/-- How a token joins what stands before it with what follows. Where output may be directed to a
file, the sign for that compares nothing. -/
def joint? (inOutput : Bool) : Token → Option Joint
  | .sign s =>
    if (s == ">" || s == ">=") && inOutput then none
    else if ["(", "$", "!", "++", "--"].contains s then some .join
    else joints.lookup s
  | .keyword s => if s == "in" then some .isIn else none
  | .number _ | .text _ | .regex _ | .name _ | .call _ | .routine _ _ => some .join
  | .lineEnd => none

mutual

/-- Any term. -/
def term (inOutput : Bool) : Nat → Reading Term
  | 0 => refuse
  | fuel + 1 => do
    let t ← joined inOutput 1 fuel
    if !(← takes "?") then return t
    skipLines
    let yes ← term inOutput fuel
    skipLines
    need ":"
    skipLines
    return .choose t yes (← term inOutput fuel)

/-- Terms with commas between them. -/
def terms (inOutput : Bool) : Nat → Reading (List Term)
  | 0 => refuse
  | fuel + 1 => do
    let t ← term inOutput fuel
    if ← takes "," then
      skipLines
      return t :: (← terms inOutput fuel)
    else return [t]

/-- Operands that are joined with a strength or a greater one. -/
def joined (inOutput : Bool) (strength : Nat) : Nat → Reading Term
  | 0 => refuse
  | fuel + 1 => do
    let t ← signed fuel
    match t, ← peek with
    | .at_ p, some (.sign s) =>
      match assignments.lookup s with
      | some op =>
        skip
        skipLines
        extended inOutput strength (.assign p op (← term inOutput fuel)) fuel
      | none => extended inOutput strength t fuel
    | t, _ => extended inOutput strength t fuel

/-- A term with what is joined to it. -/
def extended (inOutput : Bool) (strength : Nat) (t : Term) : Nat → Reading Term
  | 0 => refuse
  | fuel + 1 => do
    match (← peek).bind (joint? inOutput) with
    | none => return t
    | some j =>
      if j.strength < strength then return t
      match j with
      | .isIn =>
        skip
        extended inOutput strength (.isIn [t] (← nameNext)) fuel
      | .join =>
        extended inOutput strength (j.term t (← joined inOutput (j.strength + 1) fuel)) fuel
      | j =>
        skip
        if j.strength < 3 then skipLines
        extended inOutput strength (j.term t (← joined inOutput (j.strength + 1) fuel)) fuel

/-- An operand with signs before it. -/
def signed : Nat → Reading Term
  | 0 => refuse
  | fuel + 1 => do
    match ← peek with
    | some (.sign s) =>
      match s with
      | "!" =>
        skip
        return .not (← signed fuel)
      | "-" =>
        skip
        return .negate (← signed fuel)
      | "+" =>
        skip
        return .plus (← signed fuel)
      | _ => piped (← power fuel) fuel
    | _ => piped (← power fuel) fuel

/-- The records that commands print. -/
def piped (t : Term) : Nat → Reading Term
  | 0 => refuse
  | fuel + 1 => do
    match (← get).rest with
    | (.sign "|", _) :: (.keyword "getline", _) :: _ =>
      skip
      skip
      piped (.record (← target fuel) (some t) true) fuel
    | _ => return t

/-- The place that a record is read into, if one is given. -/
def target : Nat → Reading (Option Place)
  | 0 => refuse
  | fuel + 1 => do
    let isPlace := match ← peek with
      | some (.name _) => true
      | some (.sign s) => s == "$"
      | _ => false
    if !isPlace then return none
    match ← operand fuel with
    | .at_ p => return some p
    | _ => refuse

def power : Nat → Reading Term
  | 0 => refuse
  | fuel + 1 => do
    let t ← stepped fuel
    if ← takes "^" then return .binary .power t (← signed fuel) else return t

/-- An operand with a step after it. -/
def stepped : Nat → Reading Term
  | 0 => refuse
  | fuel + 1 => do
    match ← operand fuel with
    | .at_ p =>
      if ← takes "++" then return .step p true false
      else if ← takes "--" then return .step p false false
      else return .at_ p
    | t => return t

/-- What stands between brackets after a name. -/
def arguments : Nat → Reading (List Term)
  | 0 => refuse
  | fuel + 1 => do
    need "("
    skipLines
    if ← takes ")" then return []
    let ts ← terms false fuel
    skipLines
    need ")"
    return ts

def operand : Nat → Reading Term
  | 0 => refuse
  | fuel + 1 => do
    match ← peek with
    | some (.number x) =>
      skip
      return .number x
    | some (.text s) =>
      skip
      return .text s
    | some (.regex s) =>
      skip
      match expression? s with
      | some e => return .regex e
      | none => throw (.badExpression (← get).line (String.ofList s))
    | some (.name s) =>
      skip
      if ← takes "[" then
        let keys ← terms false fuel
        need "]"
        return .at_ (.item s keys)
      else return .at_ (.variable s)
    | some (.call s) =>
      skip
      return .call s (← arguments fuel)
    | some (.routine r name) =>
      skip
      if (← peek) == some (.sign "(") then
        let ts ← arguments fuel
        if !r.takes ts.length then throw (.wrongCount (← get).line name)
        return .routine r ts
      else if r = .length then return .routine r []
      else refuse
    | some (.keyword "getline") =>
      skip
      let p ← target fuel
      if ← takes "<" then return .record p (some (← operand fuel)) false
      else return .record p none false
    | some (.sign s) =>
      match s with
      | "(" =>
        skip
        skipLines
        let ts ← terms false fuel
        skipLines
        need ")"
        match ts with
        | [t] => return t
        | ts =>
          match ← peek with
          | some (.keyword "in") =>
            skip
            return .isIn ts (← nameNext)
          | _ => return .several ts
      | "$" =>
        skip
        match ← peek with
        | some (.sign "-") =>
          skip
          return .at_ (.field (.negate (← operand fuel)))
        | _ => return .at_ (.field (← operand fuel))
      | "++" =>
        skip
        match ← operand fuel with
        | .at_ p => return .step p true true
        | _ => refuse
      | "--" =>
        skip
        match ← operand fuel with
        | .at_ p => return .step p false true
        | _ => refuse
      | _ => refuse
    | _ => refuse

end

/-! ## Statements -/

/-- The end of a simple statement. -/
def ending : Reading Unit := do
  match ← peek with
  | some (.sign ";") => skip
  | some .lineEnd => skipLines
  | some (.sign "\x7d") => return
  | _ => refuse

/-- Whether a statement ends here. -/
def atEnding : Reading Bool := do
  match ← peek with
  | some (.sign s) => return s == ";" || s == "\x7d"
  | some .lineEnd => return true
  | _ => return false

/-- A term unless the statement ends here. -/
def optional (fuel : Nat) : Reading (Option Term) := do
  if ← atEnding then return none else return some (← term false fuel)

/-- What is printed, and where to. -/
def printing (fuel : Nat) : Reading (List Term × Option Sink) := do
  let startsSink : Token → Bool
    | .sign s => [">", ">>", "|"].contains s
    | _ => false
  let isEmpty := (← atEnding) || (← peek).any startsSink
  let ts ← if isEmpty then pure [] else terms true fuel
  let ts := match ts with
    | [.several ts] => ts
    | ts => ts
  if (← peek) == some (.sign ">=") then throw (.unexpected (← get).line "=")
  if ← takes ">" then return (ts, some (.file (← term false fuel)))
  else if ← takes ">>" then return (ts, some (.fileEnd (← term false fuel)))
  else if ← takes "|" then return (ts, some (.command (← term false fuel)))
  else return (ts, none)

/-- Refuses a statement that may not stand here. -/
def demand (holds : Scan → Bool) (text : String) : Reading Unit := do
  let s ← get
  if !holds s then throw (.misplaced s.line text)

/-- A statement that may stand in the head of a loop. -/
def simple (fuel : Nat) : Reading Statement := do
  match ← peek with
  | some (.keyword s) =>
    match s with
    | "print" =>
      skip
      let (ts, sink) ← printing fuel
      return .print ts sink
    | "printf" =>
      skip
      let (ts, sink) ← printing fuel
      if ts.isEmpty then refuse
      return .format ts sink
    | "delete" =>
      skip
      let name ← nameNext
      if ← takes "[" then
        let keys ← terms false fuel
        need "]"
        return .remove name keys
      else return .remove name []
    | "break" =>
      skip
      demand Scan.inLoop "break statement outside of loop"
      return .leave
    | "continue" =>
      skip
      demand Scan.inLoop "continue statement outside of loop"
      return .again
    | "next" =>
      skip
      demand Scan.forRecords "improper use of next"
      return .nextRecord
    | "nextfile" =>
      skip
      demand Scan.forRecords "improper use of nextfile"
      return .nextFile
    | "exit" =>
      skip
      return .exit (← optional fuel)
    | "return" =>
      skip
      demand Scan.inFunction "return outside function body"
      return .back (← optional fuel)
    | _ => return .value (← term false fuel)
  | _ => return .value (← term false fuel)

/-- What a condition in brackets after a word is. -/
def bracketed (fuel : Nat) : Reading Term := do
  need "("
  let t ← term false fuel
  need ")"
  return t

/-- Reads the body of a loop. -/
def looping (body : Reading Statement) : Reading Statement := do
  let before := (← get).inLoop
  modify fun s => { s with inLoop := true }
  let s ← body
  modify fun s => { s with inLoop := before }
  return s

mutual

/-- Statements up to the brace that ends them. -/
def statements : Nat → Reading Statement
  | 0 => refuse
  | fuel + 1 => do
    skipLines
    if ← takes "\x7d" then return .nothing
    let s ← statement fuel
    return .both s (← statements fuel)

def statement : Nat → Reading Statement
  | 0 => refuse
  | fuel + 1 => do
    match ← peek with
    | some (.sign "\x7b") =>
      skip
      statements fuel
    | some (.sign ";") =>
      skip
      return .nothing
    | some (.keyword s) =>
      match s with
      | "if" =>
        skip
        let condition ← bracketed fuel
        skipLines
        let yes ← statement fuel
        skipLines
        if (← peek) == some (.keyword "else") then
          skip
          skipLines
          return .branch condition yes (← statement fuel)
        else return .branch condition yes .nothing
      | "while" =>
        skip
        let condition ← bracketed fuel
        if ← takes ";" then return .loop condition .nothing
        skipLines
        return .loop condition (← looping (statement fuel))
      | "do" =>
        skip
        skipLines
        let body ← looping (statement fuel)
        skipLines
        if (← peek) == some (.keyword "while") then
          skip
          let condition ← bracketed fuel
          ending
          return .loopAfter body condition
        else refuse
      | "for" =>
        skip
        need "("
        match (← get).rest with
        | (.name name, _) :: (.keyword "in", _) :: (.name array, _) :: (.sign ")", _) :: _ =>
          skip
          skip
          skip
          skip
          skipLines
          return .each name array (← looping (statement fuel))
        | _ =>
          let start ← if (← peek) == some (.sign ";") then pure .nothing else simple fuel
          need ";"
          skipLines
          let condition ← optional fuel
          need ";"
          skipLines
          let next ← if (← peek) == some (.sign ")") then pure .nothing else simple fuel
          need ")"
          if ← takes ";" then return .count start condition next .nothing
          skipLines
          return .count start condition next (← looping (statement fuel))
      | _ =>
        let s ← simple fuel
        ending
        return s
    | _ =>
      let s ← simple fuel
      ending
      return s

end

/-! ## Programs -/

/-- The names between the brackets of a function. -/
def parameters : Nat → Reading (List String)
  | 0 => refuse
  | fuel + 1 => do
    skipLines
    if ← takes ")" then return []
    let name ← nameNext
    skipLines
    if ← takes "," then return name :: (← parameters fuel)
    need ")"
    return [name]

def block (fuel : Nat) : Reading Statement := do
  need "\x7b"
  statements fuel

/-- What happens with a record that a condition holds for: it is printed if nothing is said. -/
def body (fuel : Nat) : Reading Statement := do
  if (← peek) == some (.sign "\x7b") then block fuel
  else
    match ← peek with
    | none | some .lineEnd | some (.sign ";") => return .print [] none
    | _ => refuse

/-- Rules and functions up to the end of the program. -/
def program (p : Program) : Nat → Reading Program
  | 0 => return p
  | fuel + 1 => do
    skipLines
    match ← peek with
    | none => return p
    | some t =>
      if t == .keyword "function" then
        skip
        modify fun s => { s with inFunction := true, forRecords := true }
        let name ← match ← peek with
          | some (.name s) | some (.call s) => do
            skip
            pure s
          | _ => refuse
        need "("
        let parameters ← parameters fuel
        skipLines
        let body ← block fuel
        modify fun s => { s with inFunction := false }
        let _ ← takes ";"
        program { p with functions := p.functions ++ [⟨name, parameters, body⟩] } fuel
      else
        let condition : Condition ← match t with
          | .keyword "BEGIN" => do
            skip
            pure .start
          | .keyword "END" => do
            skip
            pure .finish
          | .sign "\x7b" => pure .always
          | _ => do
            let t ← term false fuel
            if ← takes "," then
              skipLines
              pure (.range t (← term false fuel))
            else pure (.holds t)
        let forRecords := match condition with
          | .start | .finish => false
          | _ => true
        modify fun s => { s with forRecords }
        let body ← if forRecords then body fuel else block fuel
        let _ ← takes ";"
        program { p with rules := p.rules ++ [⟨condition, body⟩] } fuel

/-- The functions that a program has. -/
def defined : List (Token × Nat) → List String
  | (.keyword "function", _) :: (.name s, n) :: rest => s :: defined ((.name s, n) :: rest)
  | (.keyword "function", _) :: (.call s, n) :: rest => s :: defined ((.call s, n) :: rest)
  | _ :: rest => defined rest
  | [] => []

/-- Tokens where the names of functions are known as such, whatever stands behind them. -/
def withCalls (ts : List (Token × Nat)) : List (Token × Nat) :=
  let names := defined ts
  ts.map fun (t, line) => match t with
    | .name s => (if names.contains s then .call s else t, line)
    | t => (t, line)

/-- The first call of a function that there is not, with its line. -/
def missing? (p : Program) (ts : List (Token × Nat)) : Option (String × Nat) :=
  (ts.filterMap fun (t, _) => match t with
    | .call s => if p.functions.any (·.name == s) then none else some s
    | _ => none).head?.map fun s => (s, (ts.getLast?.map (·.2)).getD 1 + 1)

/-- Reads a program. -/
def Program.read (text : List Char) : Except Fault Program := do
  let ts := withCalls (← tokens (text.length + 1) 1 .lineEnd text)
  match (program ⟨[], []⟩ (8 * ts.length + 64)).run ⟨ts, 1, false, false, false⟩ with
  | .error f _ => throw f
  | .ok p _ =>
    match missing? p ts with
    | some (name, line) => throw (.noFunction line name)
    | none => return p

end FirmwareMatrix.Shell.Utility.Record
