import FirmwareMatrix.Shell.Numeral

/-! Whole-number sums of a shell: operators in their order of precedence, conditions, and variables,
which a sum may also set. What is not needed for the result is read and not carried out. -/

namespace FirmwareMatrix.Shell.Sum

inductive Token where
  | number (n : Int)
  | name (s : String)
  | operator (s : String)
  /-- Something that is no part of a sum. -/
  | other
  deriving DecidableEq, Repr

/-- Why a sum has no value. -/
inductive Fault where
  | noOperand
  | unclosed
  | noColon
  | leftover
  | divisionByZero
  /-- A variable holds something that is no number. -/
  | notNumber (s : String)
  deriving DecidableEq, Repr

/-- The fault in a sum in words. -/
def Fault.message (sum : String) : Fault → String
  | noOperand => "arithmetic expression: expecting primary: \"" ++ sum ++ "\""
  | unclosed => "arithmetic expression: expecting ')': \"" ++ sum ++ "\""
  | noColon => "arithmetic expression: expecting ':': \"" ++ sum ++ "\""
  | leftover => "arithmetic expression: expecting EOF: \"" ++ sum ++ "\""
  | divisionByZero => "arithmetic expression: division by zero: \"" ++ sum ++ "\""
  | notNumber s => "Illegal number: " ++ s

/-- All operators; of two that a text may start with, the longer one is first. -/
def operators : List String :=
  ["<<=", ">>=", "<<", ">>", "<=", ">=", "==", "!=", "&&", "||", "+=", "-=", "*=", "/=", "%=",
    "&=", "^=", "|=", "+", "-", "*", "/", "%", "<", ">", "=", "!", "~", "&", "^", "|", "?", ":",
    "(", ")"]

def isNameStart (c : Char) : Bool := c.isAlpha || c == '_'

def isName (c : Char) : Bool := c.isAlphanum || c == '_'

/-- The tokens of a sum up to the first that is none; `fuel` is at least its length. -/
def tokens : Nat → List Char → List Token
  | 0, _ => []
  | _, [] => []
  | fuel + 1, c :: cs =>
    if c == ' ' || c == '\t' || c == '\n' then tokens fuel cs
    else if c.isDigit then
      match Numeral.unsigned? (c :: cs) with
      | some (n, rest) => .number (Numeral.clamp n) :: tokens fuel rest
      | none => [.other]
    else if isNameStart c then
      let word := (c :: cs).takeWhile isName
      .name (String.ofList word) :: tokens fuel ((c :: cs).drop word.length)
    else
      match operators.find? fun o => o.toList.isPrefixOf (c :: cs) with
      | some o => .operator o :: tokens fuel ((c :: cs).drop o.length)
      | none => [.other]

/-- How tightly an operator of two operands binds; less is tighter. -/
def level? : Token → Option Nat
  | .operator o =>
    [("*", 1), ("/", 1), ("%", 1), ("+", 2), ("-", 2), ("<<", 3), (">>", 3), ("<", 4), ("<=", 4),
      (">", 4), (">=", 4), ("==", 5), ("!=", 5), ("&", 6), ("^", 7), ("|", 8)].lookup o
  | _ => none

def truth (b : Bool) : Int := if b then 1 else 0

/-- The bits of a number, as one that is not negative. -/
def bits (n : Int) : Nat := (n % Numeral.count).toNat

/-- The result of an operator; there is none where one would divide by zero. -/
def apply (o : String) (a b : Int) : Option Int :=
  match o with
  | "*" => some (Numeral.wrap (a * b))
  | "/" => if b = 0 then none else some (Numeral.wrap (a.tdiv b))
  | "%" => if b = 0 then none else some (a.tmod b)
  | "+" => some (Numeral.wrap (a + b))
  | "-" => some (Numeral.wrap (a - b))
  | "<<" => some (Numeral.wrap (a * Nat.pow 2 (bits b % 64)))
  | ">>" => some (a.fdiv (Nat.pow 2 (bits b % 64)))
  | "<" => some (truth (a < b))
  | "<=" => some (truth (a ≤ b))
  | ">" => some (truth (b < a))
  | ">=" => some (truth (b ≤ a))
  | "==" => some (truth (a == b))
  | "!=" => some (truth (a != b))
  | "&" => some (Numeral.wrap (Nat.land (bits a) (bits b)))
  | "^" => some (Numeral.wrap (Nat.xor (bits a) (bits b)))
  | "|" => some (Numeral.wrap (Nat.lor (bits a) (bits b)))
  | _ => none

/-- The operator that an assignment applies first, if it applies one. -/
def assigning? : Token → Option (Option String)
  | .operator "=" => some none
  | .operator o =>
    if ["<<=", ">>=", "+=", "-=", "*=", "/=", "%=", "&=", "^=", "|="].contains o then
      some (some (String.ofList o.toList.dropLast))
    else none
  | _ => none

/-- What is left of a sum, and the variables that it has set, the latest first. -/
structure Scan where
  rest : List Token
  set : List (String × Int)

abbrev Evaluation := EStateM Fault Scan

def peek : Evaluation (Option Token) := return (← get).rest.head?

def advance : Evaluation Unit := modify fun s => { s with rest := s.rest.tail }

def accept (o : String) : Evaluation Bool := do
  if (← peek) == some (.operator o) then
    advance
    return true
  else return false

/-- The number that a variable holds; one that is missing or empty counts as zero. -/
def valueOf (values : String → Option String) (name : String) : Evaluation Int := do
  match (← get).set.lookup name with
  | some n => return n
  | none =>
    let text := (values name).getD ""
    if text.toList.all Numeral.isSpace then return 0
    match Numeral.whole? true text with
    | some n => return n
    | none => throw (.notNumber text)

def combine (needed : Bool) (o : String) (a b : Int) : Evaluation Int :=
  if needed then
    match apply o a b with
    | some n => return n
    | none => throw .divisionByZero
  else return b

mutual

/-- A number, a variable, a sum in parentheses or one of these with a sign. -/
def operand (values : String → Option String) (needed : Bool) : Nat → Evaluation Int
  | 0 => throw .noOperand
  | fuel + 1 => do
    match ← peek with
    | some (.number n) =>
      advance
      return n
    | some (.name s) =>
      advance
      if needed then valueOf values s else return 0
    | some (.operator o) =>
      match o with
      | "(" =>
        advance
        let n ← assignment values needed fuel
        if ← accept ")" then return n else throw .unclosed
      | "+" =>
        advance
        operand values needed fuel
      | "-" =>
        advance
        return Numeral.wrap (-(← operand values needed fuel))
      | "!" =>
        advance
        return truth ((← operand values needed fuel) == 0)
      | "~" =>
        advance
        return -(← operand values needed fuel) - 1
      | _ => throw .noOperand
    | _ => throw .noOperand

/-- The operators that follow an operand and bind at least as tightly as `loosest`. -/
def operations (values : String → Option String) (needed : Bool) (loosest : Nat) (a : Int) :
    Nat → Evaluation Int
  | 0 => throw .leftover
  | fuel + 1 => do
    match ← peek with
    | some (.operator o) =>
      match level? (.operator o) with
      | some level =>
        if level ≤ loosest then
          advance
          let b ← operand values needed fuel
          let b ← operations values needed (level - 1) b fuel
          operations values needed loosest (← combine needed o a b) fuel
        else return a
      | none => return a
    | _ => return a

def allOf (values : String → Option String) (needed : Bool) : Nat → Evaluation Int
  | 0 => throw .noOperand
  | fuel + 1 => do
    let a ← operations values needed 8 (← operand values needed fuel) fuel
    if ← accept "&&" then
      let b ← allOf values (needed && a != 0) fuel
      return truth (a != 0 && b != 0)
    else return a

def anyOf (values : String → Option String) (needed : Bool) : Nat → Evaluation Int
  | 0 => throw .noOperand
  | fuel + 1 => do
    let a ← allOf values needed fuel
    if ← accept "||" then
      let b ← anyOf values (needed && a == 0) fuel
      return truth (a != 0 || b != 0)
    else return a

def choice (values : String → Option String) (needed : Bool) : Nat → Evaluation Int
  | 0 => throw .noOperand
  | fuel + 1 => do
    let a ← anyOf values needed fuel
    if ← accept "?" then
      let b ← assignment values (needed && a != 0) fuel
      if ← accept ":" then
        let c ← choice values (needed && a == 0) fuel
        return if a != 0 then b else c
      else throw .noColon
    else return a

def assignment (values : String → Option String) (needed : Bool) : Nat → Evaluation Int
  | 0 => throw .noOperand
  | fuel + 1 => do
    match (← get).rest with
    | .name s :: t :: rest =>
      match assigning? t with
      | none => choice values needed fuel
      | some o =>
        modify fun scan => { scan with rest }
        let n ← assignment values needed fuel
        if needed then
          let n ← match o with
            | some o => combine true o (← valueOf values s) n
            | none => pure n
          modify fun scan => { scan with set := (s, n) :: scan.set }
          return n
        else return n
    | _ => choice values needed fuel

end

/-- The value of a sum, and the variables that it sets in the order in which it sets them. -/
def evaluate (values : String → Option String) (cs : List Char) :
    Except Fault Int × List (String × Int) :=
  let found := tokens cs.length cs
  let act : Evaluation Int := do
    let n ← assignment values true (8 * found.length + 16)
    if (← get).rest.isEmpty then return n else throw .leftover
  match act.run ⟨found, []⟩ with
  | .ok n s => (.ok n, s.set.reverse)
  | .error f s => (.error f, s.set.reverse)

end FirmwareMatrix.Shell.Sum
