import FirmwareMatrix.Disk
import FirmwareMatrix.Shell.Numeral
import FirmwareMatrix.Shell.Bytes

/-! Conditions on texts, numbers and files, joined by words for and, or and not and grouped by
parentheses. A word that could be an operator is an operand where no other reading is left. -/

namespace FirmwareMatrix.Shell.Condition

inductive Kind where
  | unary
  | binary
  | and
  | or
  | not
  | opening
  | closing
  deriving DecidableEq, Repr

def operator? (word : String) : Option Kind :=
  if ["-r", "-w", "-x", "-e", "-f", "-d", "-c", "-b", "-p", "-u", "-g", "-k", "-s", "-t", "-z", "-n",
      "-h", "-L", "-O", "-G", "-S"].contains word then some .unary
  else if ["=", "!=", "<", ">", "-eq", "-ne", "-ge", "-gt", "-le", "-lt", "-nt", "-ot",
      "-ef"].contains word then some .binary
  else match word with
    | "-a" => some .and
    | "-o" => some .or
    | "!" => some .not
    | "(" => some .opening
    | ")" => some .closing
    | _ => none

/-- Why some words are no condition. -/
inductive Fault where
  | unexpected (word : String)
  | noArgument (operator : String)
  | unclosed
  | notNumber (word : String)
  deriving DecidableEq, Repr

def Fault.message : Fault → String
  | unexpected "" => "unexpected operator"
  | unexpected word => word ++ ": unexpected operator"
  | noArgument operator => operator ++ ": argument expected"
  | unclosed => "closing paren expected"
  | notNumber word => "Illegal number: " ++ word

/-- What can be asked about the files that words name. -/
structure Files where
  /-- A test on one file. -/
  holds : String → String → Bool
  /-- A comparison of two files. -/
  compares : String → String → String → Bool

/-- Evaluation at a position among the words. -/
abbrev Evaluation := StateT Nat (Except Fault)

inductive Lexeme where
  | finish
  | operand
  | operator (word : String) (kind : Kind)

/-- The word at a position as an operator, if it can be one there. -/
def lexeme (words : Array String) (i : Nat) : Lexeme :=
  match words[i]? with
  | none => .finish
  | some word =>
    match operator? word with
    | none => .operand
    | some kind =>
      let isOperand : Bool := match kind with
        | .unary =>
          match words[i + 1]?, words[i + 2]? with
          | none, _ => true
          | some _, none => false
          | some next, some _ => operator? next == some .binary
        | .opening => words[i + 1]?.isNone
        | _ => false
      if isOperand then .operand else .operator word kind

def number (word : String) : Evaluation Int :=
  match Numeral.whole? false word with
  | some n => return n
  | none => throw (.notNumber word)

def compare (files : Files) (operator a b : String) : Evaluation Bool := do
  match operator with
  | "=" => return a == b
  | "!=" => return a != b
  | "<" => return a < b
  | ">" => return b < a
  | "-eq" => return (← number a) == (← number b)
  | "-ne" => return (← number a) != (← number b)
  | "-ge" => return (← number b) ≤ (← number a)
  | "-gt" => return (← number b) < (← number a)
  | "-le" => return (← number a) ≤ (← number b)
  | "-lt" => return (← number a) < (← number b)
  | operator => return files.compares operator a b

def inspect (files : Files) (operator a : String) : Evaluation Bool := do
  match operator with
  | "-z" => return a.isEmpty
  | "-n" => return !a.isEmpty
  | "-t" =>
    let _ ← number a
    return false
  | operator => return files.holds operator a

mutual

def anyOf (files : Files) (words : Array String) (start : Lexeme) (sofar : Bool) :
    Nat → Evaluation Bool
  | 0 => return sofar
  | fuel + 1 => do
    let found ← allOf files words start true fuel
    let sofar := sofar || found
    match lexeme words ((← get) + 1) with
    | .operator _ .or =>
      modify (· + 2)
      anyOf files words (lexeme words (← get)) sofar fuel
    | _ => return sofar

def allOf (files : Files) (words : Array String) (start : Lexeme) (sofar : Bool) :
    Nat → Evaluation Bool
  | 0 => return sofar
  | fuel + 1 => do
    let found ← negation files words start fuel
    let sofar := sofar && found
    match lexeme words ((← get) + 1) with
    | .operator _ .and =>
      modify (· + 2)
      allOf files words (lexeme words (← get)) sofar fuel
    | _ => return sofar

def negation (files : Files) (words : Array String) (start : Lexeme) : Nat → Evaluation Bool
  | 0 => return false
  | fuel + 1 => do
    match start with
    | .operator _ .not =>
      let next := lexeme words ((← get) + 1)
      match next with
      | .finish => pure ()
      | _ => modify (· + 1)
      return !(← negation files words next fuel)
    | start => primary files words start fuel

def primary (files : Files) (words : Array String) (start : Lexeme) : Nat → Evaluation Bool
  | 0 => return false
  | fuel + 1 => do
    match start with
    | .finish => return false
    | .operator _ .opening =>
      modify (· + 1)
      match lexeme words (← get) with
      | .operator _ .closing => return false
      | inner =>
        let found ← anyOf files words inner false fuel
        modify (· + 1)
        match lexeme words (← get) with
        | .operator _ .closing => return found
        | _ => throw .unclosed
    | .operator word .unary =>
      modify (· + 1)
      match words[← get]? with
      | none => throw (.noArgument word)
      | some a => inspect files word a
    | _ =>
      let i ← get
      let a := (words[i]?).getD ""
      match lexeme words (i + 1) with
      | .operator word .binary =>
        set (i + 2)
        match words[i + 2]? with
        | none => throw (.noArgument word)
        | some b => compare files word a b
      | _ => return !a.isEmpty

end

/-- Evaluates from the first word on; none may be left over at the end. -/
def evaluate (files : Files) (words : List String) (start : Option Lexeme) :
    Except Fault Bool := do
  let ws := words.toArray
  let (found, i) ← (anyOf files ws (start.getD (lexeme ws 0)) false (8 * ws.size + 16)).run 0
  match ws[i]?, ws[i + 1]? with
  | some word, some _ => throw (.unexpected word)
  | _, _ => return found

/-- Whether some words hold as a condition. Of four words or less, some readings come first. -/
def holds (files : Files) : List String → Except Fault Bool
  | [] => .ok false
  | [a, op, b] =>
    if operator? op == some .binary then evaluate files [a, op, b] (some .operand)
    else if a == "(" && b == ")" then evaluate files [op] none
    else if a == "!" then (evaluate files [op, b] none).map (!·)
    else evaluate files [a, op, b] none
  | [a, b, c, d] =>
    if a == "(" && d == ")" then evaluate files [b, c] none
    else if a == "!" then
      if operator? c == some .binary then
        (evaluate files [b, c, d] (some .operand)).map (!·)
      else if b == "(" && d == ")" then (evaluate files [c] none).map (!·)
      else if b == "!" then evaluate files [c, d] none
      else (evaluate files [b, c, d] none).map (!·)
    else evaluate files [a, b, c, d] none
  | words => evaluate files words none

/-! ## Files -/

def holdsOf (d : Disk) (here : Disk.Place) (operator : String) (word : String) : Bool :=
  let path : Path := ⟨Bytes.toText word⟩
  let found := d.find here path
  let isDevice (e : Disk.Entry) : Bool := match e with
    | .device _ => true
    | _ => false
  match operator with
  | "-L" | "-h" =>
    match d.findName here path with
    | .ok (_, .link _) => true
    | _ => false
  | operator =>
    match found with
    | .error _ => false
    | .ok (_, e) =>
      match operator with
      | "-e" | "-r" | "-w" | "-O" | "-G" => true
      | "-f" =>
        match e with
        | .file _ _ | .program _ => true
        | _ => false
      | "-d" => e == .directory
      | "-c" => isDevice e
      | "-s" =>
        match e with
        | .file bytes _ => !bytes.isEmpty
        | .directory | .program _ => true
        | _ => false
      | "-x" =>
        match e with
        | .file _ executable => executable
        | .directory | .program _ => true
        | _ => false
      | _ => false

/-- Of two files the one that was changed later stands first among the entries. -/
def comparesOf (d : Disk) (here : Disk.Place) (operator a b : String) : Bool :=
  match d.find here ⟨Bytes.toText a⟩, d.find here ⟨Bytes.toText b⟩ with
  | .ok (x, _), .ok (y, _) =>
    let isNewer (x y : Disk.Place) : Bool :=
      match (d.entries.map Prod.fst).idxOf? x, (d.entries.map Prod.fst).idxOf? y with
      | some i, some j => i < j
      | _, _ => false
    match operator with
    | "-ef" => x == y
    | "-nt" => isNewer x y
    | "-ot" => isNewer y x
    | _ => false
  | _, _ => false

def filesOf (d : Disk) (here : Disk.Place) : Files := ⟨holdsOf d here, comparesOf d here⟩

end FirmwareMatrix.Shell.Condition
