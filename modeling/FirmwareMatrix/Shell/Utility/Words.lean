import FirmwareMatrix.Shell.Condition
import FirmwareMatrix.Shell.Format
import FirmwareMatrix.Shell.Utility.Arguments
import FirmwareMatrix.Shell.Utility.Expression

/-! Programs that work on nothing but their arguments: printing them, plainly or by a format, and
judging and computing what they say. -/

namespace FirmwareMatrix.Shell.Utility.Words

open Act

/-! ## Printing -/

/-- Options of the plain printer; words that hold other letters are no options. -/
def plainOptions : List String → List Char × List String
  | [] => ([], [])
  | word :: rest =>
    match word.toList with
    | '-' :: c :: cs =>
      if (c :: cs).all "neE".toList.contains then
        let (found, left) := plainOptions rest
        (c :: cs ++ found, left)
      else ([], word :: rest)
    | _ => ([], word :: rest)

/-- Escapes of the plain printer: octal codes need no zero before them. -/
def withoutEscapes (text : List Char) : List Char × Bool := Format.unescape true text.length text

def echo (args : List String) : Act Nat := do
  let (flags, words) := plainOptions args
  let text := (String.intercalate " " words).toList
  let counts := (flags.reverse.find? (· != 'n')) == some 'e'
  let (shown, stopped) := if counts then withoutEscapes text else (text, false)
  emit (String.ofList (if stopped || flags.contains 'n' then shown else shown ++ ['\n']))
  return 0

/-- What is said about a fault in a format or in what it prints. -/
def formatFault : Format.Fault → String
  | .notNumber s => quoted s ++ ": expected a numeric value"
  | .leftover s => quoted s ++ ": value not completely converted"
  | .outOfRange s => quoted s ++ ": Numerical result out of range"
  | .invalid text => text ++ ": invalid conversion specification"
  | .cut => "%: invalid conversion specification"

def printf (args : List String) : Act Nat := do
  match if args.head? == some "--" then args.tail else args with
  | [] =>
    complain "printf: missing operand\nTry 'printf --help' for more information."
    return 1
  | format :: args =>
    let (text, faults, left) := Format.print true format args
    emit (String.ofList text)
    faults.forM fun f => complain ("printf: " ++ formatFault f)
    if let (extra :: _, []) := (left, faults) then
      if left.length == args.length then
        complain ("printf: warning: ignoring excess arguments, starting with " ++ quoted extra)
    return if faults.isEmpty then 0 else 1

/-! ## Judging -/

def test (bracket : Bool) (args : List String) : Act Nat := do
  let name := if bracket then "[: " else "test: "
  if bracket && args.getLast? != some "]" then
    complain (name ++ "missing ']'")
    return 2
  let p ← process
  let words := if bracket then args.dropLast else args
  match Condition.holds (Condition.filesOf (← disk) p.here) words with
  | .ok found => return if found then 0 else 1
  | .error f =>
    complain (name ++ f.message)
    return 2

/-! ## Computing -/

/-- A value is a text; some texts are numbers. -/
inductive Fault where
  | missing
  | missingAfter (word : String)
  | unexpected (word : String)
  | unclosed (word : String)
  | closing
  | notNumber
  | byZero
  | expression (f : Expression.Fault)

def Fault.message : Fault → String
  | missing => "missing operand\nTry 'expr --help' for more information."
  | missingAfter word => "syntax error: missing argument after " ++ quoted word
  | unexpected word => "syntax error: unexpected argument " ++ quoted word
  | unclosed word => "syntax error: expecting ')' after " ++ quoted word
  | closing => "syntax error: unexpected ')'"
  | notNumber => "non-integer argument"
  | byZero => "division by zero"
  | expression f => f.message

/-- The words that are left, and the one before them. -/
structure Rest where
  words : List String
  before : String

abbrev Computing := EStateM Fault Rest

def number? (s : String) : Option Int :=
  match s.toList with
  | '-' :: c :: cs => if (c :: cs).all Char.isDigit then some (-(Numeral.ofDigits 10 (c :: cs))) else none
  | c :: cs => if (c :: cs).all Char.isDigit then some (Numeral.ofDigits 10 (c :: cs)) else none
  | [] => none

/-- Whether a value counts as nothing. -/
def isNothing (s : String) : Bool :=
  match s.toList with
  | [] => true
  | '-' :: c :: cs => (c :: cs).all (· == '0')
  | cs => cs.all (· == '0')

def word : Computing String := do
  let s ← get
  match s.words with
  | [] => throw (if s.before.isEmpty then .missing else .missingAfter s.before)
  | w :: rest =>
    set (⟨rest, w⟩ : Rest)
    return w

def peeked : Computing (Option String) := return (← get).words.head?

def integer (s : String) : Computing Int := do
  match number? s with
  | some n => return n
  | none => throw .notNumber

def ofBool (b : Bool) : String := if b then "1" else "0"

def compared (operator a b : String) : String :=
  let order := match number? a, number? b with
    | some m, some n => compare m n
    | _, _ => compare a b
  ofBool (match operator with
    | "<" => order == .lt
    | "<=" => order != .gt
    | "=" | "==" => order == .eq
    | "!=" => order != .eq
    | ">=" => order != .lt
    | _ => order == .gt)

/-- What the start of a text matches: the text of a group if there is one, else how much it is. -/
def matched (text pattern : String) : Computing String := do
  match Expression.read false pattern.toList with
  | .error f => throw (.expression f)
  | .ok e =>
    let hasGroup := (pattern.toList.zip pattern.toList.tail).contains ('\\', '(')
    match Expression.matchAt? e ⟨text.toList.toArray, false⟩ 0 with
    | none => return if hasGroup then "" else "0"
    | some m =>
      if hasGroup then
        match m.groups.find? (·.1 == 1) with
        | some (_, low, high) => return String.ofList ((text.toList.drop low).take (high - low))
        | none => return ""
      else return toString m.high

def arithmetic (operator : String) (a b : Int) : Computing String := do
  match operator with
  | "+" => return toString (a + b)
  | "-" => return toString (a - b)
  | "*" => return toString (a * b)
  | operator =>
    if b = 0 then throw .byZero
    return toString (if operator == "/" then a.tdiv b else a.tmod b)

/-- Operators that take each other's results from the left, weakest first. -/
def levels : List (List String) :=
  [["|"], ["&"], ["<", "<=", "=", "==", "!=", ">=", ">"], ["+", "-"], ["*", "/", "%"], [":"]]

def applied (operator a b : String) : Computing String := do
  match operator with
  | "|" => return if !isNothing a then a else if isNothing b then "0" else b
  | "&" => return if isNothing a || isNothing b then "0" else a
  | ":" => matched a b
  | "+" | "-" | "*" | "/" | "%" => arithmetic operator (← integer a) (← integer b)
  | operator => return compared operator a b

mutual

/-- A value in which the operators of some levels stand free. -/
def value : Nat → List (List String) → Computing String
  | 0, _ => throw .missing
  | fuel + 1, [] => atom fuel
  | fuel + 1, operators :: tighter => do
    let a ← value fuel tighter
    values fuel operators tighter a

/-- Further operands of one level. -/
def values : Nat → List String → List (List String) → String → Computing String
  | 0, _, _, _ => throw .missing
  | fuel + 1, operators, tighter, a => do
    match ← peeked with
    | none => return a
    | some operator =>
      if !operators.contains operator then return a
      let _ ← word
      let b ← value fuel tighter
      values fuel operators tighter (← applied operator a b)

/-- A word, a function of words, or a value in brackets. -/
def atom : Nat → Computing String
  | 0 => throw .missing
  | fuel + 1 => do
    let w ← word
    match w, ← peeked with
    | "(", _ =>
      let v ← value fuel levels
      match ← peeked with
      | some ")" =>
        let _ ← word
        return v
      | some other => throw (.unexpected other)
      | none => throw (.unclosed (← get).before)
    | ")", _ => throw .closing
    | "+", _ => word
    | "length", some _ => return toString (← atom fuel).length
    | "match", some _ =>
      let text ← atom fuel
      matched text (← atom fuel)
    | "index", some _ =>
      let text ← atom fuel
      let wanted ← atom fuel
      return match text.toList.findIdx? wanted.toList.contains with
        | some i => toString (i + 1)
        | none => "0"
    | "substr", some _ =>
      let text ← atom fuel
      let start ← atom fuel
      let length ← atom fuel
      match number? start, number? length with
      | some i, some n =>
        if i < 1 || n < 1 then return ""
        return String.ofList ((text.toList.drop (i.toNat - 1)).take n.toNat)
      | _, _ => return ""
    | w, _ => return w

end

/-- The value of an expression that takes up all words. -/
def computed : Computing String := do
  let v ← value (64 * ((← get).words.length + 1)) levels
  match ← peeked with
  | none => return v
  | some extra => throw (.unexpected extra)

def expr (args : List String) : Act Nat := do
  let words := if args.head? == some "--" then args.tail else args
  match computed.run ⟨words, ""⟩ with
  | .ok v _ =>
    emit (v ++ "\n")
    return if isNothing v then 1 else 0
  | .error f _ =>
    complain ("expr: " ++ f.message)
    return 2

end FirmwareMatrix.Shell.Utility.Words
