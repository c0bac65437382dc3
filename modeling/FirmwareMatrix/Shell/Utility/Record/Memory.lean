import FirmwareMatrix.Shell.Format
import FirmwareMatrix.Shell.Utility.Arguments
import FirmwareMatrix.Shell.Utility.Record.Token
import Std.Data.HashMap

/-! What a program for records remembers: values, tables of values by text, and the record at hand
with its fields. -/

namespace FirmwareMatrix.Shell.Utility.Record

/-! ## Values -/

inductive Value where
  | unset
  | number (x : Float)
  | text (s : List Char)
  /-- Text from outside; it counts as a number if it looks like one. -/
  | input (s : List Char)

instance : Inhabited Value := ⟨.unset⟩

/-- The pieces of a format. -/
def pieces : Nat → List Char → List Format.Item
  | 0, _ => []
  | _, [] => []
  | fuel + 1, '%' :: cs =>
    let (item, rest) := Format.conversion true cs
    item :: pieces fuel rest
  | fuel + 1, c :: cs => .char c :: pieces fuel cs

def givenSize : Option Format.Size → Option Int
  | some (.given n) => some n
  | _ => none

/-- A number as text: whole numbers have all their digits, others those that a format gives them. -/
def numberText (format : List Char) (x : Float) : List Char :=
  match wholeText? x with
  | some s => s.toList
  | none =>
    (pieces format.length format).flatMap fun
      | .char c => [c]
      | .conversion c =>
        (c.layout (givenSize c.width) (givenSize c.precision)).number (Decimal.ofFloat x)
      | _ => []

namespace Value

def toNumber : Value → Float
  | unset => 0
  | number x => x
  | text s | input s => (leading s).1

/-- The number that a value is, unless it is text. -/
def numeric? : Value → Option Float
  | unset => some 0
  | number x => some x
  | text _ => none
  | input s => whole? s

def toText (format : List Char) : Value → List Char
  | unset => []
  | number x => numberText format x
  | text s | input s => s

def holds : Value → Bool
  | unset => false
  | number x => x != 0
  | text s => !s.isEmpty
  | input s =>
    match whole? s with
    | some x => x != 0
    | none => !s.isEmpty

def ofBool (b : Bool) : Value := .number (if b then 1 else 0)

def ofNat (n : Nat) : Value := .number (Float.ofNat n)

/-- Numbers are compared as numbers, and anything else as text. -/
def compare (format : List Char) (c : Comparison) (a b : Value) : Bool :=
  match a.numeric?, b.numeric? with
  | some x, some y =>
    match c with
    | .less => x < y
    | .notMore => x ≤ y
    | .same => x == y
    | .different => x != y
    | .more => x > y
    | .notLess => x ≥ y
  | _, _ =>
    let (s, t) := (a.toText format, b.toText format)
    match c with
    | .less => decide (s < t)
    | .notMore => !decide (t < s)
    | .same => s == t
    | .different => s != t
    | .more => decide (t < s)
    | .notLess => !decide (s < t)

end Value

def Operator.apply (op : Operator) (x y : Float) : Float :=
  match op with
  | .plus => x + y
  | .minus => x - y
  | .times => x * y
  | .divide => x / y
  | .rest => ((Decimal.ofFloat x).remainder (Decimal.ofFloat y)).toFloat
  | .power => Float.pow x y

/-! ## Formats -/

/-- Why a format cannot be used to its end. -/
inductive FormatFault where
  | tooFewValues
  | noConversion (number : Nat)

/-- What a format makes of some values; up to the first fault, if there is one. -/
def formatted (format : List Char) : Nat → List Format.Item → List Value →
    List Char × Option FormatFault
  | _, [], _ => ([], none)
  | n, .char c :: items, vs =>
    let (text, fault) := formatted format n items vs
    (c :: text, fault)
  | n, .conversion c :: items, vs =>
    let size (s : Option Format.Size) (vs : List Value) : Option Int × List Value :=
      match s with
      | some .argument => ((vs.head?).map fun v => whole v.toNumber, vs.tail)
      | s => (givenSize s, vs)
    let (width, rest) := size c.width vs
    let (precision, rest) := size c.precision rest
    let l := c.layout width precision
    match rest with
    | [] => ([], some .tooFewValues)
    | v :: rest =>
      let shown : Option (List Char) := match c.kind with
        | 'c' =>
          let cs : List Char := match v, v.numeric? with
            | .unset, _ => ['\x00']
            | _, some x => [Char.ofNat ((whole x) % 256).toNat]
            | v, none => [(v.toText format).head?.getD '\x00']
          some ({ l with precision := none }.text cs)
        | 's' => some (l.text (v.toText format))
        | 'd' | 'i' => some (l.whole (whole v.toNumber))
        | 'u' | 'o' | 'x' | 'X' => some (l.whole ((whole v.toNumber) % Numeral.count))
        | 'e' | 'f' | 'g' | 'E' | 'G' | 'F' => some (l.number (Decimal.ofFloat v.toNumber))
        | _ => none
      match shown with
      | none => ([], some (.noConversion n))
      | some cs =>
        let (text, fault) := formatted format (n + 1) items rest
        (cs ++ text, fault)
  | n, _ :: _, _ => ([], some (.noConversion n))

/-! ## Tables -/

structure Entry where
  value : Value
  /-- When it was last used. -/
  used : Nat

/-- Values by text. -/
structure Table where
  entries : Std.HashMap String Entry
  uses : Nat
  /-- Whether all keys have been numbers. -/
  isNumbered : Bool

/-- What a value is found by: its text, and whether that is a whole number. -/
structure Key where
  text : String
  isNumber : Bool

def Key.ofValue (format : List Char) : Value → Key
  | .number x => ⟨String.ofList (numberText format x), (wholeText? x).isSome⟩
  | v => ⟨String.ofList (v.toText format), false⟩

namespace Table

def empty : Table := ⟨∅, 0, true⟩

def value? (t : Table) (k : Key) : Option Value := (t.entries[k.text]?).map Entry.value

def insert (t : Table) (k : Key) (v : Value) : Table :=
  ⟨t.entries.insert k.text ⟨v, t.uses⟩, t.uses + 1, t.isNumbered && k.isNumber⟩

def erase (t : Table) (k : Key) : Table := { t with entries := t.entries.erase k.text }

/-- Texts are spread over so many classes by a product of their characters. -/
def classOf (s : String) : Nat :=
  s.foldl (fun h c => (h ^^^ c.toNat) * 16777619 % 4294967296) 2166136261 % 64

/-- Things class by class; the order within a class stays. -/
def byClass {α : Type} (c : α → Nat) (xs : List α) : List α :=
  (List.range 64).flatMap fun i => xs.filter fun x => c x == i

/-- All keys, class by class, where those used last are first. Keys that are numbers are spread by
their value before. -/
def keys (t : Table) : List String :=
  let byUse := (t.entries.toList.mergeSort fun a b => b.2.used ≤ a.2.used).map Prod.fst
  let spread (s : String) : Nat := (s.toInt?.getD 0 % 64).toNat
  byClass classOf (if t.isNumbered then (byClass spread byUse).reverse else byUse)

end Table

/-! ## Separators -/

/-- What separates fields or records. -/
inductive Separator where
  | blanks
  | char (c : Char)
  | each
  | expression (e : Expression)

/-- The matches of an expression that are not empty, by start and end. -/
def matches_ (e : Expression) (s : Expression.Subject) : Nat → Nat → List (Nat × Nat)
  | 0, _ => []
  | fuel + 1, i =>
    match Expression.find? e s (s.text.size + 1) i with
    | none => []
    | some m =>
      if m.low < m.high then (m.low, m.high) :: matches_ e s fuel m.high
      else matches_ e s fuel (m.high + 1)

/-- The parts of a text between places. -/
def between (text : Array Char) (start : Nat) : List (Nat × Nat) → List (List Char)
  | [] => [(text.extract start text.size).toList]
  | (low, high) :: rest => (text.extract start low).toList :: between text high rest

/-- Words between blanks. -/
def words : Nat → List Char → List (List Char)
  | 0, _ => []
  | fuel + 1, cs =>
    match cs.dropWhile Numeral.isSpace with
    | [] => []
    | cs =>
      let word := cs.takeWhile (!Numeral.isSpace ·)
      word :: words fuel (cs.drop word.length)

/-- The parts of a text; if `byLines`, a line end separates too. -/
def Separator.split (byLines : Bool) (s : Separator) (text : List Char) : List (List Char) :=
  if text.isEmpty then []
  else match s with
    | .blanks => words (text.length + 1) text
    | .each => text.map ([·])
    | .char c =>
      if byLines && c != '\n' then
        (Text.splitAt '\n' text).flatMap (Text.splitAt c)
      else Text.splitAt c text
    | .expression e =>
      let e := if byLines then .either e (.char '\n') else e
      let array := text.toArray
      between array 0 (matches_ e ⟨array, false⟩ (text.length + 1) 0)

end FirmwareMatrix.Shell.Utility.Record
