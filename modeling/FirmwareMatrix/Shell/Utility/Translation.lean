import FirmwareMatrix.Shell.Format
import FirmwareMatrix.Shell.Pattern
import FirmwareMatrix.Shell.Utility.Arguments

/-! Replacing, dropping and squeezing characters by sets of them. -/

namespace FirmwareMatrix.Shell.Utility.Translation

open Act

/-- A piece of a description of a set. -/
inductive Item where
  | char (c : Char)
  | range (low high : Char)
  | named (name : String)
  /-- The character as often as said, or as often as needed. -/
  | repeated (c : Char) (count : Option Nat)
  deriving DecidableEq, Repr

/-- All bytes in order. -/
def allBytes : List Char := (List.range 256).map Char.ofNat

def upTo (low high : Char) : List Char :=
  (List.range (high.toNat + 1 - low.toNat)).map fun i => Char.ofNat (low.toNat + i)

/-- A character with its escape taken off. -/
def unescaped : List Char → Option (Char × Bool × List Char)
  | '\\' :: cs =>
    match cs with
    | [] => some ('\\', false, [])
    | c :: rest =>
      if c == 'e' then some ('e', true, rest)
      else match Format.escape false false cs with
      | (some b, rest) => some (b, true, rest)
      | (none, _) => some (c, true, rest)
  | c :: rest => some (c, false, rest)
  | [] => none

/-- The pieces of a description; `fuel` is at least its length. -/
def items : Nat → List Char → List Item
  | 0, _ => []
  | _, [] => []
  | fuel + 1, cs =>
    let bracketed : Option (Item × List Char) :=
      match cs with
      | '[' :: ':' :: rest =>
        let name := rest.takeWhile (· != ':')
        match rest.drop name.length with
        | ':' :: ']' :: after => some (.named (String.ofList name), after)
        | _ => none
      | '[' :: '=' :: c :: '=' :: ']' :: after => some (.char c, after)
      | '[' :: rest =>
        match unescaped rest with
        | some (c, _, '*' :: rest) =>
          let digits := rest.takeWhile Char.isDigit
          match rest.drop digits.length with
          | ']' :: after =>
            let n := Numeral.ofDigits (if digits.head? == some '0' then 8 else 10) digits
            some (.repeated c (if digits.isEmpty || n = 0 then none else some n), after)
          | _ => none
        | _ => none
      | _ => none
    match bracketed with
    | some (item, rest) => item :: items fuel rest
    | none =>
      match unescaped cs with
      | none => []
      | some (c, _, rest) =>
        match rest with
        | '-' :: more =>
          match unescaped more with
          | some (high, _, after) => .range c high :: items fuel after
          | none => .char c :: items fuel rest
        | rest => .char c :: items fuel rest

/-- The characters of a piece; one that fills up gives `fill` of them. -/
def Item.chars (fill : Nat) : Item → List Char
  | char c => [c]
  | range low high => upTo low high
  | named name =>
    match Pattern.classes.lookup name with
    | some p => allBytes.filter p
    | none => []
  | repeated c count => List.replicate (count.getD fill) c

def itemsOf (s : String) : List Item := items (s.length + 1) s.toList

/-- The characters of a set that is to have a certain length. -/
def charsOf (length : Nat) (is : List Item) : List Char :=
  let fixed := (is.map fun i => (i.chars 0).length).foldl (· + ·) 0
  is.flatMap (Item.chars (length - fixed))

/-- Replaces each character of one list by that at the same place of another. -/
def replacing (froms tos : List Char) : Char → Char :=
  let table : Array Char := (froms.zip tos).foldl (fun t (a, b) => t.setIfInBounds a.toNat b)
    allBytes.toArray
  fun c => (table[c.toNat]?).getD c

def squeezed (p : Char → Bool) (cs : List Char) : List Char :=
  (cs.foldl (fun (kept : List Char) c =>
    match kept with
    | last :: _ => if last == c && p c then kept else c :: kept
    | [] => [c]) []).reverse

def member (cs : List Char) : Char → Bool :=
  let table : Array Bool := cs.foldl (fun t c => t.setIfInBounds c.toNat true) (Array.replicate 256 false)
  fun c => (table[c.toNat]?).getD false

def tr (args : List String) : Act Nat :=
  let k : Known := ⟨"tr", "cCdst", "", [("complement", 'c'), ("delete", 'd'), ("squeeze-repeats", 's'),
    ("truncate-set1", 't')], 1⟩
  withArguments k args fun g => do
    let wrong (text : String) : Act Nat := do
      let _ ← misuse (α := Unit) k text
      return 1
    let complement := g.has 'c' || g.has 'C'
    let first (s : String) : List Char :=
      let cs := charsOf 0 (itemsOf s)
      if complement then allBytes.filter fun c => !(member cs c) else cs
    let reversed? (s : String) : Option (Char × Char) :=
      (itemsOf s).findSome? fun i => match i with
        | .range low high => if high < low then some (low, high) else none
        | _ => none
    let unknown? (s : String) : Option String :=
      (itemsOf s).findSome? fun i => match i with
        | .named name => if (Pattern.classes.lookup name).isNone then some name else none
        | _ => none
    match g.operands.findSome? unknown? with
    | some name =>
      complain ("tr: invalid character class " ++ quoted name)
      return 1
    | none =>
      match g.operands.findSome? reversed? with
      | some (low, high) =>
        complain ("tr: range-endpoints of '" ++ low.toString ++ "-" ++ high.toString ++
          "' are in reverse collating sequence order")
        return 1
      | none =>
        let pass (f : List Char → List Char) : Act Nat := do
          match ← takeAll 0 with
          | .ok text =>
            emit (String.ofList (f text))
            return 0
          | .error e =>
            complain ("tr: read error: " ++ e.text)
            return 1
        match g.operands, g.has 'd', g.has 's' with
        | [], _, _ => wrong "missing operand"
        | [set], true, false => pass fun text => text.filter fun c => !(member (first set) c)
        | [set], true, true =>
          wrong ("missing operand after " ++ quoted set ++
            "\nTwo strings must be given when both deleting and squeezing repeats.")
        | [set], false, true => pass (squeezed (member (first set)))
        | [set], false, false =>
          wrong ("missing operand after " ++ quoted set ++
            "\nTwo strings must be given when translating.")
        | [set, again], true, true =>
          let second := charsOf 0 (itemsOf again)
          let dropped := member (first set)
          pass fun text => squeezed (member second) (text.filter fun c => !(dropped c))
        | [_, extra], true, false =>
          wrong ("extra operand " ++ quoted extra ++
            "\nOnly one string may be given when deleting without squeezing repeats.")
        | [from_, to_], false, squeezes =>
          let froms := first from_
          let tos := charsOf froms.length (itemsOf to_)
          if tos.isEmpty then
            complain "tr: when not truncating set1, string2 must be non-empty"
            return 1
          let last := tos.getLast?.getD ' '
          let tos := if g.has 't' then tos else tos ++ List.replicate (froms.length - tos.length) last
          let f := replacing froms tos
          pass fun text =>
            let out := text.map f
            if squeezes then squeezed (member tos) out else out
        | _ :: _ :: extra :: _, _, _ => wrong ("extra operand " ++ quoted extra)

end FirmwareMatrix.Shell.Utility.Translation
