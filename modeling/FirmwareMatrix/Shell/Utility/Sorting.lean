import FirmwareMatrix.Shell.Utility.Lines

/-! Sorting lines, as a whole or by keys in them: as text, as numbers, by months or versions. Lines
that no key tells apart are put in the order of their bytes, unless they are to stay as they
are. -/

namespace FirmwareMatrix.Shell.Utility.Sorting

open Act

/-- How a key is compared. -/
structure Manner where
  numeric : Bool
  human : Bool
  version : Bool
  backwards : Bool
  folded : Bool
  /-- Only blanks, letters and digits count. -/
  dictionary : Bool
  printable : Bool
  month : Bool
  skipBlanks : Bool
  deriving DecidableEq, Repr

def Manner.plain : Manner := ⟨false, false, false, false, false, false, false, false, false⟩

/-- A manner with one more letter. -/
def Manner.with (m : Manner) : Char → Manner
  | 'n' | 'g' => { m with numeric := true }
  | 'h' => { m with human := true }
  | 'V' => { m with version := true }
  | 'r' => { m with backwards := true }
  | 'f' => { m with folded := true }
  | 'd' => { m with dictionary := true }
  | 'i' => { m with printable := true }
  | 'M' => { m with month := true }
  | 'b' => { m with skipBlanks := true }
  | _ => m

/-- Where a key starts and ends: a field, from one on, and a character in it; zero stands for the
end of the field. -/
structure Key where
  startField : Nat
  startChar : Nat
  stop : Option (Nat × Nat)
  manner : Option Manner

def isBlank (c : Char) : Bool := c == ' ' || c == '\t'

/-- The fields of a line; without a separator each has the blanks before it. -/
def fieldsOf (separator : Option Char) (l : List Char) : List (List Char) :=
  match separator with
  | some c => Text.splitAt c l
  | none =>
    let rec go : Nat → List Char → List (List Char)
      | 0, _ => []
      | _, [] => []
      | fuel + 1, cs =>
        let blanks := cs.takeWhile isBlank
        let word := (cs.drop blanks.length).takeWhile fun c => !isBlank c
        (blanks ++ word) :: go fuel (cs.drop (blanks.length + word.length))
    go (l.length + 1) l

/-- The part of a line that a key names. -/
def Key.part (k : Key) (separator : Option Char) (skips : Bool) (l : List Char) : List Char :=
  let fields := fieldsOf separator l
  let glue : Nat := if separator.isSome then 1 else 0
  let offset (n : Nat) : Nat := ((fields.take n).map fun f => f.length + glue).foldl (· + ·) 0
  let blanksAt (i : Nat) : Nat := if skips then ((l.drop i).takeWhile isBlank).length else 0
  let fieldStart := min l.length (offset (k.startField - 1))
  let start := fieldStart + blanksAt fieldStart + (k.startChar - 1)
  let stop := match k.stop with
    | none => l.length
    | some (field, 0) =>
      min l.length (offset (field - 1) + ((fields[field - 1]?).map List.length).getD 0)
    | some (field, char) =>
      let at_ := min l.length (offset (field - 1))
      min l.length (at_ + blanksAt at_ + char)
  (l.drop start).take (stop - start)

/-- A number at the start of a text: its sign, its digits and those behind the point. -/
def numberOf (cs : List Char) : Int × List Char × List Char :=
  let cs := cs.dropWhile isBlank
  let (negative, cs) := match cs with
    | '-' :: cs => (true, cs)
    | cs => (false, cs)
  let front := cs.takeWhile Char.isDigit
  let back := match cs.drop front.length with
    | '.' :: ds => ds.takeWhile Char.isDigit
    | _ => []
  let rest := (cs.drop front.length).dropWhile fun c => c == '.' || c.isDigit
  (if negative then -1 else 1, front ++ back, back ++ ['.'] ++ rest)

/-- A number as one of so many places. -/
def scaledNumber (places : Nat) (cs : List Char) : Int :=
  let (sign, digits, back) := numberOf cs
  let given := (back.takeWhile (· != '.')).length
  sign * (Numeral.ofDigits 10 digits * Nat.pow 10 (places - given) : Nat)

def compareNumbers (a b : List Char) : Ordering :=
  let places := max (((numberOf a).2.2.takeWhile (· != '.')).length)
    (((numberOf b).2.2.takeWhile (· != '.')).length)
  compare (scaledNumber places a) (scaledNumber places b)

/-- The power that a letter behind a number stands for. -/
def unitOf (cs : List Char) : Nat :=
  match ((numberOf cs).2.2.dropWhile (· != '.')).drop 1 with
  | c :: _ => (" KMGTPEZY".toList.idxOf? c.toUpper).getD 0
  | [] => 0

def compareHuman (a b : List Char) : Ordering :=
  let rank (cs : List Char) : Int :=
    let (sign, digits, _) := numberOf cs
    if digits.all (· == '0') then 0 else sign * ((unitOf cs : Int) + 1)
  (compare (rank a) (rank b)).then (compareNumbers a b)

def monthOf (cs : List Char) : Nat :=
  let word := String.ofList (((cs.dropWhile isBlank).take 3).map Char.toUpper)
  ((["JAN", "FEB", "MAR", "APR", "MAY", "JUN", "JUL", "AUG", "SEP", "OCT", "NOV", "DEC"].idxOf?
    word).map (· + 1)).getD 0

def compareTexts (a b : List Char) : Ordering := compareOfLessAndEq a b

/-- Pieces without digits are compared as text and the numbers between them by value. -/
def compareVersions : Nat → List Char → List Char → Ordering
  | 0, _, _ => .eq
  | _, [], [] => .eq
  | fuel + 1, a, b =>
    let rank (c : Char) : Nat :=
      if c == '~' then 0 else if c.isAlpha then 2 + c.toNat else 300 + c.toNat
    let x := a.takeWhile fun c => !c.isDigit
    let y := b.takeWhile fun c => !c.isDigit
    let ranks (cs : List Char) : List Nat := cs.map rank ++ [1]
    match compareOfLessAndEq (ranks x) (ranks y) with
    | .eq =>
      let a := a.drop x.length
      let b := b.drop y.length
      let m := a.takeWhile Char.isDigit
      let n := b.takeWhile Char.isDigit
      (compare (Numeral.ofDigits 10 m) (Numeral.ofDigits 10 n)).then
        (compareVersions fuel (a.drop m.length) (b.drop n.length))
    | o => o

def compareBy (m : Manner) (a b : List Char) : Ordering :=
  let clean (cs : List Char) : List Char :=
    let cs := if m.skipBlanks then cs.dropWhile isBlank else cs
    let cs := if m.dictionary then cs.filter fun c => isBlank c || c.isAlphanum else cs
    let cs := if m.printable then cs.filter fun c => ' ' ≤ c && c ≤ '~' else cs
    if m.folded then cs.map Char.toUpper else cs
  let found :=
    if m.numeric then compareNumbers a b
    else if m.human then compareHuman a b
    else if m.month then compare (monthOf a) (monthOf b)
    else if m.version then compareVersions (a.length + b.length + 1) a b
    else compareTexts (clean a) (clean b)
  if m.backwards then found.swap else found

/-- A position in a key: a field, a character, letters. -/
def position? (cs : List Char) : Option (Nat × Nat × List Char) := do
  let (field, rest) ← Numeral.natural? 10 cs
  match rest with
  | '.' :: rest =>
    let (char, rest) ← Numeral.natural? 10 rest
    return (field, char, rest)
  | rest => return (field, 0, rest)

def key? (s : String) : Option Key := do
  let (first, last) := match Text.cutAt ',' s.toList with
    | some (first, last) => (first, some last)
    | none => (s.toList, none)
  let (field, char, letters) ← position? first
  if field = 0 then none
  let (stop, more) ← match last with
    | none => some (none, [])
    | some last =>
      let (f, c, more) ← position? last
      some (some (f, c), more)
  let letters := letters ++ more
  if letters.all "bdfghiMnrV".toList.contains then
    return ⟨field, max char 1, stop,
      if letters.isEmpty then none else some (letters.foldl Manner.with Manner.plain)⟩
  else none

def sort (args : List String) : Act Nat :=
  let k : Known := ⟨"sort", "bdfghiMnrVRucCsmz", "ktoST", [("key", 'k'), ("field-separator", 't'),
    ("output", 'o'), ("reverse", 'r'), ("numeric-sort", 'n'), ("unique", 'u'), ("ignore-case", 'f'),
    ("stable", 's'), ("check", 'c'), ("version-sort", 'V'), ("human-numeric-sort", 'h'),
    ("ignore-leading-blanks", 'b'), ("dictionary-order", 'd'), ("general-numeric-sort", 'g'),
    ("month-sort", 'M'), ("merge", 'm')], 2⟩
  withArguments k args fun g => do
    let base := g.options.foldl (fun (m : Manner) e => m.with e.1) Manner.plain
    match (g.values 'k').mapM key? with
    | none =>
      let bad := ((g.values 'k').find? fun s => (key? s).isNone).getD ""
      complain ("sort: invalid number at field start: invalid count at start of " ++ quoted bad)
      return 2
    | some keys =>
      let separator := (g.value? 't').bind fun s =>
        if s == "\\0" then some '\x00' else s.toList.head?
      let byKeys (a b : List Char) : Ordering :=
        if keys.isEmpty then compareBy base a b
        else keys.foldl (fun (o : Ordering) key =>
          o.then (
            let m := key.manner.getD base
            compareBy m (key.part separator m.skipBlanks a) (key.part separator m.skipBlanks b))) .eq
      let whole (a b : List Char) : Ordering :=
        if g.has 's' || g.has 'u' then .eq
        else if base.backwards then compareTexts b a else compareTexts a b
      let order (a b : List Char) : Ordering := (byKeys a b).then (whole a b)
      let (found, ok) ← texts "sort" (orInput g.operands)
      if !ok then return 2
      let end_ : Char := if g.has 'z' then '\x00' else '\n'
      let ls := found.flatMap fun e =>
        match (Text.splitAt end_ e.2).reverse with
        | [] :: before => before.reverse
        | all => all.reverse
      if g.has 'c' || g.has 'C' then
        let rec disorder : Nat → List (List Char) → Option (Nat × List Char)
          | n, a :: b :: rest =>
            let o := order a b
            if o == .gt || (g.has 'u' && o == .eq) then some (n + 1, b) else disorder (n + 1) (b :: rest)
          | _, _ => none
        match disorder 1 ls with
        | none => return 0
        | some (n, l) =>
          if g.has 'c' then
            complain ("sort: " ++ (g.operands.head?.getD "-") ++ ":" ++ toString n ++ ": disorder: " ++
              String.ofList l)
          return 1
      let sorted := ls.mergeSort fun a b => order a b != .gt
      let sorted := if g.has 'u' then
          (sorted.foldl (fun (kept : List (List Char)) l =>
            match kept with
            | last :: _ => if byKeys last l == .eq then kept else l :: kept
            | [] => [l]) []).reverse
        else sorted
      let out := sorted.flatMap (· ++ [end_])
      match g.value? 'o' with
      | none =>
        emit (String.ofList out)
        return 0
      | some name =>
        match ← openPath (← process).here name .writing false with
        | .ok n =>
          attach 19 n
          let _ ← write 19 out
          close 19
          return 0
        | .error e =>
          complain ("sort: open failed: " ++ name ++ ": " ++ e.text)
          return 2

end FirmwareMatrix.Shell.Utility.Sorting
