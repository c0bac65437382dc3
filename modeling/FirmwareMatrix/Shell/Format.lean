import FirmwareMatrix.Shell.Decimal

/-! Formatted printing: a format is text with escapes and conversions. It is used again as long as
arguments are left, and conversions without an argument take an empty one. -/

namespace FirmwareMatrix.Shell.Format

def isOctal (c : Char) : Bool := '0' ≤ c && c ≤ '7'

/-- The byte of a one-letter escape. -/
def letter? : Char → Option Char
  | 'a' => some '\x07'
  | 'b' => some '\x08'
  | 'e' => some '\x1b'
  | 't' => some '\t'
  | 'n' => some '\n'
  | 'v' => some '\x0b'
  | 'f' => some '\x0c'
  | 'r' => some '\r'
  | '\\' => some '\\'
  | _ => none

/-- A byte by an octal code of at most three digits. -/
def octal (cs : List Char) : Char × List Char :=
  let digits := (cs.take 3).takeWhile isOctal
  (Char.ofNat (Numeral.ofDigits 8 digits % 256), cs.drop digits.length)

/-- What follows a backslash: the byte that it stands for, if any, and the rest. In arguments an
octal code may have a zero before it. Some printers are `wide`: they know codes of base sixteen, and
quotation marks in formats. -/
def escape (wide inArgument : Bool) (cs : List Char) : Option Char × List Char :=
  match cs with
  | [] => (none, [])
  | c :: rest =>
    match letter? c with
    | some b => (some b, rest)
    | none =>
      if isOctal c then
        let (b, rest) := octal (if inArgument && c == '0' then rest else cs)
        (some b, rest)
      else if wide && c == '"' && !inArgument then (some c, rest)
      else if wide && c == 'x' then
        match (rest.take 2).takeWhile (Numeral.isDigitOf 16) with
        | [] => (none, cs)
        | digits => (some (Char.ofNat (Numeral.ofDigits 16 digits)), rest.drop digits.length)
      else (none, cs)

/-- A text without its escapes, and whether the escape that ends all output was met; `fuel` is at
least the text's length. -/
def unescape (wide : Bool) : Nat → List Char → List Char × Bool
  | 0, _ => ([], false)
  | _, [] => ([], false)
  | fuel + 1, '\\' :: cs =>
    if cs.head? == some 'c' then ([], true)
    else
      let (b, rest) := escape wide true cs
      let (text, stopped) := unescape wide fuel rest
      (b.getD '\\' :: text, stopped)
  | fuel + 1, c :: cs =>
    let (text, stopped) := unescape wide fuel cs
    (c :: text, stopped)

/-- A width or a precision, which may be an argument. -/
inductive Size where
  | given (n : Nat)
  | argument
  deriving DecidableEq, Repr

structure Conversion where
  flags : List Char
  width : Option Size
  precision : Option Size
  kind : Char

/-- One piece of a format. -/
inductive Item where
  | char (c : Char)
  | conversion (c : Conversion)
  /-- A conversion that there is not; its text. -/
  | invalid (text : String)
  /-- The format ends within a conversion. -/
  | cut
  /-- Nothing more is printed. -/
  | stop

def size (cs : List Char) : Option Size × List Char :=
  match cs with
  | '*' :: rest => (some .argument, rest)
  | cs =>
    match Numeral.natural? 10 cs with
    | some (n, rest) => (some (.given n), rest)
    | none => (none, cs)

/-- What follows a percent sign. Wide printers pass over letters for the sizes of numbers. -/
def conversion (wide : Bool) (cs : List Char) : Item × List Char :=
  let flags := cs.takeWhile "#-+ 0".toList.contains
  let rest := cs.drop flags.length
  let (width, rest) := size rest
  let (precision, rest) := match rest with
    | '.' :: rest =>
      let (precision, rest) := size rest
      (some (precision.getD (.given 0)), rest)
    | rest => (none, rest)
  let rest := if wide then rest.dropWhile "hjlLqtz".toList.contains else rest
  match rest with
  | [] => (.cut, [])
  | kind :: after =>
    if kind == '%' && rest.length == cs.length then (.char '%', after)
    else if "sbcdiuoxXeEfFgGaA".toList.contains kind then
      (.conversion ⟨flags, width, precision, kind⟩, after)
    else (.invalid (String.ofList ('%' :: cs.take (cs.length - after.length))), after)

/-- The items of a format; `fuel` is at least its length. -/
def items (wide : Bool) : Nat → List Char → List Item
  | 0, _ => []
  | _, [] => []
  | fuel + 1, '\\' :: cs =>
    if wide && cs.head? == some 'c' then [.stop]
    else
      let (b, rest) := escape wide false cs
      .char (b.getD '\\') :: items wide fuel rest
  | fuel + 1, '%' :: cs =>
    let (item, rest) := conversion wide cs
    item :: items wide fuel rest
  | fuel + 1, c :: cs => .char c :: items wide fuel cs

/-- What is wrong with an argument or a format. -/
inductive Fault where
  | notNumber (s : String)
  | leftover (s : String)
  | outOfRange (s : String)
  /-- No such conversion; nothing more is printed. -/
  | invalid (text : String)
  | cut
  deriving DecidableEq, Repr

def Fault.message : Fault → String
  | notNumber s => s ++ ": expected numeric value"
  | leftover s => s ++ ": not completely converted"
  | outOfRange s => s ++ ": Numerical result out of range"
  | invalid text => text ++ ": invalid directive"
  | cut => "missing format character"

/-- Whether nothing is printed after the fault. -/
def Fault.isFinal : Fault → Bool
  | invalid _ | cut => true
  | _ => false

/-- What has been printed, in reverse, the faults on the way, also in reverse, and the arguments
that are left. -/
structure Printing where
  wide : Bool
  text : List Char
  faults : List Fault
  args : List String
  stopped : Bool

abbrev Print := StateM Printing

def put (cs : List Char) : Print Unit := modify fun s => { s with text := cs.reverse ++ s.text }

def note (f : Fault) : Print Unit := modify fun s =>
  { s with faults := f :: s.faults, stopped := s.stopped || f.isFinal }

def argument : Print (Option String) := do
  let s ← get
  set { s with args := s.args.tail }
  return s.args.head?

/-- The number in an argument, or the code of the character after a quote. -/
def integer (signed : Bool) : Print Int := do
  match ← argument with
  | none => return 0
  | some s =>
    match s.toList with
    | [] => return 0
    | c :: rest =>
      if c == '"' || c == '\'' then return (rest.head?.getD '\x00').toNat
      else
        match Numeral.read? true (c :: rest) with
        | none =>
          note (.notNumber s)
          return 0
        | some (n, rest) =>
          let isOutside := if signed then Numeral.clamp n != n else n.natAbs ≥ Numeral.count
          if !rest.isEmpty then note (.leftover s)
          else if isOutside then note (.outOfRange s)
          if signed then return Numeral.clamp n
          else return if isOutside then Numeral.count - 1 else n % Numeral.count

def decimal : Print Decimal := do
  match ← argument with
  | none => return .finite false 0 0
  | some s =>
    match s.toList with
    | [] => return .finite false 0 0
    | c :: rest =>
      if c == '"' || c == '\'' then return .finite false (rest.head?.getD '\x00').toNat 0
      else
        match Decimal.read? (c :: rest) with
        | none =>
          note (.notNumber s)
          return .finite false 0 0
        | some (x, rest, isOutside) =>
          if !rest.isEmpty then note (.leftover s)
          else if isOutside then note (.outOfRange s)
          return x

/-- The size that is meant, which is an argument if the format says so. -/
def sizeOf : Option Size → Print (Option Int)
  | none => return none
  | some (.given n) => return some n
  | some .argument => return some (← integer true)

/-- Text of a certain width; zeros go between a sign or a base and the digits. -/
def padded (left zeros : Bool) (width : Nat) (start body : List Char) : List Char :=
  let missing := width - (start.length + body.length)
  if left then start ++ body ++ List.replicate missing ' '
  else if zeros then start ++ List.replicate missing '0' ++ body
  else List.replicate missing ' ' ++ start ++ body

def sign (flags : List Char) (negative : Bool) : List Char :=
  if negative then ['-']
  else if flags.contains '+' then ['+']
  else if flags.contains ' ' then [' ']
  else []

/-- Digits with as many zeros before them as the precision asks for. -/
def digits (base : Nat) (precision : Option Nat) (n : Nat) : List Char :=
  if n = 0 && precision == some 0 then []
  else
    let ds := Nat.toDigits base n
    List.replicate (precision.getD 1 - ds.length) '0' ++ ds

/-- A conversion whose width and precision are known. -/
structure Layout where
  flags : List Char
  left : Bool
  width : Nat
  precision : Option Nat
  kind : Char

namespace Layout

def isAlternate (l : Layout) : Bool := l.flags.contains '#'

/-- Text, as much of it as the precision admits. -/
def text (l : Layout) (cs : List Char) : List Char :=
  padded l.left false l.width [] (match l.precision with
    | some n => cs.take n
    | none => cs)

/-- A whole number in the base that the letter asks for; only some have a sign. -/
def whole (l : Layout) (n : Int) : List Char :=
  let zeros := l.flags.contains '0' && l.precision.isNone
  let based (base : Nat) : List Char := digits base l.precision n.natAbs
  let mark (m : Char) : List Char := if l.isAlternate && n != 0 then ['0', m] else []
  match l.kind with
  | 'o' =>
    let ds := based 8
    padded l.left zeros l.width [] (if l.isAlternate && ds.head? != some '0' then '0' :: ds else ds)
  | 'x' => padded l.left zeros l.width (mark 'x') (based 16)
  | 'X' => padded l.left zeros l.width (mark 'X') ((based 16).map Char.toUpper)
  | 'u' => padded l.left zeros l.width [] (based 10)
  | _ => padded l.left zeros l.width (sign l.flags (n < 0)) (based 10)

/-- A number with a fraction. -/
def number (l : Layout) (x : Decimal) : List Char :=
  let isFinite := match x with
    | .finite _ _ _ => true
    | _ => false
  let text := (x.magnitude (Decimal.lower l.kind) l.precision l.isAlternate).toList
  padded l.left (l.flags.contains '0' && isFinite) l.width (sign l.flags x.isNegative)
    (if l.kind.isUpper then text.map Char.toUpper else text)

end Layout

/-- A conversion with a width and a precision from before. -/
def Conversion.layout (c : Conversion) (width precision : Option Int) : Layout where
  flags := c.flags
  left := c.flags.contains '-' || width.any (· < 0)
  width := (width.getD 0).natAbs
  precision := precision.bind fun n => if n < 0 then none else some n.toNat
  kind := c.kind

def convert (c : Conversion) : Print Unit := do
  let width ← sizeOf c.width
  let l := c.layout width (← sizeOf c.precision)
  match c.kind with
  | 's' => put (l.text ((← argument).getD "").toList)
  | 'b' =>
    let s := ((← argument).getD "").toList
    let (text, stopped) := unescape (← get).wide s.length s
    put (l.text text)
    if stopped then modify fun s => { s with stopped := true }
  | 'c' =>
    let l := { l with precision := none }
    put (l.text [((← argument).bind (·.toList.head?)).getD '\x00'])
  | 'd' | 'i' => put (l.whole (← integer true))
  | 'u' | 'o' | 'x' | 'X' => put (l.whole (← integer false))
  | _ => put (l.number (← decimal))

/-- One use of a format. -/
def once : List Item → Print Unit
  | [] => pure ()
  | item :: rest => do
    match item with
    | .char c => put [c]
    | .conversion c => convert c
    | .invalid text => note (.invalid text)
    | .cut => note .cut
    | .stop => modify fun s => { s with stopped := true }
    if (← get).stopped then return
    once rest

/-- Uses a format until no arguments are left; `fuel` is at least their number. -/
def repeated (is : List Item) : Nat → Print Unit
  | 0 => pure ()
  | fuel + 1 => do
    let before := (← get).args.length
    once is
    let s ← get
    if s.stopped || s.args.isEmpty || s.args.length == before then return
    repeated is fuel

/-- What a format prints with some arguments, the faults on the way, and the arguments that no
conversion took. -/
def print (wide : Bool) (format : String) (args : List String) :
    List Char × List Fault × List String :=
  let is := items wide format.length format.toList
  let (_, s) := (repeated is (args.length + 1)).run ⟨wide, [], [], args, false⟩
  (s.text.reverse, s.faults.reverse, s.args)

/-- Words with blanks between them and a line end, as a shell prints them: escapes count, and one
of them ends the output. -/
def echo (args : List String) : String :=
  let (withEnd, args) := match args with
    | "-n" :: rest => (false, rest)
    | args => (true, args)
  let joined := (String.intercalate " " args).toList
  let (text, stopped) := unescape false joined.length joined
  String.ofList (if withEnd && !stopped then text ++ ['\n'] else text)

end FirmwareMatrix.Shell.Format
