import FirmwareMatrix.Toml.Literal

/-! Settings documents: nested tables of named values. A document is read into statements in their
order, and the statements are entered into its root table one by one. No name is given twice in a
table, and a table is written in one place: by a header, by dotted names or inline. -/

namespace FirmwareMatrix.Toml

/-- How a table came to be. -/
inductive Origin where
  /-- It was written down by a header of its own. -/
  | header
  /-- A header of a table within it needed it. -/
  | implied
  /-- Dotted names gave it its entries. -/
  | dotted
  /-- It was written as one value. -/
  | inline
  deriving DecidableEq, Repr

inductive Value where
  | text (s : String)
  /-- A truth value, a number, a date or a time. -/
  | plain
  | list (items : List Value)
  | table (origin : Origin) (entries : List (String × Value))
  /-- A list whose tables have headers of their own. -/
  | tables (elements : List (List (String × Value)))

abbrev Table := List (String × Value)

/-- A dotted name. -/
abbrev Name := List String

namespace Table

/-- Gives `key` a value that depends on the one it has. -/
def alter (key : String) (f : Option Value → Option Value) : Table → Option Table
  | [] => (f none).map fun v => [(key, v)]
  | (k, v) :: rest =>
    if k = key then (f (some v)).map fun v => (k, v) :: rest
    else (alter key f rest).map ((k, v) :: ·)

/-- Gives a dotted name a value. Only tables that dotted names have made are passed through. -/
def assign (v : Value) : Name → Table → Option Table
  | [], _ => none
  | [key], t => alter key (fun old => if old.isNone then some v else none) t
  | key :: rest, t =>
    let inner : Option Value → Option Value
      | none => (assign v rest []).map (.table .dotted)
      | some (.table .dotted inside) => (assign v rest inside).map (.table .dotted)
      | some _ => none
    alter key inner t

/-- Makes the table that a header names, or another element of the list it names, and fills it. -/
def place (isElement : Bool) (fill : Table → Option Table) : Name → Table → Option Table
  | [], t => fill t
  | [key], t =>
    let entry : Option Value → Option Value
      | none =>
        (fill []).map fun t => if isElement then .tables [t] else .table .header t
      | some (.table .implied inside) =>
        if isElement then none else (fill inside).map (.table .header)
      | some (.tables elements) =>
        if isElement then (fill []).map fun t => .tables (elements ++ [t]) else none
      | some _ => none
    alter key entry t
  | key :: rest, t =>
    let entry : Option Value → Option Value
      | none => (place isElement fill rest []).map (.table .implied)
      | some (.table .inline _) => none
      | some (.table origin inside) => (place isElement fill rest inside).map (.table origin)
      | some (.tables elements) =>
        match elements.getLast? with
        | some last => (place isElement fill rest last).map fun t =>
            .tables (elements.dropLast ++ [t])
        | none => none
      | some _ => none
    alter key entry t

end Table

/-- A part of a document: the header it stands below, none at the top, and its assignments. -/
structure Section where
  header : Name
  isElement : Bool
  assignments : List (Name × Value)

def Section.fill (s : Section) (t : Table) : Option Table :=
  s.assignments.foldlM (fun t (name, v) => t.assign v name) t

/-- The root table of a document in sections. -/
def ofSections (sections : List Section) : Option Table :=
  sections.foldlM (fun t s => t.place s.isElement s.fill s.header) []

namespace Document

open FirmwareMatrix.Text (Reader)
open FirmwareMatrix.Text.Reader

/-- A remark up to the end of its line, if one is next. -/
def remark : Reader Unit := do
  if ← accept ['#'] then
    let _ ← takeWhile Literal.isAllowed

/-- Blanks, remarks and line ends. -/
def gap : Nat → Reader Unit
  | 0 => fail
  | fuel + 1 => do
    blanks
    remark
    if ← newline then gap fuel

def isBare (c : Char) : Bool := c.isAlphanum || c == '-' || c == '_'

def simpleKey : Reader String := do
  match ← Literal.readOneLine with
  | some key => return key
  | none =>
    match ← takeWhile isBare with
    | [] => fail
    | cs => return String.ofList cs

/-- The most values that may lie within each other, and the most parts that a name may have. -/
def deepest : Nat := 80

/-- A dotted name and the blanks around it. -/
def parts : Nat → Reader Name
  | 0 => fail
  | fuel + 1 => do
    blanks
    let key ← simpleKey
    blanks
    if ← accept ['.'] then return key :: (← parts fuel) else return [key]

def name (fuel : Nat) : Reader Name := do
  let key ← parts fuel
  if deepest < key.length then fail
  return key

/-- Characters that end a plain value. -/
def endsPlain (c : Char) : Bool := "=,[]\x7b\x7d#\r\n".toList.contains c

/-- The text of a plain value, without the blanks after it. -/
def plainText : Reader (List Char) := fun cs =>
  let isBlank (c : Char) : Bool := c == ' ' || c == '\t'
  let text := cs.takeWhile fun c => !endsPlain c
  let text := (text.reverse.dropWhile isBlank).reverse
  some (text, cs.drop text.length)

def plain : Reader Value := do
  if Scalar.isPlain (← plainText) then return .plain else fail

mutual

/-- A value that lies within `depth` others. -/
def value (depth : Nat) : Nat → Reader Value
  | 0 => fail
  | fuel + 1 => do
    if let some s ← Literal.read then return .text s
    if ← accept ['['] then
      if depth < deepest then return .list (← items (depth + 1) fuel) else fail
    if ← accept ['\x7b'] then
      if depth < deepest then return .table .inline (← entries (depth + 1) fuel []) else fail
    plain

/-- The rest of a list. A comma may stand before its end. -/
def items (depth : Nat) : Nat → Reader (List Value)
  | 0 => fail
  | fuel + 1 => do
    gap fuel
    if ← accept [']'] then return []
    let v ← value depth fuel
    gap fuel
    if ← accept [','] then return v :: (← items depth fuel)
    expect [']']
    return [v]

/-- The rest of a table written as one value. A comma may stand before its end, and lines may end
around every part but within a name. -/
def entries (depth : Nat) : Nat → Table → Reader Table
  | 0, _ => fail
  | fuel + 1, t => do
    gap fuel
    if ← accept ['\x7d'] then return t
    let key ← name fuel
    gap fuel
    expect ['=']
    gap fuel
    let v ← value depth fuel
    match t.assign v key with
    | none => fail
    | some t =>
      gap fuel
      if ← accept [','] then entries depth fuel t
      else
        expect ['\x7d']
        return t

end

/-- A name and its value, on one line but for what the value holds. -/
def pair (fuel : Nat) : Reader (Name × Value) := do
  let key ← name fuel
  expect ['=']
  blanks
  return (key, ← value 0 fuel)

/-- The end of a statement's line, which is the end of the text at the latest. -/
def lineEnd : Reader Unit := do
  blanks
  remark
  if !(← newline) && (← peek).isSome then fail

/-- A header: whether it is one of a list's element, and the name. -/
def header (fuel : Nat) : Reader (Bool × Name) := do
  let isElement ← accept ['[']
  let key ← name fuel
  expect (if isElement then [']', ']'] else [']'])
  return (isElement, key)

/-- The rest of the document; `current` is the section it continues. -/
def sections : Nat → Section → Reader (List Section)
  | 0, _ => fail
  | fuel + 1, current => do
    gap (fuel + 1)
    if (← peek).isNone then return [current]
    if ← accept ['['] then
      let (isElement, key) ← header fuel
      lineEnd
      return current :: (← sections fuel ⟨key, isElement, []⟩)
    else
      let assignment ← pair fuel
      lineEnd
      sections fuel { current with assignments := current.assignments ++ [assignment] }

/-- The root table of a document; a byte order mark may stand before it. -/
def read (text : String) : Option Table := do
  let cs := match text.toList with
    | '\uFEFF' :: cs => cs
    | cs => cs
  let (parts, _) ← sections (2 * cs.length + 2) ⟨[], false, []⟩ cs
  ofSections parts

end Document

end FirmwareMatrix.Toml
