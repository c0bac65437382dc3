import FirmwareMatrix.Shell.Utility.Record.Grammar
import FirmwareMatrix.Shell.Utility.Record.Memory

/-! A running program for records: its variables, the record at hand, what it reads from and what it
writes to. Its own output is held back until another program could write to the same place. -/

namespace FirmwareMatrix.Shell.Utility.Record

open Act (takeSome attach close newChannel newPipe textChannel openPath emit complain)

/-- A variable; it may stand for a value or for a table, which functions may share. -/
structure Cell where
  value : Value
  table : Nat

/-- Where records are read. -/
structure Source where
  /-- The channel that is read from; the input of the program if there is none. -/
  channel : Option Nat
  unread : List Char
  ended : Bool
  /-- The status of the command whose output it is. -/
  status : Nat

inductive Output where
  | file (channel : Nat)
  /-- What a command will find in its input, the latest first. -/
  | command (held : List (List Char))

/-- How a part of a program ends before its last statement. -/
inductive Leave where
  | leave
  | again
  | nextRecord
  | nextFile
  | back (v : Value)
  | exit
  | fault (text : String)
  | stop (s : Stop)

structure World where
  globals : Std.HashMap String Cell
  locals : List (String × Cell)
  tables : Std.HashMap Nat Table
  lastTable : Nat
  record : List Char
  fields : Array Value
  /-- Whether a field has changed since the record was put together. -/
  isStale : Bool
  /-- Expressions that texts have been read as. -/
  expressions : Std.HashMap String Expression
  /-- The file that records come from, and the argument after it. -/
  main : Option Source
  nextArgument : Nat
  hasOpened : Bool
  sources : List (String × Source)
  /-- Files and commands that are written to; the one used last is first. -/
  outputs : List (String × Output)
  /-- Output that is held back, the latest first. -/
  pending : List (List Char)
  /-- The ranges of records that are under way. -/
  ranges : List Nat
  status : Nat
  seed : Nat
  state : State

abbrev Run := EStateM Leave World

/-- Something that a process does. -/
def act {α : Type} (a : Act α) : Run α := fun w =>
  match a w.state with
  | .ok x s => .ok x { w with state := s }
  | .error e s => .error (.stop e) { w with state := s }

def fault {α : Type} (text : String) : Run α := throw (.fault text)

/-! ## Variables -/

def cell (name : String) : Run Cell := do
  let w ← get
  match w.locals.lookup name, w.globals[name]? with
  | some c, _ => return c
  | none, some c => return c
  | none, none =>
    let c : Cell := ⟨.unset, w.lastTable + 1⟩
    modify fun w => { w with globals := w.globals.insert name c, lastTable := w.lastTable + 1 }
    return c

def freshTable : Run Nat := do
  modify fun w => { w with lastTable := w.lastTable + 1 }
  return (← get).lastTable

def value (name : String) : Run Value := return (← cell name).value

/-- How numbers become text. -/
def numberFormat : Run (List Char) := return (← value "CONVFMT").toText []

def text (v : Value) : Run (List Char) := do
  match v with
  | .number x => return numberText (← numberFormat) x
  | v => return v.toText []

def textOf (name : String) : Run (List Char) := do text (← value name)

def setValue (name : String) (v : Value) : Run Unit := do
  let c ← cell name
  let c := { c with value := v }
  modify fun w =>
    if (w.locals.lookup name).isSome then
      { w with locals := w.locals.map fun (n, old) => (n, if n == name then c else old) }
    else { w with globals := w.globals.insert name c }

def addOne (name : String) : Run Unit := do
  setValue name (.number ((← value name).toNumber + 1))

def table (id : Nat) : Run Table := return ((← get).tables[id]?).getD .empty

def onTable (id : Nat) (f : Table → Table) : Run Unit := modify fun w =>
  { w with tables := w.tables.alter id fun t => some (f (t.getD .empty)) }

/-- What a text is split by that stands for a separator. -/
def separator (s : List Char) : Run Separator := do
  match s with
  | [] => return .each
  | [c] => return if c == ' ' then .blanks else .char c
  | s =>
    let name := String.ofList s
    match (← get).expressions[name]?, expression? s with
    | some e, _ => return .expression e
    | none, some e =>
      modify fun w => { w with expressions := w.expressions.insert name e }
      return .expression e
    | none, none => fault ("regular expression compile failed (missing operand)\n" ++ name)

/-- The expression that a text is. -/
def expression (s : List Char) : Run Expression := do
  match s with
  | [] => return .empty
  | [c] =>
    match expression? [c] with
    | some e => return e
    | none => return .char c
  | s =>
    match ← separator s with
    | .expression e => return e
    | _ => return .empty

/-! ## The record -/

def splitFields (s : List Char) : Run (Array Value) := do
  let separator ← separator (← textOf "FS")
  let byLines := (← textOf "RS").isEmpty
  return ((separator.split byLines s).map Value.input).toArray

def setRecord (s : List Char) : Run Unit := do
  let fields ← splitFields s
  modify fun w => { w with record := s, fields, isStale := false }

/-- The record, put together from its fields if one has changed. -/
def record : Run (List Char) := do
  let w ← get
  if w.isStale then
    let parts ← w.fields.toList.mapM text
    let s := (← textOf "OFS").intercalate parts
    modify fun w => { w with record := s, isStale := false }
    return s
  else return w.record

def field (n : Nat) : Run Value := do
  if n = 0 then return .input (← record)
  else return ((← get).fields[n - 1]?).getD .unset

def setField (n : Nat) (v : Value) : Run Unit := do
  if n = 0 then setRecord (← text v)
  else
    modify fun w =>
      let fields := w.fields ++ Array.replicate (n - w.fields.size) (.input [])
      { w with fields := fields.setIfInBounds (n - 1) v, isStale := true }

def setFieldCount (n : Nat) : Run Unit := modify fun w =>
  let fields := w.fields.extract 0 n
  { w with fields := fields ++ Array.replicate (n - fields.size) (.input []), isStale := true }

/-! ## Reading -/

/-- Takes what can be read at once. -/
def fetch (s : Source) : Run Source := do
  let found ← match s.channel with
    | none => act (takeSome 0)
    | some n => do
      act (attach 19 n)
      let found ← act (takeSome 19)
      act (close 19)
      pure found
  match found with
  | .ok [] => return { s with ended := true }
  | .error e => fault ("read error (" ++ e.text ++ ")")
  | .ok more => return { s with unread := s.unread ++ more }

def fetchAll : Nat → Source → Run Source
  | 0, s => return s
  | fuel + 1, s => do if s.ended then return s else fetchAll fuel (← fetch s)

/-- The text up to a character. -/
def upTo (c : Char) : Nat → Source → Run (Option (List Char) × Source)
  | 0, s => return (none, s)
  | fuel + 1, s => do
    let part := s.unread.takeWhile (· != c)
    match s.unread.drop part.length with
    | _ :: after => return (some part, { s with unread := after })
    | [] =>
      if !s.ended then upTo c fuel (← fetch s)
      else return (if part.isEmpty then none else some part, { s with unread := [] })

/-- The lines up to an empty one, and what follows the empty lines. -/
def paragraph : List Char → List Char × List Char
  | [] => ([], [])
  | '\n' :: '\n' :: cs => ([], cs.dropWhile (· == '\n'))
  | ['\n'] => ([], [])
  | c :: cs =>
    let (text, rest) := paragraph cs
    (c :: text, rest)

/-- The next record of a source. -/
def recordFrom (s : Source) : Run (Option (List Char) × Source) := do
  match ← textOf "RS" with
  | [c] => upTo c Act.mostTakes s
  | [] =>
    let s ← fetchAll Act.mostTakes s
    match s.unread.dropWhile (· == '\n') with
    | [] => return (none, { s with unread := [] })
    | cs =>
      let (text, rest) := paragraph cs
      return (some text, { s with unread := rest })
  | cs =>
    let e ← expression cs
    let s ← fetchAll Act.mostTakes s
    if s.unread.isEmpty then return (none, s)
    let array := s.unread.toArray
    match matches_ e ⟨array, false⟩ (array.size + 1) 0 with
    | [] => return (some s.unread, { s with unread := [] })
    | (low, high) :: _ => return (some (s.unread.take low), { s with unread := s.unread.drop high })

/-- A name and a value, if an argument sets a variable. -/
def setting? (arg : String) : Option (String × List Char) :=
  match Text.cutAt '=' arg.toList with
  | some (c :: name, value) =>
    if (c.isAlpha || c == '_') && name.all isNameChar then
      some (String.ofList (c :: name), unescaped value.length value)
    else none
  | _ => none

def setVariable (name : String) (v : Value) : Run Unit := do
  if name == "NF" then setFieldCount (whole v.toNumber).toNat else setValue name v

/-- Opens the next file among the arguments. -/
def openNext : Nat → Run Bool
  | 0 => return false
  | fuel + 1 => do
    let w ← get
    let count := (whole (← value "ARGC").toNumber).toNat
    if w.nextArgument < count then
      modify fun w => { w with nextArgument := w.nextArgument + 1 }
      let key := Key.ofValue [] (.ofNat w.nextArgument)
      let v := ((← table (← cell "ARGV").table).value? key).getD .unset
      let arg := String.ofList (← text v)
      if arg.isEmpty then openNext fuel
      else if let some (name, value) := setting? arg then
        setVariable name (.input value)
        openNext fuel
      else
        let channel ← if arg == "-" then pure none
          else match ← act do openPath (← Act.process).here arg .reading false with
            | .ok n => pure (some n)
            | .error e => throw (.fault ("cannot open \"" ++ arg ++ "\" (" ++ e.text ++ ")"))
        setValue "FILENAME" (.input arg.toList)
        setValue "FNR" (.number 0)
        modify fun w => { w with main := some ⟨channel, [], false, 0⟩, hasOpened := true }
        return true
    else if w.hasOpened then return false
    else
      modify fun w => { w with main := some ⟨none, [], false, 0⟩, hasOpened := true }
      return true

/-- The next record of the files among the arguments. -/
def mainRecord : Nat → Run (Option (List Char))
  | 0 => return none
  | fuel + 1 => do
    match (← get).main with
    | none => if ← openNext (fuel + 1) then mainRecord fuel else return none
    | some s =>
      let (found, s) ← recordFrom s
      match found with
      | some text =>
        modify fun w => { w with main := some s }
        addOne "NR"
        addOne "FNR"
        return some text
      | none =>
        modify fun w => { w with main := none }
        mainRecord fuel

/-! ## Writing -/

/-- Lets go of what has been held back. -/
def flush : Run Unit := do
  let pending := (← get).pending
  if pending.isEmpty then return
  modify fun w => { w with pending := [] }
  act (emit (String.ofList pending.reverse.flatten))

def hold (s : List Char) : Run Unit := modify fun w => { w with pending := s :: w.pending }

def writeTo (channel : Nat) (s : List Char) : Run Unit := act do
  attach 19 channel
  let _ ← Act.write 19 s
  close 19

/-- Runs a command with some text in its input. -/
def feed (spawn : Spawn) (command : String) (input : List Char) : Run Nat := act do
  let channel ← textChannel input
  let change (p : Process) : Process :=
    { p with descriptors := (0, channel) :: p.descriptors.filter (·.1 != 0) }
  match ← spawn change ["/bin/sh", "-c", command] with
  | .ok status => return status
  | .error _ => return 127

/-- What a command prints, as a source. -/
def printedBy (spawn : Spawn) (command : String) : Run Source := do
  flush
  act do
    let number ← newPipe none
    let entrance ← newChannel (.entrance number)
    let change (p : Process) : Process :=
      { p with descriptors := (1, entrance) :: p.descriptors.filter (·.1 != 1) }
    let status ← match ← spawn change ["/bin/sh", "-c", command] with
      | .ok status => pure status
      | .error _ => pure 127
    return ⟨none, (← Act.pipe number).text, true, status⟩

/-- Writes to a file or for a command, which is opened when it is first written to. -/
def writeOut (s : List Char) (name : String) (opened : Run Output) : Run Unit := do
  let outputs := (← get).outputs
  let o ← match outputs.lookup name with
    | some o => pure o
    | none => opened
  let o ← match o with
    | .file n => do
      writeTo n s
      pure o
    | .command held => pure (.command (s :: held))
  modify fun w => { w with outputs := (name, o) :: w.outputs.filter (·.1 != name) }

def openOutput (name : String) (opening : Opening) : Run Output := do
  match ← act do openPath (← Act.process).here name opening false with
  | .ok n => return .file n
  | .error e => fault ("cannot open \"" ++ name ++ "\" for output (" ++ e.text ++ ")")

/-- Closes a file or ends a command. -/
def closeOutput (spawn : Spawn) (command : String) : Output → Run Nat
  | .file _ => return 0
  | .command held => feed spawn command held.reverse.flatten

end FirmwareMatrix.Shell.Utility.Record
