/-! Terminal control sequences, and text with them removed. Removal runs a terminal's own machine
over the bytes: what it would print stays, together with blanks of ASCII, and what it would take
for a sequence or a control character goes. A sequence may begin in one piece of text and end in
another, so the state is kept from piece to piece. -/

namespace FirmwareMatrix.Text.Escape

/-! ## Sequences -/

def csi (body : String) : String := "\x1b[" ++ body

def saveCursor : String := "\x1b7"
def restoreCursor : String := "\x1b8"
def clearLine : String := csi "2K"
def bold : String := csi "1m"
def cyan : String := csi "38;5;14m"
def reset : String := csi "0m"

/-- Moves the cursor to a row and column, both counted from one. -/
def moveTo (row column : Nat) : String := csi (toString row ++ ";" ++ toString column ++ "H")

/-- Confines scrolling to the rows from `top` to `bottom`. -/
def scrollRows (top bottom : Nat) : String := csi (toString top ++ ";" ++ toString bottom ++ "r")

/-- Scrolls the whole screen again. -/
def scrollAll : String := csi "r"

/-! ## Removal -/

inductive State where
  | ground
  | escape
  | escapeIntermediate
  | csiEntry
  | csiParameter
  | csiIntermediate
  | csiIgnore
  | dcsEntry
  | dcsParameter
  | dcsIntermediate
  | dcsPass
  | dcsIgnore
  | oscString
  | otherString
  /-- Within a character of several bytes: how many are still to come. -/
  | scalar (left : Nat)
  deriving DecidableEq, Repr

/-- What the machine does with a byte, as far as it matters for what is kept. -/
inductive Action where
  | print
  | execute
  | beginScalar
  | other
  deriving DecidableEq, Repr

def isC0 (n : Nat) : Bool := n ≤ 0x17 || n == 0x19 || (0x1c ≤ n && n ≤ 0x1f)

/-- The byte count of the character that a byte begins. -/
def scalarWidth (n : Nat) : Nat := if n < 0xe0 then 2 else if n < 0xf0 then 3 else 4

/-- The next state, unless it stays the same, and the action. Cancelling and starting over work
in every state. -/
def change (s : State) (b : UInt8) : Option State × Action :=
  let n := b.toNat
  if n = 0x18 ∨ n = 0x1a then (some .ground, .execute)
  else if n = 0x1b then (some .escape, .other)
  else match s with
  | .scalar _ => (none, .other)
  | .ground =>
    if isC0 n then (none, .execute)
    else if 0x20 ≤ n ∧ n ≤ 0x7f then (none, .print)
    else if 0x80 ≤ n ∧ n ≤ 0x9f then (none, .execute)
    else if 0xc2 ≤ n ∧ n ≤ 0xf4 then (some (.scalar (scalarWidth n)), .beginScalar)
    else (none, .other)
  | .escape =>
    if isC0 n then (none, .execute)
    else if 0x20 ≤ n ∧ n ≤ 0x2f then (some .escapeIntermediate, .other)
    else if n = 0x50 then (some .dcsEntry, .other)
    else if n = 0x58 ∨ n = 0x5e ∨ n = 0x5f then (some .otherString, .other)
    else if n = 0x5b then (some .csiEntry, .other)
    else if n = 0x5d then (some .oscString, .other)
    else if 0x30 ≤ n ∧ n ≤ 0x7e then (some .ground, .other)
    else (none, .other)
  | .escapeIntermediate =>
    if isC0 n then (none, .execute)
    else if 0x30 ≤ n ∧ n ≤ 0x7e then (some .ground, .other)
    else (none, .other)
  | .csiEntry =>
    if isC0 n then (none, .execute)
    else if 0x20 ≤ n ∧ n ≤ 0x2f then (some .csiIntermediate, .other)
    else if 0x30 ≤ n ∧ n ≤ 0x3f then (some .csiParameter, .other)
    else if 0x40 ≤ n ∧ n ≤ 0x7e then (some .ground, .other)
    else (none, .other)
  | .csiParameter =>
    if isC0 n then (none, .execute)
    else if 0x20 ≤ n ∧ n ≤ 0x2f then (some .csiIntermediate, .other)
    else if 0x3c ≤ n ∧ n ≤ 0x3f then (some .csiIgnore, .other)
    else if 0x40 ≤ n ∧ n ≤ 0x7e then (some .ground, .other)
    else (none, .other)
  | .csiIntermediate =>
    if isC0 n then (none, .execute)
    else if 0x30 ≤ n ∧ n ≤ 0x3f then (some .csiIgnore, .other)
    else if 0x40 ≤ n ∧ n ≤ 0x7e then (some .ground, .other)
    else (none, .other)
  | .csiIgnore =>
    if isC0 n then (none, .execute)
    else if 0x40 ≤ n ∧ n ≤ 0x7e then (some .ground, .other)
    else (none, .other)
  | .dcsEntry =>
    if 0x20 ≤ n ∧ n ≤ 0x2f then (some .dcsIntermediate, .other)
    else if 0x30 ≤ n ∧ n ≤ 0x3f then (some .dcsParameter, .other)
    else if 0x40 ≤ n ∧ n ≤ 0x7e then (some .dcsPass, .other)
    else (none, .other)
  | .dcsParameter =>
    if 0x20 ≤ n ∧ n ≤ 0x2f then (some .dcsIntermediate, .other)
    else if 0x3c ≤ n ∧ n ≤ 0x3f then (some .dcsIgnore, .other)
    else if 0x40 ≤ n ∧ n ≤ 0x7e then (some .dcsPass, .other)
    else (none, .other)
  | .dcsIntermediate =>
    if 0x30 ≤ n ∧ n ≤ 0x3f then (some .dcsIgnore, .other)
    else if 0x40 ≤ n ∧ n ≤ 0x7e then (some .dcsPass, .other)
    else (none, .other)
  | .dcsPass | .dcsIgnore | .otherString =>
    if n = 0x9c then (some .ground, .other) else (none, .other)
  | .oscString => if n = 0x07 then (some .ground, .other) else (none, .other)

/-- Blanks of ASCII are kept although they are control characters; the delete character is not. -/
def kept (a : Action) (b : UInt8) : Bool :=
  match a with
  | .print => b != 0x7f
  | .beginScalar => true
  | .execute => b == 0x09 || b == 0x0a || b == 0x0c || b == 0x0d
  | .other => false

/-- A byte outside a run of kept bytes: whether it starts one, and the state after it. -/
def seek (s : State) (b : UInt8) : Bool × State :=
  match s with
  | .scalar _ => (true, s)
  | s =>
    let (next, a) := change s b
    (kept a b, next.getD s)

/-- A byte within a run: whether it belongs to the run, and the state after it. Within a run the
machine is taken to be at rest. -/
def run (s : State) (b : UInt8) : Bool × State :=
  match s with
  | .scalar (left + 2) => (true, .scalar (left + 1))
  | .scalar _ => (true, .ground)
  | s =>
    let (next, a) := change .ground b
    match next with
    | some (.scalar width) => (true, .scalar (width - 1))
    | some next => (kept a b, next)
    | none => (kept a b, s)

/-- The kept bytes of one piece of text and the state after it. -/
def strip (inRun : Bool) (s : State) : List UInt8 → List UInt8 × State
  | [] => ([], s)
  | b :: bs =>
    let afterRun := if inRun then run s b else (false, s)
    let (keep, s) :=
      if afterRun.1 then afterRun
      else
        let (starts, s) := seek afterRun.2 b
        if starts then run s b else (false, s)
    let (kept, s) := strip keep s bs
    (if keep then b :: kept else kept, s)

end FirmwareMatrix.Text.Escape
