import FirmwareMatrix.Text.Blank
import FirmwareMatrix.Text.Quoted

/-! Paths. A path is what it was given as, and is compared by its components: repeated and
trailing separators and inner dots do not count, a dot at the start and double dots do. Like the
names in it a path need not be a text; one that is a text is read letter by letter, and any other
byte by byte. -/

namespace FirmwareMatrix

/-- One step of a path. -/
inductive Component where
  | root
  | here
  | up
  | name (text : String)
  /-- A name that is no text. -/
  | stray (b : Stray)
  deriving DecidableEq, Repr

namespace Component

/-- The root sorts before the dot, the dot before the double dot, and names come last. -/
def rank : Component → Nat
  | root => 0
  | here => 1
  | up => 2
  | name _ | stray _ => 3

/-- Names are compared by their bytes. -/
def label : Component → List UInt8
  | name text => Text.Utf8.encode text.toList
  | stray b => b.bytes
  | _ => []

instance : Ord Component where
  compare := compareLex (compareOn rank) (compareOn label)

/-- A step that stays below the place it is taken from. -/
def isName : Component → Bool
  | name _ | stray _ => true
  | _ => false

/-- How a step is written. -/
def native : Component → NativeText
  | root => ""
  | here => "."
  | up => ".."
  | name text => text
  | stray b => .stray b

/-- The name that bytes are. -/
def ofBytes (bs : List UInt8) : Component :=
  match NativeText.ofBytes bs with
  | .text text => name text
  | .stray b => stray b

theorem isName_ofBytes (bs : List UInt8) : (ofBytes bs).isName = true := by
  unfold ofBytes
  split <;> rfl

end Component

structure Path where
  ofNative ::
  native : NativeText
  deriving Repr, Inhabited

namespace Path

@[match_pattern] abbrev mk (text : String) : Path := ⟨text⟩

/-- The path as it is shown. -/
def text (p : Path) : String := p.native.lossy

@[simp] theorem text_mk (text : String) : (mk text).text = text := rfl

def bytes (p : Path) : List UInt8 := p.native.bytes

/-- What paths are written in: a separator, dots, and names of whatever is neither. -/
structure Script (α : Type) where
  separator : α
  dot : α
  name : List α → Component
  named : ∀ piece, (name piece).isName = true

def letters : Script Char := ⟨'/', '.', fun cs => .name (String.ofList cs), fun _ => rfl⟩

def octets : Script UInt8 := ⟨0x2f, 0x2e, .ofBytes, Component.isName_ofBytes⟩

namespace Script

variable {α : Type} [DecidableEq α] (s : Script α)

/-- The component that a piece between separators stands for after the first piece. -/
def inner (piece : List α) : Option Component :=
  if piece = [] ∨ piece = [s.dot] then none
  else if piece = [s.dot, s.dot] then some .up
  else some (s.name piece)

/-- The component that the first piece stands for, when it is not empty. -/
def first (piece : List α) : Option Component :=
  if piece = [s.dot] then some .here else s.inner piece

def components (xs : List α) : List Component :=
  match Text.splitAt s.separator xs with
  | [] => []
  | [] :: [] => []
  | [] :: rest => .root :: rest.filterMap s.inner
  | piece :: rest => (s.first piece).toList ++ rest.filterMap s.inner

def isAbsolute (xs : List α) : Bool := xs.head? == some s.separator

/-- One after the other, with a separator between them where one is missing. -/
def join (xs ys : List α) : List α :=
  if xs.getLast?.all (· == s.separator) then xs ++ ys else xs ++ s.separator :: ys

/-- Pieces that add no component are dropped from the end. -/
def trimPieces (pieces : List (List α)) : List (List α) :=
  (pieces.reverse.dropWhile fun piece => (s.inner piece).isNone).reverse

/-- What is left without the last component; a root and what is empty have none. -/
def parent? (xs : List α) : Option (List α) :=
  let above (pieces : List (List α)) : List α :=
    List.intercalate [s.separator] (s.trimPieces pieces.dropLast)
  match Text.splitAt s.separator xs with
  | [] => none
  | [] :: rest =>
    match s.trimPieces rest with
    | [] => none
    | pieces => some (s.separator :: above pieces)
  | piece :: rest =>
    if piece = [s.dot] then
      match s.trimPieces rest with
      | [] => some []
      | pieces => some (List.intercalate [s.separator] (piece :: s.trimPieces pieces.dropLast))
    else
      match s.trimPieces (piece :: rest) with
      | [] => none
      | pieces => some (above pieces)

end Script

/-- Reads a path in the script that it is written in. -/
def read {β : Type} (f : ∀ {α : Type} [DecidableEq α], Script α → List α → β) (p : Path) : β :=
  match p.native with
  | .text s => f letters s.toList
  | .stray b => f octets b.bytes

def components (p : Path) : List Component := p.read Script.components

/-- Paths are equal when their components are. -/
instance : BEq Path where
  beq p q := p.components == q.components

/-- Paths are ordered by their components. -/
instance : Ord Path where
  compare := compareOn components

def isEmpty (p : Path) : Bool := p.read fun _ xs => xs.isEmpty

def isAbsolute (p : Path) : Bool := p.read Script.isAbsolute

/-- `q`, taken from `p`; an absolute `q` stands alone. -/
def join (p q : Path) : Path :=
  if q.isAbsolute then q
  else match p.native, q.native with
    | .text s, .text t => ⟨String.ofList (letters.join s.toList t.toList)⟩
    | _, _ => ⟨.ofBytes (octets.join p.bytes q.bytes)⟩

/-- A child of `p` by name. -/
def child (p : Path) (name : String) : Path := p.join ⟨name⟩

/-- The path without its last component; a root and an empty path have none. -/
def parent (p : Path) : Option Path :=
  match p.native with
  | .text s => (letters.parent? s.toList).map fun cs => ⟨String.ofList cs⟩
  | .stray b => (octets.parent? b.bytes).map fun bs => ⟨.ofBytes bs⟩

/-- The last component as it is shown, when it is a name. -/
def fileName (p : Path) : Option String :=
  (p.components.getLast?.filter Component.isName).map fun c => c.native.lossy

/-- The names that lead from `root` to `p`, joined by separators, if `p` lies at or below it. -/
def relativeTo (root p : Path) : Option Path :=
  if root.components.isPrefixOf p.components then
    some ⟨.intercalate '/' ((p.components.drop root.components.length).map Component.native)⟩
  else none

/-- The path as messages quote it. -/
def quoted (p : Path) : String := Text.Quoted.quote p.native

end Path

end FirmwareMatrix
