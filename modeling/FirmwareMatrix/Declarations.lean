import FirmwareMatrix.Text.Blank

/-! The two definitions that make a C header a board description: a board name and a chip target,
each a define of a fixed symbol with a quoted value. The first define of a symbol that is complete
on its line counts, and both values have to be there and not be empty. Main statements: when a
symbol has a value and when a header declares something. -/

namespace FirmwareMatrix

structure Declarations where
  name : String
  target : String
  deriving DecidableEq, Repr

namespace Declarations

def nameSymbol : List Char := "HW_NAME".toList

def targetSymbol : List Char := "HW_TARGET".toList

def directive : List Char := "#define".toList

/-- The text after `word`, if the text starts with it. -/
def after? (word cs : List Char) : Option (List Char) :=
  if word.isPrefixOf cs then some (cs.drop word.length) else none

/-- The text after one or more blanks. -/
def afterBlanks? : List Char → Option (List Char)
  | [] => none
  | c :: cs => if Text.isBlank c then some (Text.trimLeft cs) else none

/-- The run up to a closing quote on the same line. -/
def quotedRun? : List Char → Option (List Char)
  | [] => none
  | c :: cs =>
    if c = '"' then some []
    else if c = '\n' then none
    else (quotedRun? cs).map (c :: ·)

/-- The value defined for `symbol` where the text starts. -/
def valueHere? (symbol cs : List Char) : Option (List Char) := do
  let cs ← after? directive cs
  let cs ← afterBlanks? cs
  let cs ← after? symbol cs
  let cs ← afterBlanks? cs
  let cs ← after? ['"'] cs
  quotedRun? cs

/-- The value of the first complete define of `symbol`. -/
def firstValue? (symbol : List Char) : List Char → Option (List Char)
  | [] => none
  | c :: cs =>
    match valueHere? symbol (c :: cs) with
    | some value => some value
    | none => firstValue? symbol cs

/-- A first value that is empty is none at all. -/
def value? (symbol cs : List Char) : Option String :=
  match firstValue? symbol cs with
  | some (c :: cs) => some (String.ofList (c :: cs))
  | _ => none

/-- Reads the declarations of a header. -/
def read (text : String) : Option Declarations := do
  let name ← value? nameSymbol text.toList
  let target ← value? targetSymbol text.toList
  return { name, target }

/-- A header file that carries the declarations. -/
def header (d : Declarations) : String :=
  "#ifndef HW_H_\n#define HW_H_\n\n#define HW_NAME \"" ++ d.name ++ "\"\n#define HW_TARGET \"" ++
    d.target ++ "\"\n\n#endif\n"

/-! ## Values and declarations -/

theorem value?_eq_some {symbol cs : List Char} {value : String} :
    value? symbol cs = some value ↔ value ≠ "" ∧ firstValue? symbol cs = some value.toList := by
  unfold value?
  split
  · next c rest hfirst =>
    simp only [Option.some.injEq, hfirst]
    constructor
    · rintro rfl
      refine ⟨fun he => ?_, by simp⟩
      simpa using congrArg String.toList he
    · rintro ⟨-, hrun⟩
      rw [hrun, String.ofList_toList]
  · next hfirst =>
    refine iff_of_false nofun ?_
    rintro ⟨hne, hrun⟩
    cases hvalue : value.toList with
    | nil => exact hne (String.toList_inj.mp hvalue)
    | cons c rest => exact hfirst c rest (hvalue ▸ hrun)

theorem value?_eq_none {symbol cs : List Char} :
    value? symbol cs = none ↔ firstValue? symbol cs = none ∨ firstValue? symbol cs = some [] := by
  unfold value?
  split
  · next c rest hfirst => simp [hfirst]
  · next hfirst =>
    refine iff_of_true rfl ?_
    cases hvalue : firstValue? symbol cs with
    | none => exact .inl rfl
    | some run =>
      cases run with
      | nil => exact .inr rfl
      | cons c rest => exact absurd hvalue (hfirst c rest)

theorem read_eq_some {text : String} {d : Declarations} :
    read text = some d ↔ value? nameSymbol text.toList = some d.name ∧
      value? targetSymbol text.toList = some d.target := by
  obtain ⟨name, target⟩ := d
  simp only [read, Option.bind_eq_bind, Option.bind_eq_some_iff, Option.pure_def, Option.some.injEq,
    Declarations.mk.injEq]
  constructor
  · rintro ⟨_, hname, _, htarget, rfl, rfl⟩
    exact ⟨hname, htarget⟩
  · rintro ⟨hname, htarget⟩
    exact ⟨name, hname, target, htarget, rfl, rfl⟩

theorem read_eq_none {text : String} :
    read text = none ↔
      value? nameSymbol text.toList = none ∨ value? targetSymbol text.toList = none := by
  unfold read
  cases hname : value? nameSymbol text.toList with
  | none => simp
  | some name => cases htarget : value? targetSymbol text.toList <;> simp

end Declarations

end FirmwareMatrix
