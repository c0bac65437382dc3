/-! Shell scripts: commands joined by operators and control words, made of words whose parts are
text, parameters, sums and the output of other commands. -/

namespace FirmwareMatrix.Shell

/-- How a redirection opens what it names. -/
inductive Opening where
  | reading
  | writing
  /-- Writing even where files are protected from being emptied. -/
  | overwriting
  | appending
  | both
  deriving DecidableEq, Repr

mutual

/-- A part of a word. What comes from outside quotes is split into fields, and its wildcards count
in patterns. -/
inductive Part where
  /-- Text; text in quotes may be empty, and still makes a field. -/
  | text (s : List Char) (inQuotes : Bool)
  | parameter (name : String) (edit : Edit) (inQuotes : Bool)
  | sum (body : List Part) (inQuotes : Bool)
  | output (c : Command) (inQuotes : Bool)

/-- What is done to the value of a parameter. -/
inductive Edit where
  | none
  | length
  /-- The word stands for a missing value, or for an empty one too. -/
  | otherwise (evenEmpty : Bool) (word : List Part)
  /-- The word becomes the value where it is missing. -/
  | assign (evenEmpty : Bool) (word : List Part)
  /-- The word says what is wrong where the value is missing. -/
  | demand (evenEmpty : Bool) (word : List Part)
  /-- The word stands for a value that is there. -/
  | instead (evenEmpty : Bool) (word : List Part)
  | cut (atEnd longest : Bool) (pattern : List Part)
  /-- Nothing that can be done. -/
  | malformed

inductive Redirection where
  | file (descriptor : Nat) (opening : Opening) (target : List Part)
  /-- The target is another descriptor, or a dash for none. -/
  | share (descriptor : Nat) (target : List Part)
  /-- The input is a text within the script, kept under a number. -/
  | document (descriptor : Nat) (number : Nat)

/-- Commands; `line` is the line of the script that one stands on. -/
inductive Command where
  | nothing
  | simple (line : Nat) (assignments : List (String × List Part)) (words : List (List Part))
      (redirections : List Redirection)
  | sequence (first second : Command)
  | both (first second : Command)
  | either (first second : Command)
  | negated (c : Command)
  | piped (commands : List Command)
  | subshell (line : Nat) (c : Command) (redirections : List Redirection)
  | background (line : Nat) (c : Command) (redirections : List Redirection)
  | branch (condition consequence : Command) (alternative : Option Command)
  | loop (wanted : Bool) (condition body : Command)
  | each (line : Nat) (name : String) (items : List (List Part)) (body : Command)
  | choose (line : Nat) (word : List Part) (cases : List (List (List Part) × Command))
  | redirected (line : Nat) (c : Command) (redirections : List Redirection)
  | define (line : Nat) (name : String) (body : Command)

end

instance : Inhabited Command := ⟨.nothing⟩

abbrev Word := List Part

/-- A word that is one text. -/
def Word.ofText (s : List Char) : Word := [.text s true]

/-- The name that an assignment starts with and the rest of the text, if it is one. -/
def splitAssignment? (cs : List Char) : Option (List Char × List Char) :=
  let isInner (c : Char) : Bool := c.isAlphanum || c == '_'
  let name := cs.takeWhile isInner
  match name, cs.drop name.length with
  | c :: _, '=' :: rest => if c.isDigit then none else some (name, rest)
  | _, _ => none

/-- The assignment that a word is. Its name is not in quotes. -/
def Word.assignment? : Word → Option (String × Word)
  | .text cs false :: rest =>
    (splitAssignment? cs).map fun (name, value) =>
      (String.ofList name, if value.isEmpty then rest else .text value false :: rest)
  | _ => none

end FirmwareMatrix.Shell
