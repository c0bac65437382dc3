import FirmwareMatrix.Shell.Utility.Expression

/-! Programs for records: rules, each a condition on a record and what to do with it. -/

namespace FirmwareMatrix.Shell.Utility.Record

inductive Operator where
  | plus
  | minus
  | times
  | divide
  | rest
  | power
  deriving DecidableEq, Repr

inductive Comparison where
  | less
  | notMore
  | same
  | different
  | more
  | notLess
  deriving DecidableEq, Repr

/-- A function that is always there. -/
inductive Routine where
  | length
  | part
  | index
  | split
  | replace (all : Bool)
  | locate
  | format
  | sine
  | cosine
  | angle
  | exponential
  | logarithm
  | root
  | whole
  | random
  | seed
  | lower
  | upper
  | system
  | close
  | flush
  deriving DecidableEq, Repr

mutual

/-- Something that has a value. -/
inductive Term where
  | number (x : Float)
  | text (s : List Char)
  /-- An expression in slashes: whether the record matches, or what to match against. -/
  | regex (e : Expression)
  | at_ (p : Place)
  | assign (p : Place) (op : Option Operator) (t : Term)
  | choose (condition yes no : Term)
  | and (a b : Term)
  | or (a b : Term)
  | not (t : Term)
  | isIn (keys : List Term) (array : String)
  | matches_ (wanted : Bool) (t pattern : Term)
  | compare (c : Comparison) (a b : Term)
  | join (a b : Term)
  | binary (op : Operator) (a b : Term)
  | negate (t : Term)
  | plus (t : Term)
  /-- Adds one or takes one off; the value is the one before or after. -/
  | step (p : Place) (up before : Bool)
  | call (name : String) (args : List Term)
  | routine (r : Routine) (args : List Term)
  /-- The next record of the input, of a file or of what a command prints. -/
  | record (target : Option Place) (source : Option Term) (ofCommand : Bool)
  /-- Terms in brackets that are no single value: keys, or what is printed. -/
  | several (ts : List Term)

/-- Something that can be given a value. -/
inductive Place where
  | variable (name : String)
  | item (array : String) (keys : List Term)
  | field (t : Term)

end

instance : Inhabited Term := ⟨.text []⟩

/-- Where output goes. -/
inductive Sink where
  | file (t : Term)
  | fileEnd (t : Term)
  | command (t : Term)

inductive Statement where
  | nothing
  | value (t : Term)
  | print (ts : List Term) (sink : Option Sink)
  | format (ts : List Term) (sink : Option Sink)
  | both (a b : Statement)
  | branch (condition : Term) (yes no : Statement)
  | loop (condition : Term) (body : Statement)
  | loopAfter (body : Statement) (condition : Term)
  | count (start : Statement) (condition : Option Term) (next body : Statement)
  | each (name array : String) (body : Statement)
  | leave
  | again
  | nextRecord
  | nextFile
  | exit (t : Option Term)
  | back (t : Option Term)
  /-- Removes an item of an array, or all of them. -/
  | remove (array : String) (keys : List Term)

inductive Condition where
  | always
  | start
  | finish
  | holds (t : Term)
  | range (first last : Term)

structure Rule where
  condition : Condition
  body : Statement

structure Function where
  name : String
  parameters : List String
  body : Statement

structure Program where
  rules : List Rule
  functions : List Function

end FirmwareMatrix.Shell.Utility.Record
