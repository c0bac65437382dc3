import FirmwareMatrix.Text.Blank

/-! Diagnostics: what is reported beside the progress lines, and how much of it is wanted. -/

namespace FirmwareMatrix

/-- Severities, the gravest first. -/
inductive LogLevel where
  | error
  | warn
  | info
  | debug
  | trace
  deriving DecidableEq, Repr

/-- A report with its fields in the order they were given. -/
structure LogEntry where
  level : LogLevel
  message : String
  fields : List (String × String)
  deriving DecidableEq, Repr

namespace LogLevel

def label : LogLevel → String
  | error => "ERROR"
  | warn => "WARN"
  | info => "INFO"
  | debug => "DEBUG"
  | trace => "TRACE"

/-- The level that a word names. -/
def ofWord? : String → Option LogLevel
  | "error" => some error
  | "warn" => some warn
  | "info" => some info
  | "debug" => some debug
  | "trace" => some trace
  | _ => none

/-- The level that the environment names: blanks around the word and the case of ASCII letters
do not matter, and no other letter has one of these words as its lower case. -/
def ofEnvironment? (value : String) : Option LogLevel :=
  let word := String.ofList ((Text.trim value.toList).map Char.toLower)
  if word = "warning" then some warn else ofWord? word

/-- The level in force: the command line's, else the environment's, else `info`. -/
def resolve (option : Option LogLevel) (environment : Option String) : LogLevel :=
  option.getD ((environment.bind ofEnvironment?).getD info)

end LogLevel

end FirmwareMatrix
