import FirmwareMatrix.Glob
import FirmwareMatrix.Path

/-! Failures: a cause and the steps during which it arose, outermost first. A report shows either
the outermost step alone or the whole chain. -/

namespace FirmwareMatrix

/-- Faults that the operating system reports. -/
inductive Errno where
  | noEntry
  | badFormat
  | badDescriptor
  | accessDenied
  | exists
  | notDirectory
  | isDirectory
  | nameTooLong
  | notEmpty
  | invalid
  | noSpace
  | tooManyLinks
  /-- A name is no text where only texts can be names. -/
  | malformedName
  /-- A path holds the character that ends paths. -/
  | endInPath
  /-- An argument of a process holds the character that ends arguments. -/
  | endInArgument
  deriving DecidableEq, Repr

/-- The fault in words. -/
def Errno.text : Errno → String
  | noEntry => "No such file or directory"
  | badFormat => "Exec format error"
  | badDescriptor => "Bad file descriptor"
  | accessDenied => "Permission denied"
  | .exists => "File exists"
  | notDirectory => "Not a directory"
  | isDirectory => "Is a directory"
  | nameTooLong => "File name too long"
  | notEmpty => "Directory not empty"
  | invalid => "Invalid argument"
  | noSpace => "No space left on device"
  | tooManyLinks => "Too many levels of symbolic links"
  | malformedName => "Invalid or incomplete multibyte or wide character"
  | endInPath => "file name contained an unexpected NUL byte"
  | endInArgument => "nul byte found in provided data"

/-- The number that the system gives a fault; what never reaches the system has none. -/
def Errno.number? : Errno → Option Nat
  | noEntry => some 2
  | badFormat => some 8
  | badDescriptor => some 9
  | accessDenied => some 13
  | .exists => some 17
  | notDirectory => some 20
  | isDirectory => some 21
  | nameTooLong => some 36
  | notEmpty => some 39
  | invalid => some 22
  | noSpace => some 28
  | tooManyLinks => some 40
  | malformedName => some 84
  | endInPath | endInArgument => none

def Errno.message (e : Errno) : String :=
  match e.number? with
  | some n => e.text ++ " (os error " ++ toString n ++ ")"
  | none => e.text

inductive Cause where
  | system (e : Errno)
  /-- A disk file that should be text is not UTF-8. -/
  | notText
  /-- Only regular files can be copied. -/
  | notRegularFile
  | missingFile (p : Path)
  | directoryInPlace (p : Path)
  | fileInPlace (p : Path)
  | missingParent (p : Path)
  | notListable (p : Path)
  | malformedText (f : Text.Utf8.Fault)
  | badPattern (source : String) (f : Glob.Fault)
  | toolUnavailable (boardName : String)
  | sinkClosed
  | flushRefused

/-- What was being done. -/
inductive Step where
  | readingPattern (source : String)
  | readingFile (p : Path)
  | creatingDirectory (p : Path)
  | creatingFile (p : Path)
  | canonicalizing (p : Path)
  | copying (source dest : Path)
  | removingFile (p : Path)
  | readingDirectory (p : Path)
  | clearingArtifact (label : String)
  | creatingOutput (p : Path)
  | copyingArtifact (label : String)
  | spawning (invocation : String)
  | writingToolOutput
  | flushingToolOutput

structure Failure where
  steps : List Step
  cause : Cause

namespace Cause

def message : Cause → String
  | system e => e.message
  | notText => "stream did not contain valid UTF-8"
  | notRegularFile =>
    "the source path is neither a regular file nor a symlink to a regular file"
  | missingFile p => "File not found: " ++ p.quoted
  | directoryInPlace p => "Is a directory: " ++ p.quoted
  | fileInPlace p => "Is a file: " ++ p.quoted
  | missingParent p => "Parent directory missing: " ++ p.quoted
  | notListable p => "Not a directory or not found: " ++ p.quoted
  | malformedText f => "Invalid UTF-8: " ++ f.message
  | badPattern source f => "error parsing glob '" ++ source ++ "': " ++ f.message
  | toolUnavailable name => "spawning fake tool for " ++ name
  | sinkClosed => "sink closed"
  | flushRefused => "flush refused"

end Cause

def Step.message : Step → String
  | readingPattern source => "invalid glob pattern: " ++ source
  | readingFile p => "reading file " ++ p.quoted
  | creatingDirectory p => "creating dir " ++ p.quoted
  | creatingFile p => "creating file " ++ p.quoted
  | canonicalizing p => "canonicalizing " ++ p.quoted
  | copying source dest => "copying " ++ source.quoted ++ " to " ++ dest.quoted
  | removingFile p => "removing file " ++ p.quoted
  | readingDirectory p => "reading dir " ++ p.quoted
  | clearingArtifact label => "clearing previous " ++ label ++ " artifact"
  | creatingOutput p => "creating output directory " ++ p.text
  | copyingArtifact label => "copying " ++ label ++ " artifact"
  | spawning invocation => "spawning `" ++ invocation ++ "`"
  | writingToolOutput => "writing build tool output"
  | flushingToolOutput => "flushing build tool output"

namespace Failure

def ofCause (c : Cause) : Failure := ⟨[], c⟩

/-- The same failure, seen from the step around it. -/
def during (s : Step) (f : Failure) : Failure := { f with steps := s :: f.steps }

/-- The outermost step, or the cause when there is none. -/
def headline (f : Failure) : String :=
  match f.steps with
  | [] => f.cause.message
  | s :: _ => s.message

/-- All steps and the cause. -/
def chain (f : Failure) : String :=
  String.intercalate ": " (f.steps.map Step.message ++ [f.cause.message])

end Failure

end FirmwareMatrix
