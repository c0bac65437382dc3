import FirmwareMatrix.Path

/-! How boards end, and the summary of a run. -/

namespace FirmwareMatrix

inductive BoardResult where
  | succeeded
  /-- The set-up command failed or could not be run. -/
  | configureFailed (code : Int)
  /-- The build command failed or could not be run. -/
  | buildFailed (code : Int)
  /-- Outputs of an earlier build could not be removed. -/
  | clearFailed (reason : String)
  /-- The build reported success but left an output out. -/
  | missingArtifact (file : Path)
  | copyFailed (reason : String)
  deriving Repr, BEq

namespace BoardResult

def isSuccess : BoardResult → Bool
  | succeeded => true
  | _ => false

def text : BoardResult → String
  | succeeded => "succeeded"
  | configureFailed code => "configure step failed (exit code " ++ toString code ++ ")"
  | buildFailed code => "build failed (exit code " ++ toString code ++ ")"
  | clearFailed reason => "clearing previous artifacts failed: " ++ reason
  | missingArtifact file => "missing artifact " ++ file.text
  | copyFailed reason => "copying artifacts failed: " ++ reason

end BoardResult

/-- The result of one board, by the board's name. -/
structure Outcome where
  board : String
  result : BoardResult
  deriving Repr, BEq

def Outcome.isSuccess (o : Outcome) : Bool := o.result.isSuccess

inductive RunStatus where
  | succeeded
  | failed
  | interrupted
  deriving DecidableEq, Repr

def RunStatus.exitCode : RunStatus → Nat
  | succeeded => 0
  | failed | interrupted => 1

/-- The outcomes of a run in build order, and how many boards it was to build. -/
structure Summary where
  outcomes : List Outcome
  total : Nat
  outputDir : Path
  interrupted : Bool
  deriving Repr

namespace Summary

def succeeded (s : Summary) : Nat := s.outcomes.countP Outcome.isSuccess

def failedNames (s : Summary) : List String :=
  (s.outcomes.filter fun o => !o.isSuccess).map Outcome.board

def status (s : Summary) : RunStatus :=
  if s.interrupted then .interrupted
  else if s.outcomes.all Outcome.isSuccess then .succeeded
  else .failed

end Summary

end FirmwareMatrix
