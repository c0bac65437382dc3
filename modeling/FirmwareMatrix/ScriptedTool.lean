import FirmwareMatrix.Artifact
import FirmwareMatrix.ToolOutput
import FirmwareMatrix.Tree

/-! A build tool that follows a script: for every command an exit code, and whether it cannot be
started or never ends. A set-up command that succeeds leaves a cache naming its board and target,
a build that succeeds writes every output but those it is told to leave out, and whatever else the
script changes in the tree is changed after the command. -/

namespace FirmwareMatrix

structure ScriptedTool where
  buildDir : Path
  marker : String
  artifacts : ArtifactSet
  exitCode : Command.Kind → String → Int
  unavailable : Command.Kind → String → Bool
  hangs : Command.Kind → String → Bool
  omits : String → Option Path
  afterwards : Command.Kind → String → Tree → Tree

namespace ScriptedTool

def textBytes (s : String) : List UInt8 := Text.Utf8.encode s.toList

/-- The cache text of a directory set up for a board. -/
def cacheText (name target : String) : String :=
  "HW_NAME:UNINITIALIZED=" ++ name ++ "\nIDF_TARGET:STRING=" ++ target ++ "\n"

/-- The bytes of an output. -/
def outputBytes (name : String) (a : Artifact) : List UInt8 := textBytes (name ++ ":" ++ a.label)

def setUp (tool : ScriptedTool) (name target : String) (t : Tree) : Except Failure Tree := do
  let t ← t.createDirectories tool.buildDir
  return t.addFile (tool.buildDir.child tool.marker).components
    (textBytes (cacheText name target))

def writeOutputs (tool : ScriptedTool) (name : String) (t : Tree) : Tree :=
  tool.artifacts.toList.foldl (fun t a =>
    if (tool.omits name).any (· == a.source) then t
    else t.addFile (tool.buildDir.join a.source).components (outputBytes name a)) t

/-- What a command that succeeds does. -/
def work (tool : ScriptedTool) (t : Tree) : Command → Except Failure Tree
  | .configureFresh name target | .retarget name target => tool.setUp name target t
  | .build name => .ok (tool.writeOutputs name t)

/-- How a command ends and the tree right after it. -/
def perform (tool : ScriptedTool) (c : Command) (t : Tree) : Ending × Tree :=
  if tool.unavailable c.kind c.boardName then
    (.failed (.ofCause (.toolUnavailable c.boardName)), t)
  else if tool.hangs c.kind c.boardName then (.pending, t)
  else
    let code := tool.exitCode c.kind c.boardName
    if code = 0 then
      match tool.work t c with
      | .ok t => (.exited 0, t)
      | .error f => (.failed f, t)
    else (.exited code, t)

def run (tool : ScriptedTool) (c : Command) : StateM Tree Ending := fun t =>
  match tool.perform c t with
  | (.pending, t) => (.pending, t)
  | (ending, t) => (ending, tool.afterwards c.kind c.boardName t)

/-- A scripted tool shows nothing. -/
def tool (tool : ScriptedTool) : Runner Tree where
  run c := fun (t, screen) =>
    let (ending, t) := tool.run c t
    (ending, t, screen)

end ScriptedTool

end FirmwareMatrix
