import FirmwareMatrix.Simulation

/-! The program. The script on its standard input sets up the disk that it works on. -/

namespace FirmwareMatrix.Simulation

/-- The whole of the standard input. -/
partial def readAll (input : IO.FS.Stream) (sofar : String) : IO String := do
  let line ← input.getLine
  if line.isEmpty then return sofar else readAll input (sofar ++ line)

end FirmwareMatrix.Simulation

open FirmwareMatrix in
def main (args : List String) : IO UInt32 := do
  let setUp ← Simulation.readAll (← IO.getStdin) ""
  let (exit, state) := Simulation.call setUp args
  let output ← IO.getStdout
  output.write ⟨state.screen.written.toArray⟩
  output.flush
  if let some complaint := exit.complaint then IO.eprintln complaint
  return exit.code.toUInt32
