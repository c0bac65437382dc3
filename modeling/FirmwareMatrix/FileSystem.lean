import FirmwareMatrix.Failure

/-! The file operations that discovery, the workspace and artifact handling are written over. A
file system is any behaviour of these operations on a state; an operation may change the state
whatever it answers. -/

namespace FirmwareMatrix

structure FileSystem (σ : Type) where
  readText : Path → StateM σ (Except Failure String)
  write : Path → List UInt8 → StateM σ (Except Failure Unit)
  isPresent : Path → StateM σ Bool
  isFile : Path → StateM σ Bool
  isDirectory : Path → StateM σ Bool
  canonicalize : Path → StateM σ (Except Failure Path)
  /-- Makes a directory and those above it that are missing. -/
  createDirectories : Path → StateM σ (Except Failure Unit)
  /-- Copies a file over whatever file the second path names. -/
  copy : Path → Path → StateM σ (Except Failure Unit)
  removeFile : Path → StateM σ (Except Failure Unit)
  /-- The paths of a directory's entries. -/
  readDirectory : Path → StateM σ (Except Failure (List Path))

/-- Worlds with a bound on the number of their directories. -/
class Extent (σ : Type) where
  extent : σ → Nat

end FirmwareMatrix
