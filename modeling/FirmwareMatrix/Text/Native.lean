import FirmwareMatrix.Text.Utf8

/-! Text as the system has it: bytes that need not be the bytes of a text. Names and paths are of
this kind. Those that are a text are shown as it is, in others the replacement character stands for
what is malformed. -/

namespace FirmwareMatrix

/-- Bytes that are no text. -/
structure Stray where
  bytes : List UInt8
  malformed : (Text.Utf8.decode bytes).isOk = false
  deriving DecidableEq, Repr

inductive NativeText where
  | text (s : String)
  | stray (b : Stray)
  deriving DecidableEq, Repr

instance : Coe String NativeText := ⟨.text⟩

instance : Coe (List String) (List NativeText) := ⟨List.map .text⟩

instance : Inhabited NativeText := ⟨.text ""⟩

namespace NativeText

def bytes : NativeText → List UInt8
  | text s => Text.Utf8.encode s.toList
  | stray b => b.bytes

def ofBytes (bs : List UInt8) : NativeText :=
  match h : Text.Utf8.decode bs with
  | .ok cs => text (String.ofList cs)
  | .error _ => stray ⟨bs, by rw [h]; rfl⟩

/-- The text that is shown. -/
def lossy : NativeText → String
  | text s => s
  | stray b => String.ofList (Text.Utf8.decodeLossy b.bytes)

def text? : NativeText → Option String
  | text s => some s
  | stray _ => none

/-- Parts with a separator between them. -/
def intercalate (sep : Char) (parts : List NativeText) : NativeText :=
  match parts.mapM text? with
  | some texts => String.intercalate sep.toString texts
  | none => ofBytes (List.intercalate (String.utf8EncodeChar sep) (parts.map bytes))

end NativeText

end FirmwareMatrix
