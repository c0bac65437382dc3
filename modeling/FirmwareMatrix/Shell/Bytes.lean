import FirmwareMatrix.Text.Utf8

/-! Text as a shell sees it. A shell works on bytes; each byte is held as the character with its
number, so that text of ASCII is what it is everywhere else. -/

namespace FirmwareMatrix.Shell.Bytes

def ofList (bs : List UInt8) : List Char := bs.map fun b => Char.ofNat b.toNat

def toList (cs : List Char) : List UInt8 := cs.map fun c => UInt8.ofNat c.toNat

/-- The bytes of a text. -/
def ofText (s : String) : String := String.ofList (ofList (Text.Utf8.encode s.toList))

/-- The text that bytes are read as; what is no text is replaced. -/
def toText (s : String) : String := String.ofList (Text.Utf8.decodeLossy (toList s.toList))

theorem toList_ofList (bs : List UInt8) : toList (ofList bs) = bs := by
  induction bs with
  | nil => rfl
  | cons b bs ih =>
    have hb : (Char.ofNat b.toNat).toNat = b.toNat := by
      have h := b.toNat_lt
      have hv : b.toNat.isValidChar := Or.inl (by omega)
      rw [Char.ofNat, dif_pos hv]
      rfl
    simp only [ofList, toList, List.map_cons, hb, UInt8.ofNat_toNat] at ih ⊢
    rw [ih]

end FirmwareMatrix.Shell.Bytes
