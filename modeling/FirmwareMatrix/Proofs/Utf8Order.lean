import Mathlib.Data.Char
import FirmwareMatrix.Text.Utf8

/-! # The order of encoded texts

Encoded texts are ordered byte by byte just as the texts are ordered character by character: of two
characters the greater has the longer form or, among forms of one length, the first byte in which
the forms differ is greater. -/

namespace FirmwareMatrix.Text.Utf8

theorem byte_cons_lt {n m : Nat} (hn : n < 256) (hm : m < 256) {xs ys : List UInt8} :
    UInt8.ofNat n :: xs < UInt8.ofNat m :: ys ↔ n < m ∨ n = m ∧ xs < ys := by
  rw [List.cons_lt_cons_iff, UInt8.lt_iff_toNat_lt, ← UInt8.toNat_inj, UInt8.toNat_ofNat',
    UInt8.toNat_ofNat', Nat.mod_eq_of_lt hn, Nat.mod_eq_of_lt hm]

/-- The four forms of a character, by its number. -/
inductive Form (v : Nat) : List UInt8 → Prop
  | one (h : v ≤ 0x7f) : Form v [.ofNat v]
  | two (h : 0x7f < v) (h' : v ≤ 0x7ff) :
    Form v [.ofNat (v / 64 % 0x20 + 0xc0), .ofNat (v % 0x40 + 0x80)]
  | three (h : 0x7ff < v) (h' : v ≤ 0xffff) :
    Form v [.ofNat (v / 4096 % 0x10 + 0xe0), .ofNat (v / 64 % 0x40 + 0x80),
      .ofNat (v % 0x40 + 0x80)]
  | four (h : 0xffff < v) (h' : v < 0x110000) :
    Form v [.ofNat (v / 262144 + 0xf0), .ofNat (v / 4096 % 0x40 + 0x80),
      .ofNat (v / 64 % 0x40 + 0x80), .ofNat (v % 0x40 + 0x80)]

theorem form_encodeChar (c : Char) : Form c.val.toNat (String.utf8EncodeChar c) := by
  have hlt : c.val.toNat < 0x110000 := by
    have hvalid := c.valid
    simp only [UInt32.isValidChar, Nat.isValidChar] at hvalid
    omega
  simp only [String.utf8EncodeChar]
  split
  · next h1 => exact .one h1
  next h1 =>
  split
  · next h2 => exact .two (by omega) h2
  next h2 =>
  split
  · next h3 => exact .three (by omega) h3
  · next h3 =>
    have htop : c.val.toNat / 262144 % 0x08 = c.val.toNat / 262144 := by omega
    rw [htop]
    exact .four (by omega) hlt

/-- The greater character comes later, whatever follows. -/
theorem encodeChar_append_lt {c d : Char} (h : c < d) (xs ys : List UInt8) :
    String.utf8EncodeChar c ++ xs < String.utf8EncodeChar d ++ ys := by
  have hlt : c.val.toNat < d.val.toNat := UInt32.lt_iff_toNat_lt.mp h
  have hc := form_encodeChar c
  have hd := form_encodeChar d
  generalize c.val.toNat = v at hlt hc
  generalize d.val.toNat = w at hlt hd
  generalize String.utf8EncodeChar c = bs at hc ⊢
  generalize String.utf8EncodeChar d = bs' at hd ⊢
  -- Six bits at a time, from the last byte on.
  have last : v / 64 < w / 64 ∨ v / 64 = w / 64 ∧ v % 64 < w % 64 := by omega
  have third : v / 64 < w / 64 →
      v / 4096 < w / 4096 ∨ v / 4096 = w / 4096 ∧ v / 64 % 64 < w / 64 % 64 := by omega
  have second : v / 4096 < w / 4096 →
      v / 262144 < w / 262144 ∨ v / 262144 = w / 262144 ∧ v / 4096 % 64 < w / 4096 % 64 := by omega
  cases hc <;> cases hd <;>
    simp (disch := omega) only [List.cons_append, List.nil_append, byte_cons_lt] <;> omega

theorem append_lt_append_iff (bs : List UInt8) {xs ys : List UInt8} :
    bs ++ xs < bs ++ ys ↔ xs < ys := by
  induction bs with
  | nil => rfl
  | cons b bs ih => simp [ih]

theorem encode_lt_encode_iff {cs ds : List Char} : encode cs < encode ds ↔ cs < ds := by
  induction cs generalizing ds with
  | nil =>
    cases ds with
    | nil => simp
    | cons d ds =>
      have hne : String.utf8EncodeChar d ≠ [] := by
        have hd := form_encodeChar d
        intro he
        rw [he] at hd
        generalize d.val.toNat = v at hd
        cases hd
      obtain ⟨b, bs, hb⟩ := List.exists_cons_of_ne_nil hne
      simp [encode, hb]
  | cons c cs ih =>
    cases ds with
    | nil => simp [encode]
    | cons d ds =>
      have split (c : Char) (cs : List Char) :
          encode (c :: cs) = String.utf8EncodeChar c ++ encode cs := List.flatMap_cons
      rw [split, split, List.cons_lt_cons_iff]
      rcases lt_trichotomy c d with h | rfl | h
      · exact iff_of_true (encodeChar_append_lt h _ _) (.inl h)
      · rw [append_lt_append_iff, ih]
        simp
      · have hgt := encodeChar_append_lt h (encode ds) (encode cs)
        refine iff_of_false (List.lt_asymm hgt) ?_
        rintro (h' | ⟨rfl, -⟩)
        · exact Char.lt_asymm h h'
        · exact Char.lt_irrefl _ h

end FirmwareMatrix.Text.Utf8
