import FirmwareMatrix.Text.Utf8

/-! # Reading back what was written

The bytes of a character lead the reader through exactly as many states as there are bytes and
then to that character, so strict reading of encoded text gives the text. -/

namespace FirmwareMatrix.Text.Utf8

/-- A byte in range takes the sequence one step further. -/
theorem feed_within {held need bits n : Nat} {low high b : UInt8} (hb : b.toNat = n + 0x80)
    (hlow : low.toNat ≤ n + 0x80) (hhigh : n + 0x80 ≤ high.toNat) :
    feed (.within held need low high bits) b =
      if need = 1 then ([.scalar (Char.ofNat (bits * 64 + n))], .idle)
      else ([], .within (held + 1) (need - 1) 0x80 0xbf (bits * 64 + n)) := by
  have hrange : low ≤ b ∧ b ≤ high := by
    rw [UInt8.le_iff_toNat_le, UInt8.le_iff_toNat_le, hb]
    exact ⟨hlow, hhigh⟩
  simp only [feed, if_pos hrange, hb, Nat.add_sub_cancel]

/-- A byte of the form that all bytes but the first have. -/
theorem toNat_trailing (n : Nat) : (UInt8.ofNat (n % 0x40 + 0x80)).toNat = n % 0x40 + 0x80 := by
  rw [UInt8.toNat_ofNat']
  omega

theorem piecesFrom_trailing {held need bits : Nat} (n : Nat) (bs : List UInt8) :
    piecesFrom (.within held need 0x80 0xbf bits) (.ofNat (n % 0x40 + 0x80) :: bs) =
      if need = 1 then .scalar (Char.ofNat (bits * 64 + n % 0x40)) :: piecesFrom .idle bs
      else piecesFrom (.within (held + 1) (need - 1) 0x80 0xbf (bits * 64 + n % 0x40)) bs := by
  have hlow : (0x80 : UInt8).toNat ≤ n % 0x40 + 0x80 := Nat.le_add_left _ _
  have hhigh : n % 0x40 + 0x80 ≤ (0xbf : UInt8).toNat := by
    show n % 0x40 + 0x80 ≤ 0xbf
    omega
  rw [piecesFrom, feed_within (toNat_trailing n) hlow hhigh]
  split <;> rfl

/-! ## First bytes -/

theorem start_one {b : UInt8} {v : Nat} (hb : b.toNat = v) (hv : v ≤ 0x7f) :
    start b = ([.scalar (Char.ofNat v)], .idle) := by
  simp only [start, hb]
  rw [if_pos (by omega)]

theorem start_two {b : UInt8} {v : Nat} (hb : b.toNat = v / 64 + 0xc0) (hlow : 0x7f < v)
    (hhigh : v ≤ 0x7ff) : start b = ([], .within 1 1 0x80 0xbf (v / 64)) := by
  simp only [start, hb]
  rw [if_neg (by omega), if_pos (by omega), Nat.add_sub_cancel]

/-- The range of the second byte leaves out short forms and surrogates. -/
theorem start_three {b : UInt8} {v : Nat} (hb : b.toNat = v / 4096 + 0xe0) (hlow : 0x7ff < v)
    (hhigh : v ≤ 0xffff) (hvalid : v < 0xd800 ∨ 0xdfff < v) :
    ∃ low high : UInt8, start b = ([], .within 1 2 low high (v / 4096)) ∧
      low.toNat ≤ v / 64 % 0x40 + 0x80 ∧ v / 64 % 0x40 + 0x80 ≤ high.toNat := by
  simp only [start, hb]
  rw [if_neg (by omega), if_neg (by omega)]
  by_cases h0 : v / 4096 + 0xe0 = 0xe0
  · refine ⟨0xa0, 0xbf, ?_, ?_, ?_⟩
    · rw [if_pos h0, show v / 4096 = 0 by omega]
    · show 0xa0 ≤ _
      omega
    · show _ ≤ 0xbf
      omega
  · rw [if_neg h0]
    by_cases hd : v / 4096 + 0xe0 = 0xed
    · refine ⟨0x80, 0x9f, ?_, ?_, ?_⟩
      · rw [if_pos hd, show v / 4096 = 0xd by omega]
      · show 0x80 ≤ _
        omega
      · show _ ≤ 0x9f
        omega
    · refine ⟨0x80, 0xbf, ?_, ?_, ?_⟩
      · rw [if_neg hd, if_pos (by omega), Nat.add_sub_cancel]
      · show 0x80 ≤ _
        omega
      · show _ ≤ 0xbf
        omega

theorem start_four {b : UInt8} {v : Nat} (hb : b.toNat = v / 262144 + 0xf0) (hlow : 0xffff < v)
    (hhigh : v < 0x110000) :
    ∃ low high : UInt8, start b = ([], .within 1 3 low high (v / 262144)) ∧
      low.toNat ≤ v / 4096 % 0x40 + 0x80 ∧ v / 4096 % 0x40 + 0x80 ≤ high.toNat := by
  simp only [start, hb]
  rw [if_neg (by omega), if_neg (by omega), if_neg (by omega), if_neg (by omega),
    if_neg (by omega)]
  by_cases h0 : v / 262144 + 0xf0 = 0xf0
  · refine ⟨0x90, 0xbf, ?_, ?_, ?_⟩
    · rw [if_pos h0, show v / 262144 = 0 by omega]
    · show 0x90 ≤ _
      omega
    · show _ ≤ 0xbf
      omega
  · rw [if_neg h0]
    by_cases h4 : v / 262144 + 0xf0 = 0xf4
    · refine ⟨0x80, 0x8f, ?_, ?_, ?_⟩
      · rw [if_neg (by omega), if_pos h4, show v / 262144 = 4 by omega]
      · show 0x80 ≤ _
        omega
      · show _ ≤ 0x8f
        omega
    · refine ⟨0x80, 0xbf, ?_, ?_, ?_⟩
      · rw [if_pos (by omega), Nat.add_sub_cancel]
      · show 0x80 ≤ _
        omega
      · show _ ≤ 0xbf
        omega

/-! ## Characters and texts -/

theorem pieces_encodeChar (c : Char) (bs : List UInt8) :
    piecesFrom .idle (String.utf8EncodeChar c ++ bs) = .scalar c :: piecesFrom .idle bs := by
  have hvalid : c.toNat < 0xd800 ∨ 0xdfff < c.toNat ∧ c.toNat < 0x110000 := c.valid
  have hc : Char.ofNat c.toNat = c := Char.ofNat_toNat c
  simp only [String.utf8EncodeChar]
  change c.toNat < 0xd800 ∨ 0xdfff < c.toNat ∧ c.toNat < 0x110000 at hvalid
  generalize hv : c.val.toNat = v
  have hv : c.toNat = v := hv
  rw [hv] at hvalid hc
  by_cases h1 : v ≤ 0x7f
  · rw [if_pos h1]
    have hb : (UInt8.ofNat v).toNat = v := by rw [UInt8.toNat_ofNat']; omega
    rw [List.singleton_append, piecesFrom, feed, start_one hb h1, hc]
    rfl
  · rw [if_neg h1]
    by_cases h2 : v ≤ 0x7ff
    · rw [if_pos h2]
      have hb : (UInt8.ofNat (v / 64 % 0x20 + 0xc0)).toNat = v / 64 + 0xc0 := by
        rw [UInt8.toNat_ofNat']; omega
      simp only [List.cons_append, List.nil_append]
      rw [piecesFrom, feed, start_two hb (by omega) h2, piecesFrom_trailing, if_pos rfl,
        show v / 64 * 64 + v % 0x40 = v by omega, hc]
      rfl
    · rw [if_neg h2]
      by_cases h3 : v ≤ 0xffff
      · rw [if_pos h3]
        have hb : (UInt8.ofNat (v / 4096 % 0x10 + 0xe0)).toNat = v / 4096 + 0xe0 := by
          rw [UInt8.toNat_ofNat']; omega
        obtain ⟨low, high, hstart, hlow, hhigh⟩ := start_three hb (by omega) h3 (by omega)
        simp only [List.cons_append, List.nil_append]
        rw [piecesFrom, feed, hstart, piecesFrom, feed_within (toNat_trailing _) hlow hhigh,
          if_neg (by decide), piecesFrom_trailing, if_pos rfl,
          show (v / 4096 * 64 + v / 64 % 0x40) * 64 + v % 0x40 = v by omega, hc]
        rfl
      · rw [if_neg h3]
        have hb : (UInt8.ofNat (v / 262144 % 0x08 + 0xf0)).toNat = v / 262144 + 0xf0 := by
          rw [UInt8.toNat_ofNat']; omega
        obtain ⟨low, high, hstart, hlow, hhigh⟩ := start_four hb (by omega) (by omega)
        simp only [List.cons_append, List.nil_append]
        rw [piecesFrom, feed, hstart, piecesFrom, feed_within (toNat_trailing _) hlow hhigh,
          if_neg (by decide), piecesFrom_trailing, if_neg (by decide), piecesFrom_trailing,
          if_pos rfl, show ((v / 262144 * 64 + v / 4096 % 0x40) * 64 + v / 64 % 0x40) * 64 +
            v % 0x40 = v by omega, hc]
        rfl

theorem pieces_encode (cs : List Char) : pieces (encode cs) = cs.map .scalar := by
  induction cs with
  | nil => rfl
  | cons c cs ih =>
    rw [encode, List.flatMap_cons, pieces, pieces_encodeChar, List.map_cons]
    exact congrArg _ ih

theorem strict_scalars (position : Nat) (cs : List Char) :
    strict position (cs.map .scalar) = .ok cs := by
  induction cs generalizing position with
  | nil => rfl
  | cons c cs ih =>
    rw [List.map_cons, strict, ih]
    rfl

/-- Encoded text is read as it was. -/
theorem decode_encode (cs : List Char) : decode (encode cs) = .ok cs := by
  rw [decode, pieces_encode, strict_scalars]

end FirmwareMatrix.Text.Utf8
