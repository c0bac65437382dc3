import FirmwareMatrix.Proofs.Utf8Infix
import FirmwareMatrix.Proofs.Utf8RoundTrip

/-! # Reading accounts for every byte

The pieces that bytes are read as lie one after the other in the bytes, and a character among them
lies there in its own form. So what strict reading accepts are exactly the bytes of a text, and what
lenient reading shows of other bytes has the characters that stand there and replacement characters
besides. The invariant of the machine: whatever completes an unfinished sequence makes it the form
of the character that is then read. -/

namespace FirmwareMatrix.Text.Utf8

/-- The pieces lie in the bytes one after the other, characters in their own form. -/
inductive Spells : List Piece → List UInt8 → Prop
  | done : Spells [] []
  | scalar (c : Char) {ps : List Piece} {bs : List UInt8} (rest : Spells ps bs) :
    Spells (.scalar c :: ps) (String.utf8EncodeChar c ++ bs)
  | malformed (width : Nat) (chunk : List UInt8) {ps : List Piece} {bs : List UInt8}
    (rest : Spells ps bs) : Spells (.malformed width :: ps) (chunk ++ bs)
  | truncated (width : Nat) (chunk : List UInt8) {ps : List Piece} {bs : List UInt8}
    (rest : Spells ps bs) : Spells (.truncated width :: ps) (chunk ++ bs)

variable {ps qs : List Piece} {as bs held : List UInt8} {c : Char} {cs : List Char}

theorem Spells.append (h : Spells ps as) (h' : Spells qs bs) : Spells (ps ++ qs) (as ++ bs) := by
  induction h with
  | done => exact h'
  | scalar c _ ih => exact List.append_assoc .. ▸ .scalar c ih
  | malformed width chunk _ ih => exact List.append_assoc .. ▸ .malformed width chunk ih
  | truncated width chunk _ ih => exact List.append_assoc .. ▸ .truncated width chunk ih

theorem spells_scalar (c : Char) : Spells [.scalar c] (String.utf8EncodeChar c) :=
  List.append_nil (String.utf8EncodeChar c) ▸ .scalar c .done

theorem spells_truncated (width : Nat) (chunk : List UInt8) : Spells [.truncated width] chunk := by
  have h := Spells.truncated width chunk .done
  rwa [List.append_nil] at h

/-! ## Unfinished sequences -/

/-- Bytes in range that complete `held` make it the form of the character that is read. -/
def Completes (held : List UInt8) : (need : Nat) → (low high : UInt8) → (bits : Nat) → Prop
  | 0, _, _, _ => True
  | 1, low, high, bits => ∀ b, low ≤ b → b ≤ high →
    String.utf8EncodeChar (Char.ofNat (bits * 64 + (b.toNat - 0x80))) = held ++ [b]
  | need + 2, low, high, bits => ∀ b, low ≤ b → b ≤ high →
    Completes (held ++ [b]) (need + 1) 0x80 0xbf (bits * 64 + (b.toNat - 0x80))

/-- The state holds these bytes. -/
def State.Holds (held : List UInt8) : State → Prop
  | .idle => held = []
  | .within _ need low high bits => Completes held need low high bits

/-- Some bytes are read, and the state holds those that follow. -/
def Reads (bs : List UInt8) (read : List Piece × State) : Prop :=
  ∃ done held, bs = done ++ held ∧ Spells read.1 done ∧ read.2.Holds held

/-! ## Forms that are completed -/

theorem form_ofNat {v : Nat} (hv : v.isValidChar) :
    Form v (String.utf8EncodeChar (Char.ofNat v)) := by
  have hnumber : (Char.ofNat v).val.toNat = v := by
    rw [Char.ofNat, dif_pos hv]
    rfl
  have hform := form_encodeChar (Char.ofNat v)
  rwa [hnumber] at hform

theorem byte_eq {n : Nat} {b : UInt8} (h : n = b.toNat) : UInt8.ofNat n = b := by
  rw [h, UInt8.ofNat_toNat]

theorem completes_two {a : UInt8} (hlow : 0xc2 ≤ a.toNat) (hhigh : a.toNat ≤ 0xdf) :
    Completes [a] 1 0x80 0xbf (a.toNat - 0xc0) := by
  intro b hb hb'
  rw [UInt8.le_iff_toNat_le] at hb hb'
  have hb : 0x80 ≤ b.toNat := hb
  have hb' : b.toNat ≤ 0xbf := hb'
  have hform := form_ofNat (v := (a.toNat - 0xc0) * 64 + (b.toNat - 0x80)) (.inl (by omega))
  generalize String.utf8EncodeChar _ = bytes at hform ⊢
  cases hform with
  | two h h' => rw [byte_eq (b := a) (by omega), byte_eq (b := b) (by omega)]; rfl
  | one h | three h h' | four h h' => omega

/-- The range of the second byte leaves out short forms and surrogates. -/
theorem completes_three {a low high : UInt8} {bits : Nat} (ha : a.toNat = bits + 0xe0)
    (hbits : bits < 0x10) (hlow : 0x80 ≤ low.toNat) (hhigh : high.toNat ≤ 0xbf)
    (hlong : 0x20 ≤ bits * 64 + (low.toNat - 0x80))
    (hvalid : bits * 64 + (high.toNat - 0x80) < 0x360 ∨ 0x380 ≤ bits * 64) :
    Completes [a] 2 low high bits := by
  intro b hb hb' c hc hc'
  rw [UInt8.le_iff_toNat_le] at hb hb' hc hc'
  have hc : 0x80 ≤ c.toNat := hc
  have hc' : c.toNat ≤ 0xbf := hc'
  have hform := form_ofNat
    (v := (bits * 64 + (b.toNat - 0x80)) * 64 + (c.toNat - 0x80)) (by unfold Nat.isValidChar; omega)
  generalize String.utf8EncodeChar _ = bytes at hform ⊢
  cases hform with
  | three h h' =>
    rw [byte_eq (b := a) (by omega), byte_eq (b := b) (by omega), byte_eq (b := c) (by omega)]
    rfl
  | one h | two h h' | four h h' => omega

theorem completes_four {a low high : UInt8} {bits : Nat} (ha : a.toNat = bits + 0xf0)
    (hlow : 0x80 ≤ low.toNat) (hhigh : high.toNat ≤ 0xbf)
    (hlong : 0x10 ≤ bits * 64 + (low.toNat - 0x80))
    (hvalid : bits * 64 + (high.toNat - 0x80) < 0x110) : Completes [a] 3 low high bits := by
  intro b hb hb' c hc hc' d hd hd'
  rw [UInt8.le_iff_toNat_le] at hb hb' hc hc' hd hd'
  have hc : 0x80 ≤ c.toNat := hc
  have hc' : c.toNat ≤ 0xbf := hc'
  have hd : 0x80 ≤ d.toNat := hd
  have hd' : d.toNat ≤ 0xbf := hd'
  have hform := form_ofNat (v := ((bits * 64 + (b.toNat - 0x80)) * 64 + (c.toNat - 0x80)) * 64 +
    (d.toNat - 0x80)) (by unfold Nat.isValidChar; omega)
  generalize String.utf8EncodeChar _ = bytes at hform ⊢
  cases hform with
  | four h h' =>
    rw [byte_eq (b := a) (by omega), byte_eq (b := b) (by omega), byte_eq (b := c) (by omega),
      byte_eq (b := d) (by omega)]
    rfl
  | one h | two h h' | three h h' => omega

/-! ## The machine -/

theorem reads_start (b : UInt8) : Reads [b] (start b) := by
  have holds {need bits : Nat} {low high : UInt8} (h : Completes [b] need low high bits) :
      Reads [b] ([], .within 1 need low high bits) := ⟨[], [b], rfl, .done, h⟩
  unfold start
  dsimp only
  split
  · next h =>
    have hform := form_ofNat (v := b.toNat) (.inl (by omega))
    have hbytes : String.utf8EncodeChar (Char.ofNat b.toNat) = [b] := by
      generalize String.utf8EncodeChar _ = bytes at hform ⊢
      cases hform with
      | one h => rw [byte_eq rfl]
      | two h h' | three h h' | four h h' => omega
    exact ⟨[b], [], rfl, hbytes ▸ spells_scalar _, rfl⟩
  split
  · next h => exact holds (completes_two h.1 h.2)
  split
  · next h => exact holds (completes_three h (by decide) (by decide) (by decide) (by decide)
      (by decide))
  split
  · next h => exact holds (completes_three h (by decide) (by decide) (by decide) (by decide)
      (by decide))
  split
  · next h0 hd h =>
    refine holds (completes_three (by omega) (by omega) (by decide) (by decide) ?_ ?_)
    · show 0x20 ≤ (b.toNat - 0xe0) * 64 + 0
      omega
    · show (b.toNat - 0xe0) * 64 + 0x3f < 0x360 ∨ _
      omega
  split
  · next h => exact holds (completes_four h (by decide) (by decide) (by decide) (by decide))
  split
  · next h =>
    refine holds (completes_four (by omega) (by decide) (by decide) ?_ ?_)
    · show 0x10 ≤ (b.toNat - 0xf0) * 64 + 0
      omega
    · show (b.toNat - 0xf0) * 64 + 0x3f < 0x110
      omega
  split
  · next h => exact holds (completes_four h (by decide) (by decide) (by decide) (by decide))
  · exact ⟨[b], [], rfl, .malformed 1 [b] .done, rfl⟩

theorem reads_feed {s : State} (h : s.Holds held) (b : UInt8) :
    Reads (held ++ [b]) (feed s b) := by
  cases s with
  | idle =>
    obtain rfl : held = [] := h
    exact reads_start b
  | within count need low high bits =>
    have h : Completes held need low high bits := h
    unfold feed
    dsimp only
    split
    · next hb =>
      match need, h with
      | 0, _ => exact ⟨[], held ++ [b], rfl, .done, trivial⟩
      | 1, h =>
        exact ⟨held ++ [b], [], (List.append_nil _).symm, h b hb.1 hb.2 ▸ spells_scalar _, rfl⟩
      | need + 2, h => exact ⟨[], held ++ [b], rfl, .done, h b hb.1 hb.2⟩
    · obtain ⟨done, held', hb, hspells, hholds⟩ := reads_start b
      exact ⟨held ++ done, held', by rw [hb, List.append_assoc], .malformed count held hspells,
        hholds⟩

theorem spells_finish {s : State} (h : s.Holds held) : Spells (finish s) held := by
  cases s with
  | idle =>
    obtain rfl : held = [] := h
    exact .done
  | within count need low high bits => exact spells_truncated count held

theorem spells_piecesFrom {s : State} (h : s.Holds held) (bs : List UInt8) :
    Spells (piecesFrom s bs) (held ++ bs) := by
  induction bs generalizing s held with
  | nil => simpa [piecesFrom] using spells_finish h
  | cons b bs ih =>
    obtain ⟨done, held', hb, hspells, hholds⟩ := reads_feed h b
    rw [piecesFrom, ← List.singleton_append, ← List.append_assoc, hb, List.append_assoc]
    exact hspells.append (ih hholds)

theorem spells_pieces (bs : List UInt8) : Spells (pieces bs) bs :=
  spells_piecesFrom (s := .idle) rfl bs

/-! ## What is read -/

theorem eq_map_of_strict {position : Nat} (h : strict position ps = .ok cs) :
    ps = cs.map .scalar := by
  induction ps generalizing position cs with
  | nil =>
    obtain rfl : [] = cs := Except.ok.inj h
    rfl
  | cons p ps ih =>
    cases p with
    | scalar c =>
      rw [strict] at h
      cases hrest : strict (position + c.utf8Size) ps with
      | error f => simp [hrest, Except.map] at h
      | ok ds =>
        rw [hrest] at h
        obtain rfl : c :: ds = cs := Except.ok.inj h
        rw [List.map_cons, ih hrest]
    | malformed width => cases h
    | truncated width => cases h

theorem Spells.eq_encode (h : Spells (cs.map .scalar) bs) : bs = encode cs := by
  generalize hps : cs.map Piece.scalar = ps at h
  induction h generalizing cs with
  | done =>
    rw [List.map_eq_nil_iff.mp hps]
    rfl
  | @scalar c ps bs rest ih =>
    obtain ⟨d, ds, rfl, hd, hds⟩ := List.map_eq_cons_iff.mp hps
    rw [Piece.scalar.inj hd, encode_cons, ih hds]
  | malformed | truncated =>
    obtain ⟨d, ds, rfl, hd, hds⟩ := List.map_eq_cons_iff.mp hps
    cases hd

/-- Strict reading accepts nothing but the bytes of the text that it gives. -/
theorem encode_of_decode (h : decode bs = .ok cs) : encode cs = bs := by
  have hspells := spells_pieces bs
  rw [eq_map_of_strict h] at hspells
  exact hspells.eq_encode.symm

theorem encode_inj (cs ds : List Char) : encode cs = encode ds ↔ cs = ds :=
  ⟨fun h => Except.ok.inj
    (((decode_encode cs).symm.trans (congrArg decode h)).trans (decode_encode ds)), congrArg encode⟩

theorem strict_isOk_of_scalars {position : Nat} (h : ∀ p ∈ ps, ∃ c, p = .scalar c) :
    (strict position ps).isOk = true := by
  induction ps generalizing position with
  | nil => rfl
  | cons p ps ih =>
    obtain ⟨⟨c, rfl⟩, htail⟩ := List.forall_mem_cons.mp h
    have hrest : (strict (position + c.utf8Size) ps).isOk = true := ih htail
    rw [strict]
    cases hs : strict (position + c.utf8Size) ps with
    | error f => simp [hs, Except.isOk, Except.toBool] at hrest
    | ok cs => rfl

/-- What is shown of bytes that are no text holds a replacement character. -/
theorem mem_decodeLossy_of_malformed (h : (decode bs).isOk = false) :
    '\uFFFD' ∈ decodeLossy bs := by
  by_contra hnone
  have hscalars : ∀ p ∈ pieces bs, ∃ c, p = .scalar c := by
    intro p hp
    cases p with
    | scalar c => exact ⟨c, rfl⟩
    | malformed width => exact absurd (List.mem_map.mpr ⟨_, hp, rfl⟩) hnone
    | truncated width => exact absurd (List.mem_map.mpr ⟨_, hp, rfl⟩) hnone
  have hok : (decode bs).isOk = true := strict_isOk_of_scalars hscalars
  rw [hok] at h
  cases h

/-- What is shown of bytes holds no character that is not in them. -/
theorem Spells.subset_of_scalar (h : Spells ps bs) (hc : .scalar c ∈ ps) :
    String.utf8EncodeChar c ⊆ bs := by
  induction h with
  | done => cases hc
  | scalar d rest ih =>
    rcases List.mem_cons.mp hc with heq | hc
    · rw [Piece.scalar.inj heq]
      exact List.subset_append_left _ _
    · exact List.subset_append_of_subset_right _ (ih hc)
  | malformed width chunk rest ih | truncated width chunk rest ih =>
    rcases List.mem_cons.mp hc with heq | hc
    · cases heq
    · exact List.subset_append_of_subset_right _ (ih hc)

theorem subset_of_mem_decodeLossy (hc : c ∈ decodeLossy bs) (hne : c ≠ '\uFFFD') :
    String.utf8EncodeChar c ⊆ bs := by
  obtain ⟨p, hp, hlenient⟩ := List.mem_map.mp hc
  cases p with
  | scalar d =>
    obtain rfl : d = c := hlenient
    exact (spells_pieces bs).subset_of_scalar hp
  | malformed width => exact absurd hlenient.symm hne
  | truncated width => exact absurd hlenient.symm hne

end FirmwareMatrix.Text.Utf8
