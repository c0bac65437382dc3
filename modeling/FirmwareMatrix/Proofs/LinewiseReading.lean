import FirmwareMatrix.Proofs.PathJoin
import FirmwareMatrix.ToolOutput

/-! # Bytes read line by line

A list is cut at a separator into the pieces that the separator ends and a tail. Bytes cut at line
feeds and read piece by piece give the characters of the whole cut at line feeds: a line feed ends
whatever sequence of bytes stands before it, and it is the only byte that is ever read as one,
since what completes a sequence of several bytes is a larger number. -/

namespace FirmwareMatrix

/-! ## Cuts -/

/-- A list is the pieces `ended`, each with a separator after it, and then `tail`. -/
inductive Cut {α : Type} (sep : α) : List α → List (List α) → List α → Prop where
  | rest {tail : List α} (plain : sep ∉ tail) : Cut sep tail [] tail
  | piece {s xs tail : List α} {ended : List (List α)} (plain : sep ∉ s)
      (rest : Cut sep xs ended tail) : Cut sep (s ++ sep :: xs) (s :: ended) tail

namespace Cut

variable {α : Type} {sep : α} {xs tail : List α} {ended : List (List α)}

theorem extend {x : α} (hx : sep ≠ x) (h : Cut sep xs ended tail) :
    ∃ ended tail, Cut sep (x :: xs) ended tail := by
  cases h with
  | rest plain => exact ⟨[], x :: xs, .rest (by simp [hx, plain])⟩
  | @piece s _ _ _ plain rest => exact ⟨_, _, .piece (s := x :: s) (by simp [hx, plain]) rest⟩

theorem exists_cut [DecidableEq α] (sep : α) (xs : List α) :
    ∃ ended tail, Cut sep xs ended tail := by
  induction xs with
  | nil => exact ⟨[], [], .rest (by simp)⟩
  | cons x xs ih =>
    obtain ⟨ended, tail, h⟩ := ih
    by_cases hx : sep = x
    · subst hx
      exact ⟨[] :: ended, tail, .piece (s := []) (by simp) h⟩
    · exact h.extend hx

theorem length_eq_count [DecidableEq α] (h : Cut sep xs ended tail) :
    ended.length = xs.count sep := by
  induction h with
  | rest plain =>
    rw [List.count_eq_zero.mpr plain]
    rfl
  | piece plain _ ih =>
    rw [List.count_append, List.count_eq_zero.mpr plain, List.count_cons_self, List.length_cons, ih]
    omega

/-- The tail is empty exactly if nothing stands after the last separator. -/
theorem tail_eq_nil (h : Cut sep xs ended tail) :
    tail = [] ↔ xs = [] ∨ xs.getLast? = some sep := by
  induction h with
  | rest plain =>
    constructor
    · exact Or.inl
    · rintro (hnil | hlast)
      · exact hnil
      · exact absurd (List.mem_of_getLast? hlast) plain
  | @piece s xs tail ended _ _ ih =>
    rw [ih]
    cases xs with
    | nil => simp
    | cons x xs => simp [List.getLast?_append, List.getLast?_cons]

theorem splitAt_eq {sep : Char} {cs tail : List Char} {ended : List (List Char)}
    (h : Cut sep cs ended tail) : Text.splitAt sep cs = ended ++ [tail] := by
  induction h with
  | rest plain => exact Text.splitAt_of_not_mem plain
  | piece plain _ ih =>
    rw [Text.splitAt_append_sep, Text.splitAt_of_not_mem plain, ih]
    rfl

end Cut

/-! ## Reading -/

namespace Text.Utf8

/-- Whatever completes the sequence, the character is none of the first eleven. -/
def State.Large : State → Prop
  | .idle => True
  | .within _ _ low _ bits => 10 < bits * 64 + (low.toNat - 0x80)

theorem ofNat_ne_newline {n : Nat} (h : n ≠ 10) : Char.ofNat n ≠ '\n' := by
  by_cases hvalid : n.isValidChar
  · have hchar : Char.ofNat n = Char.ofNatAux n hvalid := dif_pos hvalid
    intro he
    exact h (congrArg Char.toNat (hchar.symm.trans he))
  · have hchar : Char.ofNat n = '\x00' := dif_neg hvalid
    rw [hchar]
    decide

/-- A byte other than the line feed starts no line feed. -/
theorem start_large {b : UInt8} (hb : b ≠ 0x0a) :
    (start b).2.Large ∧ ∀ p ∈ (start b).1, p.lenient ≠ '\n' := by
  have hn : b.toNat ≠ 10 := fun h => hb (UInt8.toNat_inj.mp h)
  have hchar := ofNat_ne_newline hn
  have hfill : '\uFFFD' ≠ '\n' := by decide
  unfold start
  grind [State.Large, Piece.lenient]

theorem feed_large {s : State} (hs : s.Large) {b : UInt8} (hb : b ≠ 0x0a) :
    (feed s b).2.Large ∧ ∀ p ∈ (feed s b).1, p.lenient ≠ '\n' := by
  obtain ⟨hstate, hpieces⟩ := start_large hb
  cases s with
  | idle => exact ⟨hstate, hpieces⟩
  | within held need low high bits =>
    by_cases hrange : low ≤ b ∧ b ≤ high
    · have hlow : low.toNat ≤ b.toNat := UInt8.le_iff_toNat_le.mp hrange.1
      have hbits : 10 < bits * 64 + (b.toNat - 0x80) := by
        simp only [State.Large] at hs
        omega
      simp only [feed, if_pos hrange]
      split
      · refine ⟨trivial, ?_⟩
        intro p hp
        rw [List.mem_singleton.mp hp]
        exact ofNat_ne_newline (by omega)
      · refine ⟨?_, by simp⟩
        show 10 < (bits * 64 + (b.toNat - 0x80)) * 64 + _
        omega
    · simp only [feed, if_neg hrange]
      refine ⟨hstate, List.forall_mem_cons.mpr ⟨?_, hpieces⟩⟩
      show '\uFFFD' ≠ '\n'
      decide

/-- Nothing but a line feed is read as one. -/
theorem newline_not_mem_piecesFrom {s : State} (hs : s.Large) {bs : List UInt8}
    (h : 0x0a ∉ bs) : '\n' ∉ (piecesFrom s bs).map Piece.lenient := by
  induction bs generalizing s with
  | nil =>
    cases s with
    | idle => simp [piecesFrom, finish]
    | within held need low high bits =>
      show '\n' ∉ ['\uFFFD']
      decide
  | cons b bs ih =>
    obtain ⟨hb, hbs⟩ := not_or.mp (mt List.mem_cons.mpr h)
    obtain ⟨hstate, hpieces⟩ := feed_large hs (Ne.symm hb)
    rw [piecesFrom, List.map_append, List.mem_append, not_or]
    refine ⟨?_, ih hstate hbs⟩
    intro hmem
    obtain ⟨p, hp, heq⟩ := List.mem_map.mp hmem
    exact hpieces p hp heq

theorem newline_not_mem_decodeLossy {bs : List UInt8} (h : 0x0a ∉ bs) :
    '\n' ∉ decodeLossy bs :=
  newline_not_mem_piecesFrom (s := .idle) trivial h

/-- An unfinished sequence is read as something, whatever follows. -/
theorem piecesFrom_within_ne_nil (held need : Nat) (low high : UInt8) (bits : Nat)
    (bs : List UInt8) : piecesFrom (.within held need low high bits) bs ≠ [] := by
  induction bs generalizing held need low high bits with
  | nil => simp [piecesFrom, finish]
  | cons b bs ih =>
    rw [piecesFrom, feed]
    split
    · dsimp only
      split
      · simp
      · exact ih _ _ _ _ _
    · simp

theorem decodeLossy_eq_nil {bs : List UInt8} : decodeLossy bs = [] ↔ bs = [] := by
  constructor
  · intro h
    cases bs with
    | nil => rfl
    | cons b bs =>
      have hpieces : (start b).1 ++ piecesFrom (start b).2 bs = [] := List.map_eq_nil_iff.mp h
      obtain ⟨hstart, hrest⟩ := List.append_eq_nil_iff.mp hpieces
      cases hs : (start b).2 with
      | idle =>
        -- a byte after which nothing is unfinished was read as something
        have hsome : (start b).2 = .idle → (start b).1 ≠ [] := by
          unfold start
          grind
        exact absurd hstart (hsome hs)
      | within held need low high bits =>
        rw [hs] at hrest
        exact absurd hrest (piecesFrom_within_ne_nil held need low high bits bs)
  · rintro rfl
    rfl

end Text.Utf8

/-- The characters of the pieces are the pieces of the characters. -/
theorem Cut.decodeLossy {bs tail : List UInt8} {ended : List (List UInt8)}
    (h : Cut 0x0a bs ended tail) :
    Cut '\n' (Text.Utf8.decodeLossy bs) (ended.map Text.Utf8.decodeLossy)
      (Text.Utf8.decodeLossy tail) := by
  induction h with
  | rest plain => exact .rest (Text.Utf8.newline_not_mem_decodeLossy plain)
  | piece plain _ ih =>
    rw [Text.Utf8.decodeLossy_append_newline]
    exact .piece (Text.Utf8.newline_not_mem_decodeLossy plain) ih

end FirmwareMatrix
