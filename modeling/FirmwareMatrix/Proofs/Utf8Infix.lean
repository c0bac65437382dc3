import FirmwareMatrix.Proofs.Utf8Order

/-! # Texts within encoded texts

A character of one byte shares no byte with any other character. So where the bytes of a text hold
the bytes of a text of such characters, the text itself holds that text. -/

namespace FirmwareMatrix.Text.Utf8

variable {c d : Char} {cs as : List Char} {xs ys : List UInt8}

theorem encode_cons (c : Char) (cs : List Char) :
    encode (c :: cs) = String.utf8EncodeChar c ++ encode cs := List.flatMap_cons

theorem encode_append (cs ds : List Char) : encode (cs ++ ds) = encode cs ++ encode ds :=
  List.flatMap_append

theorem encodeChar_inj (h : String.utf8EncodeChar c = String.utf8EncodeChar d) : c = d := by
  rcases lt_trichotomy c d with hlt | heq | hgt
  · have hbytes := encodeChar_append_lt hlt [] []
    rw [h] at hbytes
    exact absurd hbytes (List.lt_irrefl _)
  · exact heq
  · have hbytes := encodeChar_append_lt hgt [] []
    rw [h] at hbytes
    exact absurd hbytes (List.lt_irrefl _)

theorem encodeChar_of_ascii (h : c.val.toNat ≤ 0x7f) :
    String.utf8EncodeChar c = [.ofNat c.val.toNat] := by
  have hform := form_encodeChar c
  generalize String.utf8EncodeChar c = bs at hform ⊢
  cases hform with
  | one _ => rfl
  | two hv _ | three hv _ | four hv _ => omega

/-- A byte of the lower half is a whole character. -/
theorem eq_of_mem_encodeChar (hd : d.val.toNat ≤ 0x7f)
    (h : UInt8.ofNat d.val.toNat ∈ String.utf8EncodeChar c) : c = d := by
  have hform := form_encodeChar c
  have hone : String.utf8EncodeChar c = [.ofNat d.val.toNat] := by
    generalize String.utf8EncodeChar c = bs at hform h
    generalize c.val.toNat = v at hform
    generalize d.val.toNat = w at hd h
    cases hform with
    | one hv => rw [List.mem_singleton.mp h]
    | two hv hv' | three hv hv' | four hv hv' =>
      simp only [List.mem_cons, List.not_mem_nil, or_false, ← UInt8.toNat_inj,
        UInt8.toNat_ofNat'] at h
      omega
  exact encodeChar_inj (hone.trans (encodeChar_of_ascii hd).symm)

/-- Where the bytes of a text hold a byte of the lower half, the text holds its character. -/
theorem exists_of_encode_eq (hd : d.val.toNat ≤ 0x7f)
    (h : encode cs = xs ++ String.utf8EncodeChar d ++ ys) :
    ∃ before after, cs = before ++ d :: after ∧ encode before = xs ∧ encode after = ys := by
  rw [encodeChar_of_ascii hd, List.append_assoc, List.singleton_append] at h
  induction cs generalizing xs with
  | nil => simp [encode] at h
  | cons c cs ih =>
    rw [encode_cons] at h
    rcases List.append_eq_append_iff.mp h with ⟨xs', rfl, hrest⟩ | ⟨zs, hc, hrest⟩
    · obtain ⟨before, after, rfl, rfl, rfl⟩ := ih hrest
      exact ⟨c :: before, after, rfl, encode_cons c before, rfl⟩
    · cases zs with
      | nil =>
        obtain ⟨before, after, rfl, hbefore, rfl⟩ := ih (show encode cs = [] ++ _ from hrest.symm)
        refine ⟨c :: before, after, rfl, ?_, rfl⟩
        rw [encode_cons, hbefore, hc, List.append_nil, List.append_nil]
      | cons z zs =>
        obtain ⟨rfl, rfl⟩ := List.cons.inj hrest
        -- the byte is one of `c`, so it is all of `c`
        have hmem : UInt8.ofNat d.val.toNat ∈ String.utf8EncodeChar c := by simp [hc]
        obtain rfl := eq_of_mem_encodeChar hd hmem
        have hlength := congrArg List.length hc
        simp only [encodeChar_of_ascii hd, List.length_append, List.length_cons,
          List.length_nil] at hlength
        obtain rfl : xs = [] := List.eq_nil_of_length_eq_zero (by omega)
        obtain rfl : zs = [] := List.eq_nil_of_length_eq_zero (by omega)
        exact ⟨[], cs, rfl, rfl, rfl⟩

theorem eq_nil_of_encode_eq_nil (h : encode cs = []) : cs = [] := by
  cases cs with
  | nil => rfl
  | cons c cs =>
    have hlength := String.length_utf8EncodeChar c
    have hpos := c.utf8Size_pos
    rw [encode_cons, List.append_eq_nil_iff] at h
    rw [h.1] at hlength
    simp at hlength
    omega

/-- A text whose bytes start like those of a text of one-byte characters starts with that text. -/
theorem exists_of_encode_eq_append (has : ∀ a ∈ as, a.val.toNat ≤ 0x7f)
    (h : encode cs = encode as ++ ys) : ∃ after, cs = as ++ after ∧ encode after = ys := by
  induction as generalizing cs with
  | nil => exact ⟨cs, rfl, h⟩
  | cons a as ih =>
    obtain ⟨ha, has⟩ := List.forall_mem_cons.mp has
    rw [encode_cons, List.append_assoc, ← List.nil_append (String.utf8EncodeChar a ++ _),
      ← List.append_assoc] at h
    obtain ⟨before, after, rfl, hbefore, hafter⟩ := exists_of_encode_eq ha h
    obtain rfl := eq_nil_of_encode_eq_nil hbefore
    obtain ⟨after, rfl, rfl⟩ := ih has hafter
    exact ⟨after, rfl, rfl⟩

/-- Where the bytes of a text hold those of a text of one-byte characters, it holds that text. -/
theorem exists_of_encode_eq_infix (hne : as ≠ [])
    (has : as.all (fun a => a.val.toNat ≤ 0x7f) = true)
    (h : encode cs = xs ++ (encode as ++ ys)) :
    ∃ before after, cs = before ++ (as ++ after) ∧ encode before = xs ∧ encode after = ys := by
  have hbytes : ∀ a ∈ as, a.val.toNat ≤ 0x7f := by simpa using has
  obtain ⟨a, as, rfl⟩ := List.exists_cons_of_ne_nil hne
  obtain ⟨ha, has⟩ := List.forall_mem_cons.mp hbytes
  rw [encode_cons, List.append_assoc, ← List.append_assoc] at h
  obtain ⟨before, rest, rfl, rfl, hrest⟩ := exists_of_encode_eq ha h
  obtain ⟨after, rfl, rfl⟩ := exists_of_encode_eq_append has hrest
  exact ⟨before, after, rfl, rfl, rfl⟩

end FirmwareMatrix.Text.Utf8
