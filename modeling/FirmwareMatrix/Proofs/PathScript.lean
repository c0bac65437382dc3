import FirmwareMatrix.Path
import FirmwareMatrix.Proofs.Utf8Exact

/-! # Paths in letters and in bytes

A path that is a text is read letter by letter, any other byte by byte. Both readings take the same
steps, since the separator and the dot are single bytes that no other letter has: read byte by byte,
a text has the components, the steps and the children that it has when it is read letter by letter.
So what holds of paths byte by byte holds of all paths. -/

namespace FirmwareMatrix

/-! ## Pieces -/

namespace Text

variable {α : Type} [DecidableEq α] {sep : α} {xs ys piece : List α}

theorem splitAt_append_sep (sep : α) (xs ys : List α) :
    splitAt sep (xs ++ sep :: ys) = splitAt sep xs ++ splitAt sep ys := by
  induction xs with
  | nil => simp [splitAt]
  | cons x xs ih =>
    by_cases hx : x = sep
    · simp [splitAt, hx, ih]
    · simp only [List.cons_append, splitAt, hx, if_false, ih]
      cases hs : splitAt sep xs with
      | nil => exact absurd hs (splitAt_ne_nil sep xs)
      | cons s ss => rfl

theorem splitAt_of_not_mem (h : sep ∉ xs) : splitAt sep xs = [xs] := by
  induction xs with
  | nil => rfl
  | cons x xs ih =>
    obtain ⟨hx, hxs⟩ := not_or.mp (mt List.mem_cons.mpr h)
    simp [splitAt, Ne.symm hx, ih hxs]

theorem splitAt_append_of_not_mem (h : sep ∉ xs) {first : List α} {rest : List (List α)}
    (hys : splitAt sep ys = first :: rest) : splitAt sep (xs ++ ys) = (xs ++ first) :: rest := by
  induction xs with
  | nil => exact hys
  | cons x xs ih =>
    obtain ⟨hx, hxs⟩ := not_or.mp (mt List.mem_cons.mpr h)
    simp [splitAt, Ne.symm hx, ih hxs]

theorem not_mem_of_mem_splitAt (h : piece ∈ splitAt sep xs) : sep ∉ piece := by
  induction xs generalizing piece with
  | nil => simp_all [splitAt]
  | cons x xs ih =>
    simp only [splitAt] at h
    split at h
    · rcases List.mem_cons.mp h with rfl | h
      · simp
      · exact ih h
    · next hx =>
      cases hs : splitAt sep xs with
      | nil => exact absurd hs (splitAt_ne_nil sep xs)
      | cons s ss =>
        rw [hs] at h ih
        rcases List.mem_cons.mp h with rfl | h
        · simp [Ne.symm hx, ih List.mem_cons_self]
        · exact ih (List.mem_cons_of_mem _ h)

theorem splitAt_eq_nil_cons (h : splitAt sep xs = [[]]) : xs = [] := by
  cases xs with
  | nil => rfl
  | cons x xs =>
    simp only [splitAt] at h
    split at h
    · exact absurd (List.cons.inj h).2 (splitAt_ne_nil sep xs)
    · cases hs : splitAt sep xs with
      | nil => exact absurd hs (splitAt_ne_nil sep xs)
      | cons s ss => simp [hs] at h

end Text

namespace Text.Utf8

variable {c d : Char}

/-- A letter of one byte is in a text where its byte is in the bytes of the text. -/
theorem mem_encode_iff {cs : List Char} (hd : d.val.toNat ≤ 0x7f) :
    UInt8.ofNat d.val.toNat ∈ encode cs ↔ d ∈ cs := by
  rw [encode, List.mem_flatMap]
  constructor
  · rintro ⟨c, hc, hbyte⟩
    rwa [← eq_of_mem_encodeChar hd hbyte]
  · exact fun h => ⟨d, h, by simp [encodeChar_of_ascii hd]⟩

/-- Cutting a text and cutting its bytes gives the same pieces. -/
theorem splitAt_encode (hd : d.val.toNat ≤ 0x7f) (cs : List Char) :
    splitAt (UInt8.ofNat d.val.toNat) (encode cs) = (splitAt d cs).map encode := by
  induction cs with
  | nil => rfl
  | cons c cs ih =>
    rw [encode_cons]
    by_cases hc : c = d
    · rw [hc, encodeChar_of_ascii hd]
      simp only [List.singleton_append, splitAt, if_true, ih]
      rfl
    · obtain ⟨first, rest, hsplit⟩ := List.exists_cons_of_ne_nil (splitAt_ne_nil d cs)
      have hnone : UInt8.ofNat d.val.toNat ∉ String.utf8EncodeChar c :=
        fun h => hc (eq_of_mem_encodeChar hd h)
      rw [hsplit, List.map_cons] at ih
      rw [splitAt_append_of_not_mem hnone ih]
      simp [splitAt, hc, hsplit, encode_cons]

theorem head?_encode_iff {cs : List Char} (hd : d.val.toNat ≤ 0x7f) :
    (encode cs).head? = some (UInt8.ofNat d.val.toNat) ↔ cs.head? = some d := by
  rw [List.head?_eq_some_iff, List.head?_eq_some_iff]
  constructor
  · rintro ⟨bs, h⟩
    have hbytes : encode cs = [] ++ String.utf8EncodeChar d ++ bs := by
      rw [h, encodeChar_of_ascii hd]
      rfl
    obtain ⟨before, after, rfl, hbefore, -⟩ := exists_of_encode_eq hd hbytes
    exact ⟨after, by rw [eq_nil_of_encode_eq_nil hbefore, List.nil_append]⟩
  · rintro ⟨ds, rfl⟩
    exact ⟨encode ds, by rw [encode_cons, encodeChar_of_ascii hd, List.singleton_append]⟩

theorem getLast?_encode_iff {cs : List Char} (hd : d.val.toNat ≤ 0x7f) :
    (encode cs).getLast? = some (UInt8.ofNat d.val.toNat) ↔ cs.getLast? = some d := by
  rw [List.getLast?_eq_some_iff, List.getLast?_eq_some_iff]
  constructor
  · rintro ⟨bs, h⟩
    have hbytes : encode cs = bs ++ String.utf8EncodeChar d ++ [] := by
      rw [h, encodeChar_of_ascii hd, List.append_nil]
    obtain ⟨before, after, rfl, -, hafter⟩ := exists_of_encode_eq hd hbytes
    exact ⟨before, by rw [eq_nil_of_encode_eq_nil hafter]⟩
  · rintro ⟨ds, rfl⟩
    exact ⟨encode ds, by rw [encode_append, encode_cons, encodeChar_of_ascii hd]; rfl⟩

end Text.Utf8

/-! ## Bytes of native texts -/

namespace NativeText

open Text

theorem ofBytes_encode (cs : List Char) : ofBytes (Utf8.encode cs) = text (String.ofList cs) := by
  have hdecode := Utf8.decode_encode cs
  unfold ofBytes
  split
  · next ds h => rw [Except.ok.inj (h.symm.trans hdecode)]
  · next f h => cases h.symm.trans hdecode

theorem bytes_ofBytes (bs : List UInt8) : (ofBytes bs).bytes = bs := by
  unfold ofBytes
  split
  · next cs h => rw [bytes, String.toList_ofList, Utf8.encode_of_decode h]
  · rfl

theorem ofBytes_bytes (t : NativeText) : ofBytes t.bytes = t := by
  cases t with
  | text s => rw [bytes, ofBytes_encode, String.ofList_toList]
  | stray b =>
    unfold ofBytes
    split
    · next cs h =>
      have hmalformed := b.malformed
      rw [show Utf8.decode b.bytes = .ok cs from h] at hmalformed
      cases hmalformed
    · rfl

theorem bytes_inj {t u : NativeText} (h : t.bytes = u.bytes) : t = u := by
  rw [← ofBytes_bytes t, h, ofBytes_bytes]

/-- A letter of one byte is shown only where its byte stands. -/
theorem mem_bytes_of_mem_lossy {t : NativeText} {d : Char} (hd : d.val.toNat ≤ 0x7f)
    (h : d ∈ t.lossy.toList) : UInt8.ofNat d.val.toNat ∈ t.bytes := by
  cases t with
  | text s => exact (Utf8.mem_encode_iff hd).mpr h
  | stray b =>
    rw [lossy, String.toList_ofList] at h
    have hne : d ≠ '\uFFFD' := by
      rintro rfl
      exact absurd hd (by decide)
    have hbyte := Utf8.subset_of_mem_decodeLossy h hne
    rw [Utf8.encodeChar_of_ascii hd] at hbyte
    exact hbyte List.mem_cons_self

/-- What is shown without a replacement character is what is there. -/
theorem bytes_eq_of_lossy {t : NativeText} {u : String} (h : t.lossy = u)
    (hu : '\uFFFD' ∉ u.toList) : t.bytes = Utf8.encode u.toList := by
  subst h
  cases t with
  | text s => rfl
  | stray b =>
    rw [lossy, String.toList_ofList] at hu
    exact absurd (Utf8.mem_decodeLossy_of_malformed b.malformed) hu

theorem intercalate_texts (sep : Char) (texts : List String) :
    intercalate sep (texts.map text) = String.intercalate sep.toString texts := by
  have htexts : (texts.map text).mapM text? = some texts := by
    induction texts with
    | nil => rfl
    | cons s texts ih => simp [text?, ih]
  rw [intercalate, htexts]

end NativeText

namespace Component

theorem ofBytes_encode (cs : List Char) :
    ofBytes (Text.Utf8.encode cs) = .name (String.ofList cs) := by
  rw [ofBytes, NativeText.ofBytes_encode]

theorem label_eq {c : Component} (h : c.isName = true) : c.label = c.native.bytes := by
  cases c with
  | name text | stray b => rfl
  | root | here | up => cases h

/-- Names are told apart by how they are written. -/
theorem native_inj {c d : Component} (hc : c.isName = true) (hd : d.isName = true)
    (h : c.native = d.native) : c = d := by
  cases c with
  | name text | stray b =>
    cases d with
    | name text' | stray b' => cases h <;> rfl
    | root | here | up => cases hd
  | root | here | up => cases hc

theorem native_ofBytes (bs : List UInt8) : (ofBytes bs).native = NativeText.ofBytes bs := by
  unfold ofBytes
  cases NativeText.ofBytes bs <;> rfl

end Component

/-! ## Scripts -/

namespace Path

namespace Script

variable {α : Type} [DecidableEq α] (s : Script α)

/-- What a path adds when it is put below another: a dot at its start does not count there. -/
def steps (xs : List α) : List Component := (Text.splitAt s.separator xs).filterMap s.inner

variable {s} {xs ys piece : List α} {c : Component}

@[simp] theorem inner_nil : s.inner [] = none := by simp [inner]

/-- After its first piece a path leads up or to a name. -/
theorem inner_eq_some (h : s.inner piece = some c) : c = .up ∨ c.isName = true := by
  unfold inner at h
  split at h
  · cases h
  split at h
  · exact .inl (Option.some.inj h).symm
  · exact .inr (Option.some.inj h ▸ s.named piece)

theorem first_of_ne_dot (h : piece ≠ [s.dot]) : s.first piece = s.inner piece := if_neg h

theorem components_append (hx : xs ≠ []) (ys : List α) :
    s.components (xs ++ s.separator :: ys) = s.components xs ++ s.steps ys := by
  have hne := Text.splitAt_ne_nil s.separator ys
  simp only [components, steps, Text.splitAt_append_sep]
  cases hs : Text.splitAt s.separator xs with
  | nil => exact absurd hs (Text.splitAt_ne_nil s.separator xs)
  | cons piece rest =>
    cases piece with
    | nil =>
      cases rest with
      | nil => exact absurd (Text.splitAt_eq_nil_cons hs) hx
      | cons u us =>
        show Component.root :: ((u :: us) ++ Text.splitAt s.separator ys).filterMap s.inner = _
        rw [List.filterMap_append, List.cons_append]
    | cons c cs => simp

/-- What is put below a path adds its steps. -/
theorem components_join (hx : xs ≠ []) (ys : List α) :
    s.components (s.join xs ys) = s.components xs ++ s.steps ys := by
  unfold join
  split
  · next hlast =>
    -- the path ends in the separator already
    obtain ⟨xs, x, rfl⟩ := (List.eq_nil_or_concat xs).resolve_left hx
    rw [List.concat_eq_append] at hlast ⊢
    obtain rfl : x = s.separator := by simpa using hlast
    rw [List.append_assoc, List.singleton_append]
    cases xs with
    | nil => simp [components, Text.splitAt, steps, Text.splitAt_ne_nil]
    | cons c cs =>
      rw [components_append (List.cons_ne_nil _ _), components_append (List.cons_ne_nil _ _)]
      simp [Text.splitAt, steps]
  · exact components_append hx ys

theorem components_of_isAbsolute (h : s.isAbsolute xs = true) :
    ∃ rest, s.components xs = .root :: rest := by
  cases xs with
  | nil => simp [isAbsolute] at h
  | cons x xs =>
    obtain rfl : x = s.separator := by simpa [isAbsolute] using h
    refine ⟨s.steps xs, ?_⟩
    simp only [components, Text.splitAt, if_true]
    split
    · next heq => cases heq
    · next heq => exact absurd (List.cons.inj heq).2 (Text.splitAt_ne_nil s.separator xs)
    · next heq => rw [← (List.cons.inj heq).2, steps]
    · next hne heq => exact absurd (List.cons.inj heq).1.symm hne

/-- A component is a separator at the start, a dot at the start or what a piece stands for. -/
theorem eq_of_mem_components (h : c ∈ s.components xs) :
    c = .root ∨ c = .here ∨ ∃ piece ∈ Text.splitAt s.separator xs, s.inner piece = some c := by
  unfold components at h
  split at h
  · cases h
  · cases h
  · next rest _ heq =>
    rcases List.mem_cons.mp h with rfl | h
    · exact .inl rfl
    · obtain ⟨piece, hpiece, hc⟩ := List.mem_filterMap.mp h
      exact .inr (.inr ⟨piece, heq ▸ List.mem_cons_of_mem _ hpiece, hc⟩)
  · next first rest _ _ heq =>
    rcases List.mem_append.mp h with h | h
    · by_cases hdot : first = [s.dot]
      · exact .inr (.inl (by simpa [Script.first, hdot] using h))
      · rw [first_of_ne_dot hdot, Option.mem_toList] at h
        exact .inr (.inr ⟨first, heq ▸ List.mem_cons_self, h⟩)
    · obtain ⟨piece, hpiece, hc⟩ := List.mem_filterMap.mp h
      exact .inr (.inr ⟨piece, heq ▸ List.mem_cons_of_mem _ hpiece, hc⟩)

theorem mem_components_of_mem_steps (h : c ∈ s.steps xs) : c ∈ s.components xs := by
  unfold steps at h
  unfold components
  split
  · next heq => simp [heq] at h
  · next heq => simp [heq] at h
  · next heq =>
    rw [heq] at h
    exact List.mem_cons_of_mem _ (by simpa using h)
  · next first rest _ _ heq =>
    rw [heq, List.filterMap_cons] at h
    split at h
    · exact List.mem_append_right _ h
    · next d hd =>
      rcases List.mem_cons.mp h with rfl | h
      · have hdot : first ≠ [s.dot] := by
          rintro rfl
          simp [inner] at hd
        simp [first_of_ne_dot hdot, hd]
      · exact List.mem_append_right _ h

end Script

/-! ## Letters and bytes -/

section Encoded

open Text.Utf8 (encode)

theorem inner_encode (piece : List Char) : octets.inner (encode piece) = letters.inner piece := by
  have hnil : encode piece = [] ↔ piece = [] := Text.Utf8.encode_inj piece []
  have hdot : encode piece = [octets.dot] ↔ piece = [letters.dot] :=
    Text.Utf8.encode_inj piece ['.']
  have hdots : encode piece = [octets.dot, octets.dot] ↔ piece = [letters.dot, letters.dot] :=
    Text.Utf8.encode_inj piece ['.', '.']
  simp only [Script.inner, hnil, hdot, hdots]
  rw [show octets.name (encode piece) = letters.name piece from Component.ofBytes_encode piece]

theorem first_encode (piece : List Char) : octets.first (encode piece) = letters.first piece := by
  have hdot : encode piece = [octets.dot] ↔ piece = [letters.dot] :=
    Text.Utf8.encode_inj piece ['.']
  simp only [Script.first, hdot, inner_encode]

theorem splitAt_separator (cs : List Char) :
    Text.splitAt octets.separator (encode cs) = (Text.splitAt letters.separator cs).map encode :=
  Text.Utf8.splitAt_encode (d := '/') (by decide) cs

theorem filterMap_inner_encode (pieces : List (List Char)) :
    (pieces.map encode).filterMap octets.inner = pieces.filterMap letters.inner := by
  rw [List.filterMap_map]
  exact congrArg (pieces.filterMap ·) (funext inner_encode)

theorem steps_encode (cs : List Char) : octets.steps (encode cs) = letters.steps cs := by
  rw [Script.steps, splitAt_separator, filterMap_inner_encode, Script.steps]

theorem components_encode (cs : List Char) :
    octets.components (encode cs) = letters.components cs := by
  unfold Script.components
  rw [splitAt_separator]
  cases Text.splitAt letters.separator cs with
  | nil => rfl
  | cons piece rest =>
    cases piece with
    | nil =>
      cases rest with
      | nil => rfl
      | cons piece rest => exact congrArg _ (filterMap_inner_encode (piece :: rest))
    | cons c piece =>
      have hne : encode (c :: piece) ≠ [] := fun h => by
        cases Text.Utf8.eq_nil_of_encode_eq_nil h
      obtain ⟨b, bs, hbytes⟩ := List.exists_cons_of_ne_nil hne
      have hfirst := first_encode (c :: piece)
      rw [hbytes] at hfirst
      rw [List.map_cons, hbytes]
      show (octets.first (b :: bs)).toList ++ (rest.map encode).filterMap octets.inner = _
      rw [hfirst, filterMap_inner_encode]

theorem isAbsolute_encode (cs : List Char) :
    octets.isAbsolute (encode cs) = letters.isAbsolute cs := by
  rw [Bool.eq_iff_iff, Script.isAbsolute, Script.isAbsolute, beq_iff_eq, beq_iff_eq]
  exact Text.Utf8.head?_encode_iff (d := '/') (by decide)

theorem all_getLast?_iff {α : Type} [DecidableEq α] {sep : α} {xs : List α} :
    xs.getLast?.all (· == sep) = true ↔ xs = [] ∨ xs.getLast? = some sep := by
  cases h : xs.getLast? with
  | none => simp [List.getLast?_eq_none_iff.mp h]
  | some x =>
    have hne : xs ≠ [] := by
      rintro rfl
      cases h
    simp [hne]

theorem join_encode (cs ds : List Char) :
    octets.join (encode cs) (encode ds) = encode (letters.join cs ds) := by
  have hlast : (encode cs).getLast?.all (· == octets.separator) =
      cs.getLast?.all (· == letters.separator) := by
    rw [Bool.eq_iff_iff, all_getLast?_iff, all_getLast?_iff]
    exact or_congr (Text.Utf8.encode_inj cs [])
      (Text.Utf8.getLast?_encode_iff (d := '/') (by decide))
  unfold Script.join
  rw [hlast]
  split
  · rw [Text.Utf8.encode_append]
  · rw [Text.Utf8.encode_append, Text.Utf8.encode_cons]
    rfl

end Encoded

/-! ## All paths -/

variable {p q : Path}

/-- What is read the same in letters and in bytes is read off the bytes of every path. -/
theorem read_eq {β : Type} {f : ∀ {α : Type} [DecidableEq α], Script α → List α → β}
    (h : ∀ cs, f octets (Text.Utf8.encode cs) = f letters cs) (p : Path) :
    p.read f = f octets p.bytes := by
  unfold read bytes
  cases p.native with
  | text s => exact (h s.toList).symm
  | stray b => rfl

theorem components_eq (p : Path) : p.components = octets.components p.bytes :=
  read_eq components_encode p

/-- What a path adds when it is put below another. -/
def steps (p : Path) : List Component := p.read Script.steps

theorem steps_eq (p : Path) : p.steps = octets.steps p.bytes := read_eq steps_encode p

theorem isAbsolute_eq (p : Path) : p.isAbsolute = octets.isAbsolute p.bytes :=
  read_eq isAbsolute_encode p

theorem isEmpty_eq (p : Path) : p.isEmpty = p.bytes.isEmpty := by
  refine read_eq (f := fun _ xs => xs.isEmpty) (fun cs => ?_) p
  rw [Bool.eq_iff_iff, List.isEmpty_iff, List.isEmpty_iff]
  exact Text.Utf8.encode_inj cs []

theorem isEmpty_iff : p.isEmpty = true ↔ p.bytes = [] := by
  rw [isEmpty_eq, List.isEmpty_iff]

theorem bytes_join (hq : q.isAbsolute = false) :
    (p.join q).bytes = octets.join p.bytes q.bytes := by
  obtain ⟨p⟩ := p
  obtain ⟨q⟩ := q
  unfold join
  rw [hq]
  cases p with
  | text s =>
    cases q with
    | text t =>
      show Text.Utf8.encode (String.ofList _).toList = octets.join (Text.Utf8.encode _) _
      rw [String.toList_ofList]
      exact (join_encode s.toList t.toList).symm
    | stray b => exact NativeText.bytes_ofBytes _
  | stray b => exact NativeText.bytes_ofBytes _

end Path

end FirmwareMatrix
