import FirmwareMatrix.Proofs.HeaderGrammar

/-! # The first define of a symbol

A symbol has the value of the define that starts first in the text. What stands before it, be it
other text or a define that is cut short, is passed over. A define ends at its second quote, so no
text that follows can complete one that would start earlier; and none starts before the first
number sign. -/

namespace FirmwareMatrix.Declarations

variable {symbol value other cs : List Char} {p q : Nat}

/-- At position `p` of `cs` starts the first define of `symbol`, and it defines `value`. -/
structure FirstDefine (symbol value cs : List Char) (p : Nat) : Prop where
  defines : Defines symbol value (cs.drop p)
  first : ∀ q < p, ∀ other, ¬ Defines symbol other (cs.drop q)

/-! ## Where a define starts -/

theorem not_defines_nil : ¬ Defines symbol value [] := by
  rintro ⟨gap, gap', rest, -, -, -, h⟩
  exact absurd (List.append_eq_nil_iff.mp h.symm).1 (by decide)

theorem Defines.head {c : Char} (h : Defines symbol value (c :: cs)) : c = '#' := by
  obtain ⟨gap, gap', rest, -, -, -, hcs⟩ := h
  exact (List.cons.inj hcs).1

theorem Defines.isRun (h : Defines symbol value cs) : IsRun value := by
  obtain ⟨gap, gap', rest, -, -, hvalue, -⟩ := h
  exact hvalue

theorem Defines.unique (hsymbol : IsSymbol symbol) (h : Defines symbol value cs)
    (h' : Defines symbol other cs) : value = other := by
  have hvalue := (valueHere?_eq_some hsymbol).mpr h
  rw [(valueHere?_eq_some hsymbol).mpr h'] at hvalue
  exact (Option.some.inj hvalue).symm

theorem valueHere?_eq_none (hsymbol : IsSymbol symbol) :
    valueHere? symbol cs = none ↔ ∀ value, ¬ Defines symbol value cs := by
  rw [Option.eq_none_iff_forall_ne_some]
  exact forall_congr' fun value => not_congr (valueHere?_eq_some hsymbol)

/-- There is one first define at most. -/
theorem FirstDefine.unique (hsymbol : IsSymbol symbol) (h : FirstDefine symbol value cs p)
    (h' : FirstDefine symbol other cs q) : p = q ∧ value = other := by
  have hpq : p = q := by
    rcases Nat.lt_trichotomy p q with hlt | heq | hgt
    · exact absurd h.defines (h'.first p hlt value)
    · exact heq
    · exact absurd h'.defines (h.first q hgt other)
  subst hpq
  exact ⟨rfl, h.defines.unique hsymbol h'.defines⟩

theorem firstDefine_zero : FirstDefine symbol value cs 0 ↔ Defines symbol value cs :=
  ⟨fun h => h.defines, fun h => ⟨h, by simp⟩⟩

theorem firstDefine_succ {c : Char} :
    FirstDefine symbol value (c :: cs) (p + 1) ↔
      (∀ other, ¬ Defines symbol other (c :: cs)) ∧ FirstDefine symbol value cs p := by
  constructor
  · intro h
    refine ⟨h.first 0 (by omega), h.defines, fun q hq => ?_⟩
    exact h.first (q + 1) (by omega)
  · rintro ⟨hhere, h⟩
    refine ⟨h.defines, fun q hq => ?_⟩
    cases q with
    | zero => exact hhere
    | succ q => exact h.first q (by omega)

/-- The search stops at the first define. -/
theorem firstValue?_eq_some (hsymbol : IsSymbol symbol) :
    firstValue? symbol cs = some value ↔ ∃ p, FirstDefine symbol value cs p := by
  induction cs with
  | nil =>
    refine iff_of_false nofun ?_
    rintro ⟨p, h⟩
    exact not_defines_nil (by simpa using h.defines)
  | cons c cs ih =>
    cases hvalue : valueHere? symbol (c :: cs) with
    | some found =>
      have hfound := (valueHere?_eq_some hsymbol).mp hvalue
      rw [firstValue?_of_defines hsymbol hfound]
      constructor
      · rintro ⟨⟩
        exact ⟨0, firstDefine_zero.mpr hfound⟩
      · rintro ⟨p, h⟩
        exact congrArg some ((firstDefine_zero.mpr hfound).unique hsymbol h).2
    | none =>
      have hnone := (valueHere?_eq_none hsymbol).mp hvalue
      rw [firstValue?_cons_of_none hvalue, ih]
      constructor
      · rintro ⟨p, h⟩
        exact ⟨p + 1, firstDefine_succ.mpr ⟨hnone, h⟩⟩
      · rintro ⟨p, h⟩
        cases p with
        | zero => exact absurd (firstDefine_zero.mp h) (hnone value)
        | succ p => exact ⟨p, (firstDefine_succ.mp h).2⟩

theorem firstValue?_eq_none (hsymbol : IsSymbol symbol) :
    firstValue? symbol cs = none ↔ ∀ p value, ¬ Defines symbol value (cs.drop p) := by
  induction cs with
  | nil =>
    refine iff_of_true rfl fun p value h => ?_
    exact not_defines_nil (by simpa using h)
  | cons c cs ih =>
    constructor
    · intro h p
      cases hvalue : valueHere? symbol (c :: cs) with
      | some found =>
        rw [firstValue?_of_defines hsymbol ((valueHere?_eq_some hsymbol).mp hvalue)] at h
        cases h
      | none =>
        rw [firstValue?_cons_of_none hvalue] at h
        cases p with
        | zero => exact (valueHere?_eq_none hsymbol).mp hvalue
        | succ p => exact ih.mp h p
    · intro h
      rw [firstValue?_cons_of_none ((valueHere?_eq_none hsymbol).mpr (h 0)), ih]
      exact fun p => h (p + 1)

/-! ## Reading a text -/

theorem value?_eq_some_iff_first (hsymbol : IsSymbol symbol) {text : String} :
    value? symbol cs = some text ↔ text ≠ "" ∧ ∃ p, FirstDefine symbol text.toList cs p := by
  rw [value?_eq_some, firstValue?_eq_some hsymbol]

theorem value?_eq_none_iff_first (hsymbol : IsSymbol symbol) :
    value? symbol cs = none ↔
      (∀ p value, ¬ Defines symbol value (cs.drop p)) ∨ ∃ p, FirstDefine symbol [] cs p := by
  rw [value?_eq_none, firstValue?_eq_none hsymbol, firstValue?_eq_some hsymbol]

/-- A text declares the runs of the first defines of both symbols. Both have to be there and not
be empty, whatever is defined further on. -/
theorem read_first_defines (text : String) :
    (∀ d, read text = some d ↔
      (d.name ≠ "" ∧ ∃ p, FirstDefine nameSymbol d.name.toList text.toList p) ∧
        (d.target ≠ "" ∧ ∃ p, FirstDefine targetSymbol d.target.toList text.toList p)) ∧
    (read text = none ↔ ∃ symbol ∈ [nameSymbol, targetSymbol],
      (∀ p value, ¬ Defines symbol value (text.toList.drop p)) ∨
        ∃ p, FirstDefine symbol [] text.toList p) := by
  constructor
  · intro d
    rw [read_eq_some, value?_eq_some_iff_first isSymbol_name,
      value?_eq_some_iff_first isSymbol_target]
  · rw [read_eq_none, value?_eq_none_iff_first isSymbol_name,
      value?_eq_none_iff_first isSymbol_target]
    simp only [List.mem_cons, List.not_mem_nil, or_false, exists_eq_or_imp, exists_eq_left]

/-! ## Text before and after -/

theorem Defines.append (h : Defines symbol value cs) (more : List Char) :
    Defines symbol value (cs ++ more) := by
  obtain ⟨gap, gap', rest, hgap, hgap', hvalue, rfl⟩ := h
  exact ⟨gap, gap', rest ++ more, hgap, hgap', hvalue, by simp⟩

theorem Defines.two_le_count (h : Defines symbol value cs) : 2 ≤ cs.count '"' := by
  obtain ⟨gap, gap', rest, -, -, -, rfl⟩ := h
  simp only [List.count_append, List.count_cons_self]
  omega

/-- Up to its closing quote a define has one quote, so it lies in every part of the text that
starts with it and has two. -/
theorem Defines.of_append (hsymbol : IsSymbol symbol) {more : List Char}
    (h : Defines symbol value (cs ++ more)) (hquotes : 2 ≤ cs.count '"') :
    Defines symbol value cs := by
  obtain ⟨gap, gap', rest, hgap, hgap', hvalue, hcs⟩ := h
  have hopening := hsymbol.not_mem_opening hgap hgap'
  have hcut : cs ++ more =
      (directive ++ (gap ++ (symbol ++ gap')) ++ '"' :: value) ++ '"' :: rest := by
    simpa using hcs
  have hone : (directive ++ (gap ++ (symbol ++ gap')) ++ '"' :: value).count '"' = 1 := by
    rw [List.count_append, List.count_eq_zero.mpr hopening, List.count_cons_self,
      List.count_eq_zero.mpr hvalue.1]
  rcases List.append_eq_append_iff.mp hcut with ⟨missing, hmissing, -⟩ | ⟨found, hfound, hrest⟩
  · -- `cs` ends before the closing quote
    rw [hmissing, List.count_append] at hone
    omega
  · cases found with
    | nil =>
      rw [hfound, List.append_nil] at hquotes
      omega
    | cons c found =>
      obtain ⟨rfl, -⟩ := List.cons.inj hrest
      exact ⟨gap, gap', found, hgap, hgap', hvalue, by simp [hfound]⟩

/-- A first define stays the first, whatever follows the text. -/
theorem FirstDefine.append (hsymbol : IsSymbol symbol) (h : FirstDefine symbol value cs p)
    (more : List Char) : FirstDefine symbol value (cs ++ more) p := by
  have hlength : p < cs.length := by
    rw [← Nat.not_le]
    intro hle
    exact not_defines_nil (List.drop_eq_nil_of_le hle ▸ h.defines)
  have hdrop {q : Nat} (hq : q ≤ p) : (cs ++ more).drop q = cs.drop q ++ more :=
    List.drop_append_of_le_length (by omega)
  refine ⟨?_, fun q hq other hother => ?_⟩
  · rw [hdrop (Nat.le_refl p)]
    exact h.defines.append more
  · rw [hdrop (Nat.le_of_lt hq)] at hother
    -- the text from `q` on holds all of the define at `p`, with its two quotes
    have hpart : cs.drop p = (cs.drop q).drop (p - q) := by
      rw [List.drop_drop]
      congr 1
      omega
    have hquotes : 2 ≤ (cs.drop q).count '"' := by
      have hcount := h.defines.two_le_count
      rw [hpart] at hcount
      exact Nat.le_trans hcount ((List.drop_sublist (p - q) (cs.drop q)).count_le '"')
    exact h.first q hq other (hother.of_append hsymbol hquotes)

/-- Text without a number sign defines nothing, not even with what follows it. -/
theorem firstValue?_append_of_not_mem (hsymbol : IsSymbol symbol) {before : List Char}
    (hbefore : '#' ∉ before) (cs : List Char) :
    firstValue? symbol (before ++ cs) = firstValue? symbol cs := by
  induction before with
  | nil => rfl
  | cons c before ih =>
    obtain ⟨hc, hrest⟩ := not_or.mp (mt List.mem_cons.mpr hbefore)
    have hnone : valueHere? symbol (c :: (before ++ cs)) = none :=
      (valueHere?_eq_none hsymbol).mpr fun value h => hc h.head.symm
    rw [List.cons_append, firstValue?_cons_of_none hnone, ih hrest]

theorem value?_append (hsymbol : IsSymbol symbol) {text : String}
    (h : value? symbol cs = some text) (more : List Char) :
    value? symbol (cs ++ more) = some text := by
  obtain ⟨hne, p, hfirst⟩ := (value?_eq_some_iff_first hsymbol).mp h
  exact (value?_eq_some_iff_first hsymbol).mpr ⟨hne, p, hfirst.append hsymbol more⟩

theorem value?_append_of_not_mem (hsymbol : IsSymbol symbol) {before : List Char}
    (hbefore : '#' ∉ before) (cs : List Char) :
    value? symbol (before ++ cs) = value? symbol cs := by
  rw [value?, firstValue?_append_of_not_mem hsymbol hbefore]
  rfl

/-- What a text declares does not depend on what follows it, and text before it without a number
sign changes nothing, whether it declares something or not. -/
theorem read_ignores_around :
    (∀ text d, read text = some d → ∀ more, read (text ++ more) = some d) ∧
      ∀ before : String, '#' ∉ before.toList → ∀ text, read (before ++ text) = read text := by
  constructor
  · intro text d h more
    obtain ⟨hname, htarget⟩ := read_eq_some.mp h
    rw [read_eq_some, String.toList_append]
    exact ⟨value?_append isSymbol_name hname _, value?_append isSymbol_target htarget _⟩
  · intro before hbefore text
    simp only [read, String.toList_append, value?_append_of_not_mem isSymbol_name hbefore,
      value?_append_of_not_mem isSymbol_target hbefore]

/-- Both symbols have a value, and at each end a define is cut short. -/
def cutShort : String :=
  "#define HW_NAME #define HW_NAME \"A\"\n#define HW_TARGET \"esp32c3\"\n#define HW_TARGET "

theorem read_cutShort : read cutShort = some ⟨"A", "esp32c3"⟩ := by
  decide +kernel

/-- What follows completes the define at the end, and what stands before names a symbol. -/
theorem cutShort_ignores_around :
    read (cutShort ++ "\"esp32s3\"\n") = some ⟨"A", "esp32c3"⟩ ∧
      read ("// HW_NAME\n" ++ cutShort) = some ⟨"A", "esp32c3"⟩ := by
  have hbefore : '#' ∉ "// HW_NAME\n".toList := by decide
  have hfollowed := read_ignores_around.1 cutShort _ read_cutShort "\"esp32s3\"\n"
  have hpreceded := read_ignores_around.2 _ hbefore cutShort
  exact ⟨hfollowed, hpreceded.trans read_cutShort⟩

/-! ## Headers -/

/-- A header is read as what it was written for exactly if both values are there and can stand in
quotes on a line. -/
theorem read_header_iff (d : Declarations) :
    read (header d) = some d ↔
      (d.name ≠ "" ∧ '"' ∉ d.name.toList ∧ '\n' ∉ d.name.toList) ∧
        (d.target ≠ "" ∧ '"' ∉ d.target.toList ∧ '\n' ∉ d.target.toList) := by
  constructor
  · intro h
    obtain ⟨hname, htarget⟩ := read_eq_some.mp h
    obtain ⟨hname, p, hfirst⟩ := (value?_eq_some_iff_first isSymbol_name).mp hname
    obtain ⟨htarget, q, hfirst'⟩ := (value?_eq_some_iff_first isSymbol_target).mp htarget
    exact ⟨⟨hname, hfirst.defines.isRun⟩, ⟨htarget, hfirst'.defines.isRun⟩⟩
  · rintro ⟨⟨hname, hrun⟩, htarget, hrun'⟩
    exact read_header ⟨hname, htarget, hrun, hrun'⟩

end FirmwareMatrix.Declarations
