import FirmwareMatrix.Declarations
import FirmwareMatrix.Proofs.CacheText

/-! # The grammar of declarations

A define is its directive, blanks, the symbol, blanks and a quoted run. None starts within a value
that stands in quotes and ends its line: the first quote after it is the closing one, and nothing
after that on the line is quoted. So a header reads as the declarations that it was written for,
whatever text they hold. -/

namespace FirmwareMatrix.Declarations

/-- What may stand between the words of a define. -/
def IsGap (gap : List Char) : Prop := gap ≠ [] ∧ ∀ c ∈ gap, Text.isBlank c = true

/-- A value that can stand in quotes. -/
def IsRun (run : List Char) : Prop := '"' ∉ run ∧ '\n' ∉ run

/-- A symbol starts with no blank and holds no quote. -/
structure IsSymbol (symbol : List Char) : Prop where
  head : ∃ c cs, symbol = c :: cs ∧ Text.isBlank c = false
  unquoted : '"' ∉ symbol

theorem isSymbol_name : IsSymbol nameSymbol :=
  ⟨⟨'H', "W_NAME".toList, rfl, rfl⟩, by decide⟩

theorem isSymbol_target : IsSymbol targetSymbol :=
  ⟨⟨'H', "W_TARGET".toList, rfl, rfl⟩, by decide⟩

/-- `cs` starts with a define of `symbol` as `value`. -/
def Defines (symbol value cs : List Char) : Prop :=
  ∃ gap gap' rest, IsGap gap ∧ IsGap gap' ∧ IsRun value ∧
    cs = directive ++ (gap ++ (symbol ++ (gap' ++ '"' :: (value ++ '"' :: rest))))

theorem after?_eq_some {word cs rest : List Char} :
    after? word cs = some rest ↔ cs = word ++ rest := by
  unfold after?
  constructor
  · intro h
    split at h
    · next hprefix =>
      obtain ⟨tail, rfl⟩ := List.isPrefixOf_iff_prefix.mp hprefix
      simpa using h
    · cases h
  · rintro rfl
    simp

theorem afterBlanks?_gap {gap : List Char} (hgap : IsGap gap) {c : Char}
    (hc : Text.isBlank c = false) (rest : List Char) :
    afterBlanks? (gap ++ c :: rest) = some (c :: rest) := by
  obtain ⟨hne, hblank⟩ := hgap
  cases gap with
  | nil => exact absurd rfl hne
  | cons b gap =>
    have hdrop : Text.trimLeft (gap ++ c :: rest) = c :: rest := by
      rw [Text.trimLeft, List.dropWhile_append_of_pos fun d hd =>
        hblank d (List.mem_cons_of_mem _ hd), List.dropWhile_cons_of_neg (by simp [hc])]
    simp [afterBlanks?, hblank b, hdrop]

theorem afterBlanks?_eq_some {cs rest : List Char} (h : afterBlanks? cs = some rest) :
    ∃ gap, IsGap gap ∧ cs = gap ++ rest := by
  cases cs with
  | nil => cases h
  | cons c cs =>
    simp only [afterBlanks?] at h
    split at h
    · next hc =>
      obtain rfl := Option.some.inj h
      refine ⟨c :: cs.takeWhile Text.isBlank, ⟨by simp, fun d hd => ?_⟩, ?_⟩
      · rcases List.mem_cons.mp hd with rfl | hd
        · exact hc
        · exact List.all_eq_true.mp List.all_takeWhile d hd
      · rw [Text.trimLeft, List.cons_append, List.takeWhile_append_dropWhile]
    · cases h

theorem quotedRun?_eq_some {cs run : List Char} :
    quotedRun? cs = some run ↔ IsRun run ∧ ∃ rest, cs = run ++ '"' :: rest := by
  induction cs generalizing run with
  | nil => simp [quotedRun?]
  | cons c cs ih =>
    unfold quotedRun?
    split
    · next hquote =>
      subst hquote
      constructor
      · rintro ⟨⟩
        exact ⟨by simp [IsRun], cs, rfl⟩
      · rintro ⟨⟨hno, -⟩, rest, hcs⟩
        cases run with
        | nil => rfl
        | cons d run =>
          obtain ⟨rfl, -⟩ := List.cons.inj hcs
          simp at hno
    · next hquote =>
      split
      · next hnewline =>
        subst hnewline
        refine iff_of_false nofun ?_
        rintro ⟨⟨-, hno⟩, rest, hcs⟩
        cases run with
        | nil => cases (List.cons.inj hcs).1
        | cons d run =>
          obtain ⟨rfl, -⟩ := List.cons.inj hcs
          simp at hno
      · next hnewline =>
        rw [Option.map_eq_some_iff]
        constructor
        · rintro ⟨run, hrun, rfl⟩
          obtain ⟨⟨hno, hno'⟩, rest, rfl⟩ := ih.mp hrun
          exact ⟨by simp [IsRun, hno, hno', Ne.symm hquote, Ne.symm hnewline], rest, rfl⟩
        · rintro ⟨⟨hno, hno'⟩, rest, hcs⟩
          cases run with
          | nil => exact absurd (List.cons.inj hcs).1 hquote
          | cons d run =>
            obtain ⟨rfl, rfl⟩ := List.cons.inj hcs
            simp only [List.mem_cons, not_or] at hno hno'
            exact ⟨run, ih.mpr ⟨⟨hno.2, hno'.2⟩, rest, rfl⟩, rfl⟩

theorem valueHere?_eq_some {symbol cs value : List Char} (hsymbol : IsSymbol symbol) :
    valueHere? symbol cs = some value ↔ Defines symbol value cs := by
  obtain ⟨s, word, rfl, hs⟩ := hsymbol.head
  simp only [valueHere?, Option.bind_eq_bind, Option.bind_eq_some_iff, after?_eq_some,
    quotedRun?_eq_some]
  constructor
  · rintro ⟨_, rfl, _, hcut, _, rfl, _, hcut', _, rfl, hrun, rest, rfl⟩
    obtain ⟨gap, hgap, rfl⟩ := afterBlanks?_eq_some hcut
    obtain ⟨gap', hgap', rfl⟩ := afterBlanks?_eq_some hcut'
    exact ⟨gap, gap', rest, hgap, hgap', hrun, rfl⟩
  · rintro ⟨gap, gap', rest, hgap, hgap', hrun, rfl⟩
    exact ⟨_, rfl, _, afterBlanks?_gap hgap hs _, _, rfl, _, afterBlanks?_gap hgap' (by decide) _, _,
      rfl, hrun, rest, rfl⟩

/-- Up to the quote that opens its value a define has none. -/
theorem IsSymbol.not_mem_opening {symbol gap gap' : List Char} (hsymbol : IsSymbol symbol)
    (hgap : IsGap gap) (hgap' : IsGap gap') : '"' ∉ directive ++ (gap ++ (symbol ++ gap')) := by
  have hblank : ¬ Text.isBlank '"' = true := by decide
  simp only [List.mem_append, not_or]
  exact ⟨by decide, fun h => hblank (hgap.2 _ h), hsymbol.unquoted, fun h => hblank (hgap'.2 _ h)⟩

/-- Before the value of a define stands no quote but the one that opens it. -/
theorem Defines.opening {symbol value cs : List Char} (h : Defines symbol value cs)
    (hsymbol : IsSymbol symbol) :
    ∃ opening rest, '"' ∉ opening ∧ cs = opening ++ '"' :: (value ++ '"' :: rest) := by
  obtain ⟨gap, gap', rest, hgap, hgap', -, rfl⟩ := h
  exact ⟨_, rest, hsymbol.not_mem_opening hgap hgap', by simp⟩

/-- No define has a value that its line does not close. -/
theorem not_defines_of_quoted {symbol value before rest : List Char} (hsymbol : IsSymbol symbol)
    (hbefore : '"' ∉ before) (hvalue : IsRun value) :
    ¬ Defines symbol value (before ++ '"' :: '
' :: rest) := by
  intro h
  obtain ⟨opening, rest', hopening, hcs⟩ := h.opening hsymbol
  have htail : '\n' :: rest = value ++ '"' :: rest' := by
    have hcut := congrArg (Text.cutAt '"') hcs
    rw [Text.cutAt_append hbefore, Text.cutAt_append hopening] at hcut
    exact (Prod.mk.inj (Option.some.inj hcut)).2
  cases value with
  | nil => cases (List.cons.inj htail).1
  | cons c value =>
    obtain ⟨rfl, -⟩ := List.cons.inj htail
    exact hvalue.2 List.mem_cons_self

/-! ## Headers -/

theorem firstValue?_cons_of_none {symbol cs : List Char} {c : Char}
    (h : valueHere? symbol (c :: cs) = none) :
    firstValue? symbol (c :: cs) = firstValue? symbol cs := by
  rw [firstValue?, h]

theorem firstValue?_of_defines {symbol cs value : List Char} (hsymbol : IsSymbol symbol)
    (h : Defines symbol value cs) : firstValue? symbol cs = some value := by
  have hvalue := (valueHere?_eq_some hsymbol).mpr h
  cases cs with
  | nil => cases hvalue
  | cons c cs => rw [firstValue?, hvalue]

/-- A value in quotes that ends its line is passed over, whatever it says. -/
theorem firstValue?_quoted {symbol value : List Char} (hsymbol : IsSymbol symbol)
    (hvalue : '"' ∉ value) (rest : List Char) :
    firstValue? symbol (value ++ '"' :: '\n' :: rest) = firstValue? symbol rest := by
  have none_of_quoted {before : List Char} (hbefore : '"' ∉ before) :
      valueHere? symbol (before ++ '"' :: '\n' :: rest) = none := by
    rw [Option.eq_none_iff_forall_ne_some]
    intro found hfound
    have hdefines := (valueHere?_eq_some hsymbol).mp hfound
    obtain ⟨-, -, -, -, -, hrun, -⟩ := hdefines
    exact not_defines_of_quoted hsymbol hbefore hrun ((valueHere?_eq_some hsymbol).mp hfound)
  induction value with
  | nil =>
    rw [List.nil_append, firstValue?_cons_of_none (none_of_quoted hvalue)]
    exact firstValue?_cons_of_none rfl
  | cons c value ih =>
    have hnone : valueHere? symbol (c :: (value ++ '"' :: '\n' :: rest)) = none :=
      none_of_quoted hvalue
    rw [List.cons_append, firstValue?_cons_of_none hnone]
    exact ih fun h => hvalue (List.mem_cons_of_mem _ h)

/-- Declarations that a header can hold: both there and fit to stand in quotes. -/
structure Legible (d : Declarations) : Prop where
  name_ne : d.name ≠ ""
  target_ne : d.target ≠ ""
  name : IsRun d.name.toList
  target : IsRun d.target.toList

/-- The lines of a header before its name. -/
def guardLines : List Char := "#ifndef HW_H_\n#define HW_H_\n\n".toList

/-- A define with single blanks, up to its value. -/
def opening (symbol : List Char) : List Char := directive ++ ' ' :: symbol ++ [' ', '"']

theorem toList_parts (start name middle target stop : String) :
    (start ++ name ++ middle ++ target ++ stop).toList =
      start.toList ++ (name.toList ++ (middle.toList ++ (target.toList ++ stop.toList))) := by
  simp

theorem toList_header (d : Declarations) :
    (header d).toList = guardLines ++ (opening nameSymbol ++ (d.name.toList ++ '"' :: '\n' ::
      (opening targetSymbol ++ (d.target.toList ++ '"' :: "\n\n#endif\n".toList)))) := by
  have hstart : "#ifndef HW_H_\n#define HW_H_\n\n#define HW_NAME \"".toList =
      guardLines ++ opening nameSymbol := by decide +kernel
  have hmiddle : "\"\n#define HW_TARGET \"".toList = '"' :: '\n' :: opening targetSymbol := by
    decide +kernel
  have hstop : "\"\n\n#endif\n".toList = '"' :: "\n\n#endif\n".toList := by decide +kernel
  refine (toList_parts _ _ _ _ _).trans ?_
  rw [hstart, hmiddle, hstop]
  simp only [List.append_assoc, List.cons_append]

theorem isGap_space : IsGap [' '] := by
  refine ⟨List.cons_ne_nil _ _, fun c hc => ?_⟩
  rw [List.mem_singleton.mp hc]
  rfl

theorem defines_opening {symbol value : List Char} (hvalue : IsRun value) (rest : List Char) :
    Defines symbol value (opening symbol ++ (value ++ '"' :: rest)) :=
  ⟨[' '], [' '], rest, isGap_space, isGap_space, hvalue, by simp [opening]⟩

theorem firstValue?_guardLines_name (rest : List Char) :
    firstValue? nameSymbol (guardLines ++ rest) = firstValue? nameSymbol rest := rfl

theorem firstValue?_guardLines_target (rest : List Char) :
    firstValue? targetSymbol (guardLines ++ rest) = firstValue? targetSymbol rest := rfl

theorem firstValue?_opening_name (rest : List Char) :
    firstValue? targetSymbol (opening nameSymbol ++ rest) = firstValue? targetSymbol rest := rfl

/-- A header is read as what it was written for. -/
theorem read_header {d : Declarations} (h : d.Legible) : read (header d) = some d := by
  have hname : firstValue? nameSymbol (header d).toList = some d.name.toList := by
    rw [toList_header, firstValue?_guardLines_name]
    exact firstValue?_of_defines isSymbol_name (defines_opening h.name _)
  have htarget : firstValue? targetSymbol (header d).toList = some d.target.toList := by
    rw [toList_header, firstValue?_guardLines_target, firstValue?_opening_name,
      firstValue?_quoted isSymbol_target h.name.1]
    exact firstValue?_of_defines isSymbol_target (defines_opening h.target _)
  exact read_eq_some.mpr
    ⟨value?_eq_some.mpr ⟨h.name_ne, hname⟩, value?_eq_some.mpr ⟨h.target_ne, htarget⟩⟩

end FirmwareMatrix.Declarations
