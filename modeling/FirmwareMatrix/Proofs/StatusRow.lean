import FirmwareMatrix.StatusLine

/-! # The row of the status bar

The row is told character by character: within the width it shows the glyph, a space and the text,
and blanks past their end. Its length, that wider rows only go on where it ends, and what the frame
matters for are read off that one equation. -/

namespace FirmwareMatrix.StatusLine

/-- The glyphs of the spinner, in the order in which they are shown. -/
def spinner : List Char := ['⠋', '⠙', '⠹', '⠸', '⠼', '⠴', '⠦', '⠧', '⠇', '⠏']

/-- The spinner goes round. -/
theorem getElem?_spinner (frame : Nat) :
    spinner[frame % spinner.length]? = some (glyph frame) := by
  have hround : ∀ n < 10, spinner[n]? = some (glyph n) := by decide
  have hlt : frame % 10 < 10 := Nat.mod_lt frame (by decide)
  have hglyph : glyph (frame % 10) = glyph frame := by
    unfold glyph
    rw [Nat.mod_mod]
  exact (hround _ hlt).trans (congrArg some hglyph)

theorem glyph_mod (frame : Nat) : glyph (frame % spinner.length) = glyph frame := by
  have h := getElem?_spinner (frame % spinner.length)
  rw [Nat.mod_mod, getElem?_spinner] at h
  exact (Option.some.inj h).symm

theorem flatten_glyph (frame : Nat) : flatten (glyph frame) = glyph frame := by
  have hplain : ∀ n < 10, flatten (glyph n) = glyph n := by decide
  rw [← glyph_mod]
  exact hplain _ (Nat.mod_lt frame (by decide))

/-- Of the glyph, the space and the text only the text can hold control characters. -/
theorem content_eq (text : String) (frame : Nat) :
    content text frame =
      glyph frame :: ' ' :: text.toList.map fun c => if Text.isControl c then ' ' else c := by
  have hspace : flatten ' ' = ' ' := by decide
  rw [content, List.map_cons, List.map_cons, flatten_glyph, hspace]
  rfl

theorem getElem?_compose (text : String) (frame width i : Nat) :
    (compose text frame width)[i]? =
      if i < width then some ((content text frame).getD i ' ') else none := by
  unfold compose
  by_cases hwidth : i < width
  · rw [if_pos hwidth, List.getD_eq_getElem?_getD]
    by_cases hshown : i < (content text frame).length
    · rw [List.getElem?_append_left (by rw [List.length_take]; omega),
        List.getElem?_take_of_lt hwidth, List.getElem?_eq_getElem hshown, Option.getD_some]
    · rw [List.getElem?_append_right (by rw [List.length_take]; omega), List.length_take,
        List.getElem?_replicate, if_pos (by omega),
        List.getElem?_eq_none (Nat.le_of_not_lt hshown), Option.getD_none]
  · rw [if_neg hwidth]
    apply List.getElem?_eq_none
    rw [← compose, length_compose]
    omega

/-- A wider row shows the same and goes on. -/
theorem compose_eq_take {width wider : Nat} (h : width ≤ wider) (text : String) (frame : Nat) :
    compose text frame width = (compose text frame wider).take width := by
  apply List.ext_getElem?
  intro i
  rw [List.getElem?_take, getElem?_compose, getElem?_compose]
  by_cases hi : i < width
  · have hwider : i < wider := by omega
    simp [hi, hwider]
  · simp [hi]

/-- The row is as wide as it should be and holds no control character, so no text leaves it or
sends a command. Its characters are the glyph, a space, the text with blanks for its control
characters, and blanks past the end; a wider row begins with it, and the frame only matters for
where the spinner stands. -/
theorem compose_row (text : String) (frame width : Nat) :
    (compose text frame width).length = width ∧
    (∀ c ∈ compose text frame width, Text.isControl c = false) ∧
    (∀ i < width, (compose text frame width)[i]? =
      some ((glyph frame :: ' ' ::
        text.toList.map fun c => if Text.isControl c then ' ' else c).getD i ' ')) ∧
    (∀ wider, width ≤ wider → compose text frame width <+: compose text frame wider) ∧
    spinner[frame % spinner.length]? = some (glyph frame) ∧
    ∀ later, later % spinner.length = frame % spinner.length →
      compose text later width = compose text frame width := by
  refine ⟨length_compose text frame width, ?_, ?_, ?_, getElem?_spinner frame, ?_⟩
  · intro c hc
    exact isControl_of_mem_compose hc
  · intro i hi
    rw [getElem?_compose, if_pos hi, content_eq]
  · intro wider hwider
    rw [compose_eq_take hwider]
    exact List.take_prefix width _
  · intro later hlater
    have hglyph : glyph later = glyph frame := by rw [← glyph_mod, hlater, glyph_mod]
    simp only [compose, content, hglyph]

example : compose "a\nb\u009bc" 13 8 = ['⠸', ' ', 'a', ' ', 'b', ' ', 'c', ' '] := by
  decide +kernel

end FirmwareMatrix.StatusLine
