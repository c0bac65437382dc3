import FirmwareMatrix.Proofs.PathJoin
import FirmwareMatrix.Proofs.Utf8RoundTrip
import FirmwareMatrix.ScriptedTool
import FirmwareMatrix.Workspace

/-! # The target in a cache

One line of a cache names a target or does not, by its key alone. The text that a set-up leaves
has two lines, of which the second names the target it was for. -/

namespace FirmwareMatrix

namespace Text

theorem trimRight_append {c : Char} (hc : isBlank c = false) (cs value : List Char) :
    trimRight (cs ++ c :: value) = cs ++ c :: trimRight value := by
  simp only [trimRight, List.reverse_append, List.reverse_cons, List.append_assoc,
    List.singleton_append, List.dropWhile_append]
  split
  · next h => simp [List.isEmpty_iff.mp h, hc]
  · simp

theorem trimLeft_of_head {c : Char} (hc : isBlank c = false) (cs : List Char) :
    trimLeft (c :: cs) = c :: cs := by
  simp [trimLeft, hc]

theorem trimRight_of_last {cs : List Char} (h : ∀ c ∈ cs.getLast?, isBlank c = false) :
    trimRight cs = cs := by
  rcases List.eq_nil_or_concat cs with rfl | ⟨init, c, rfl⟩
  · rfl
  · rw [List.concat_eq_append, trimRight_append (h c (by simp))]
    rfl

theorem cutAt_append {sep : Char} {key : List Char} (hk : sep ∉ key) (value : List Char) :
    cutAt sep (key ++ sep :: value) = some (key, value) := by
  induction key with
  | nil => simp [cutAt]
  | cons c cs ih =>
    obtain ⟨hc, hcs⟩ := not_or.mp (mt List.mem_cons.mpr hk)
    simp [cutAt, Ne.symm hc, ih hcs]

end Text

/-- The target that a line names. -/
def lineTarget? (line : List Char) : Option String := do
  let (key, value) ← Text.cutAt '=' (Text.trim line)
  let name := key.takeWhile (· != ':')
  if name = "IDF_TARGET".toList ∧ value ≠ [] then some (String.ofList value) else none

theorem cachedTarget?_eq (text : String) :
    cachedTarget? text = (Text.splitAt '\n' text.toList).findSome? lineTarget? := rfl

/-- Only a key up to its type and a value up to the blanks after it count. -/
theorem lineTarget?_entry {key : List Char} (hk : '=' ∉ key)
    (hhead : ∀ c ∈ key.head?, Text.isBlank c = false) (value : List Char) :
    lineTarget? (key ++ '=' :: value) =
      if key.takeWhile (· != ':') = "IDF_TARGET".toList ∧ Text.trimRight value ≠ [] then
        some (String.ofList (Text.trimRight value))
      else none := by
  have heq : Text.isBlank '=' = false := by decide
  have htrim : Text.trim (key ++ '=' :: value) = key ++ '=' :: Text.trimRight value := by
    rw [Text.trim]
    cases key with
    | nil => rw [List.nil_append, Text.trimLeft_of_head heq]; exact Text.trimRight_append heq [] value
    | cons c cs =>
      rw [List.cons_append, Text.trimLeft_of_head (hhead c rfl)]
      exact Text.trimRight_append heq (c :: cs) value
  simp only [lineTarget?, htrim, Text.cutAt_append hk]
  rfl

namespace ScriptedTool

theorem toList_cacheText (name target : String) :
    (cacheText name target).toList =
      ("HW_NAME:UNINITIALIZED".toList ++ '=' :: name.toList) ++ '\n' ::
        (("IDF_TARGET:STRING".toList ++ '=' :: target.toList) ++ '\n' :: []) := by
  have h₁ : "HW_NAME:UNINITIALIZED=".toList = "HW_NAME:UNINITIALIZED".toList ++ ['='] := by decide
  have h₂ : "\nIDF_TARGET:STRING=".toList = '\n' :: ("IDF_TARGET:STRING".toList ++ ['=']) := by
    decide
  have h₃ : "\n".toList = ['\n'] := by decide
  -- the texts are kept apart from the step that takes a text to its characters
  have happend (p q r s t : String) : (p ++ q ++ r ++ s ++ t).toList =
      p.toList ++ q.toList ++ r.toList ++ s.toList ++ t.toList := by
    simp only [String.toList_append]
  refine (happend _ _ _ _ _).trans ?_
  rw [h₁, h₂, h₃]
  simp only [List.append_assoc, List.cons_append, List.nil_append]

/-- The cache of a directory that was set up for a target names that target. -/
theorem cachedTarget?_cacheText {name target : String} (hname : '\n' ∉ name.toList)
    (htarget : target ≠ "") (hnewline : '\n' ∉ target.toList)
    (hlast : ∀ c ∈ target.toList.getLast?, Text.isBlank c = false) :
    cachedTarget? (cacheText name target) = some target := by
  have hfirst : '\n' ∉ "HW_NAME:UNINITIALIZED".toList ++ '=' :: name.toList := by
    simpa using hname
  have hsecond : '\n' ∉ "IDF_TARGET:STRING".toList ++ '=' :: target.toList := by
    simpa using hnewline
  rw [cachedTarget?_eq, toList_cacheText, Text.splitAt_append_sep, Text.splitAt_append_sep,
    Text.splitAt_of_not_mem hfirst, Text.splitAt_of_not_mem hsecond]
  have hone : lineTarget? ("HW_NAME:UNINITIALIZED".toList ++ '=' :: name.toList) = none := by
    rw [lineTarget?_entry (by decide) (by rintro _ ⟨⟩; decide), if_neg]
    exact fun h => absurd h.1 (by decide)
  have hne : target.toList ≠ [] := fun he => htarget (String.toList_inj.mp he)
  have htwo : lineTarget? ("IDF_TARGET:STRING".toList ++ '=' :: target.toList) = some target := by
    rw [lineTarget?_entry (by decide) (by rintro _ ⟨⟩; decide),
      Text.trimRight_of_last hlast, if_pos]
    · rw [String.ofList_toList]
    · exact ⟨by decide, hne⟩
  simp only [List.singleton_append, List.findSome?_cons, hone, htwo]

end ScriptedTool

end FirmwareMatrix
