import FirmwareMatrix.Proofs.CacheText
import Mathlib.Data.List.TakeWhile

/-! # The entries of a cache

A cache is written line by line: blank lines, comments and entries, each ended by a line feed with
or without a carriage return before it. It is read line by line as well, and a line names a target
exactly if it is an entry for it that has a value: a comment keeps its opening as part of what
stands before the first equals sign, and a carriage return goes with the blanks at the end. So
reading finds the first such entry, whatever stands in the lines around it. -/

namespace FirmwareMatrix

namespace Text

theorem trimRight_append_blank {c : Char} (hc : isBlank c = true) (cs : List Char) :
    trimRight (cs ++ [c]) = trimRight cs := by
  simp [trimRight, hc]

theorem trim_of_blank {cs : List Char} (h : ∀ c ∈ cs, isBlank c = true) : trim cs = [] := by
  have hdrop : trimLeft cs = [] := List.dropWhile_eq_nil_iff.mpr h
  rw [trim, hdrop]
  rfl

end Text

/-! ## What is written -/

/-- How a line is ended. -/
inductive LineEnd where
  | feed
  | returnAndFeed
  deriving DecidableEq, Repr

/-- What stands before the line feed. -/
def LineEnd.lead : LineEnd → List Char
  | feed => []
  | returnAndFeed => ['\r']

/-- An entry: a key, perhaps with a type, and a value. -/
structure CacheEntry where
  key : String
  type : Option String
  value : String
  key_plain : ':' ∉ key.toList ∧ '=' ∉ key.toList ∧ '\n' ∉ key.toList
  key_head : ∀ c ∈ key.toList.head?, Text.isBlank c = false
  type_plain : ∀ t ∈ type, '=' ∉ t.toList ∧ '\n' ∉ t.toList
  value_plain : '\n' ∉ value.toList
  value_last : ∀ c ∈ value.toList.getLast?, Text.isBlank c = false

namespace CacheEntry

/-- What stands before the equals sign. -/
def front (e : CacheEntry) : List Char :=
  e.key.toList ++ e.type.elim [] fun t => ':' :: t.toList

/-- The entry holds a target. -/
def namesTarget (e : CacheEntry) : Bool := e.key == "IDF_TARGET" && e.value != ""

end CacheEntry

/-- One line of a cache. -/
inductive CacheLine where
  | blank (text : String) (blank : ∀ c ∈ text.toList, Text.isBlank c = true)
      (plain : '\n' ∉ text.toList)
  | comment (text : String) (opening : ['#'] <+: text.toList ∨ ['/', '/'] <+: text.toList)
      (plain : '\n' ∉ text.toList)
  | entry (e : CacheEntry)

namespace CacheLine

def text : CacheLine → List Char
  | blank text _ _ => text.toList
  | comment text _ _ => text.toList
  | entry e => e.front ++ '=' :: e.value.toList

def toEntry : CacheLine → Option CacheEntry
  | entry e => some e
  | _ => none

end CacheLine

/-- The text of a cache with these lines. -/
def cacheOf (lines : List (CacheLine × LineEnd)) : String :=
  String.ofList (lines.flatMap fun (line, ending) => line.text ++ ending.lead ++ ['\n'])

/-! ## What is read -/

namespace CacheEntry

variable (e : CacheEntry)

theorem equals_not_mem_front : '=' ∉ e.front := by
  simp only [front, List.mem_append, not_or]
  refine ⟨e.key_plain.2.1, ?_⟩
  cases h : e.type with
  | none => simp
  | some t => simpa using (e.type_plain t h).1

theorem newline_not_mem_front : '\n' ∉ e.front := by
  simp only [front, List.mem_append, not_or]
  refine ⟨e.key_plain.2.2, ?_⟩
  cases h : e.type with
  | none => simp
  | some t => simpa using (e.type_plain t h).2

theorem head_front : ∀ c ∈ e.front.head?, Text.isBlank c = false := by
  intro c hc
  cases hk : e.key.toList with
  | cons d ds =>
    refine e.key_head c ?_
    simpa [front, hk] using hc
  | nil =>
    -- without a key, the entry starts with the colon before its type, or it has nothing in front
    cases ht : e.type with
    | none => simp [front, hk, ht] at hc
    | some t =>
      have hcolon : c = ':' := by simpa [front, hk, ht, eq_comm] using hc
      rw [hcolon]
      decide

/-- The type is cut off from the key at the first colon. -/
theorem takeWhile_front : e.front.takeWhile (· != ':') = e.key.toList := by
  have hkey : ∀ c ∈ e.key.toList, (c != ':') = true := by
    intro c hc
    have hne : c ≠ ':' := fun h => e.key_plain.1 (h ▸ hc)
    simpa using hne
  rw [front, List.takeWhile_append_of_pos hkey]
  cases e.type with
  | none => simp
  | some t => simp

theorem lineTarget?_eq (ending : LineEnd) :
    lineTarget? (e.front ++ '=' :: (e.value.toList ++ ending.lead)) =
      if e.namesTarget then some e.value else none := by
  have hvalue : Text.trimRight (e.value.toList ++ ending.lead) = e.value.toList := by
    cases ending with
    | feed =>
      rw [LineEnd.lead, List.append_nil]
      exact Text.trimRight_of_last e.value_last
    | returnAndFeed =>
      rw [LineEnd.lead, Text.trimRight_append_blank (by decide)]
      exact Text.trimRight_of_last e.value_last
  have hnames : e.key.toList = "IDF_TARGET".toList ∧ e.value.toList ≠ [] ↔ e.namesTarget := by
    have hempty : e.value.toList ≠ [] ↔ e.value ≠ "" := not_congr String.toList_eq_nil_iff
    rw [String.toList_inj, hempty]
    simp [namesTarget]
  rw [lineTarget?_entry e.equals_not_mem_front e.head_front, e.takeWhile_front, hvalue,
    String.ofList_toList]
  exact if_congr hnames rfl rfl

end CacheEntry

/-- A line that names a target starts with the first letter of the key. -/
theorem lineTarget?_of_head {c : Char} (hblank : Text.isBlank c = false) (hequals : c ≠ '=')
    (hcolon : c ≠ ':') (hletter : c ≠ 'I') (cs : List Char) : lineTarget? (c :: cs) = none := by
  have htrim : Text.trim (c :: cs) = c :: Text.trimRight cs := by
    rw [Text.trim, Text.trimLeft_of_head hblank]
    exact Text.trimRight_append hblank [] cs
  have hkey : "IDF_TARGET".toList = 'I' :: "DF_TARGET".toList := by decide
  rw [lineTarget?, htrim, Text.cutAt, if_neg hequals]
  cases Text.cutAt '=' (Text.trimRight cs) with
  | none => rfl
  | some cut =>
    have hname : (c :: cut.1).takeWhile (· != ':') ≠ "IDF_TARGET".toList := by
      rw [hkey]
      simp [hcolon, hletter]
    exact if_neg fun h => hname h.1

namespace CacheLine

/-- A line is on one line. -/
theorem newline_not_mem (line : CacheLine) (ending : LineEnd) :
    '\n' ∉ line.text ++ ending.lead := by
  have hlead : '\n' ∉ ending.lead := by cases ending <;> decide
  have htext : '\n' ∉ line.text := by
    cases line with
    | blank _ _ plain => exact plain
    | comment _ _ plain => exact plain
    | entry e =>
      have hfeed : '\n' ≠ '=' := by decide
      simp [text, e.newline_not_mem_front, e.value_plain, hfeed]
  exact fun h => (List.mem_append.mp h).elim htext hlead

/-- A line is read as the target that it holds, however it is ended. -/
theorem lineTarget?_eq (line : CacheLine) (ending : LineEnd) :
    lineTarget? (line.text ++ ending.lead) =
      (line.toEntry.filter CacheEntry.namesTarget).map CacheEntry.value := by
  cases line with
  | blank cs blank _ =>
    have hblank : ∀ c ∈ cs.toList ++ ending.lead, Text.isBlank c = true := by
      intro c hc
      rcases List.mem_append.mp hc with hc | hc
      · exact blank c hc
      · cases ending with
        | feed => simp [LineEnd.lead] at hc
        | returnAndFeed =>
          rw [List.mem_singleton.mp hc]
          decide
    show lineTarget? (cs.toList ++ ending.lead) = none
    rw [lineTarget?, Text.trim_of_blank hblank]
    rfl
  | comment cs opening _ =>
    show lineTarget? (cs.toList ++ ending.lead) = none
    rcases opening with ⟨rest, hrest⟩ | ⟨rest, hrest⟩
    · rw [← hrest]
      exact lineTarget?_of_head (by decide) (by decide) (by decide) (by decide) _
    · rw [← hrest]
      exact lineTarget?_of_head (by decide) (by decide) (by decide) (by decide) _
  | entry e =>
    have htext : (entry e).text ++ ending.lead =
        e.front ++ '=' :: (e.value.toList ++ ending.lead) := by
      simp [text]
    rw [htext, e.lineTarget?_eq]
    show _ = (Option.filter _ (some e)).map _
    cases h : e.namesTarget <;> simp [Option.filter, h]

end CacheLine

/-- A cache names the target of its first entry for one that has a value, if there is such an
entry. -/
theorem cachedTarget?_cacheOf (lines : List (CacheLine × LineEnd)) :
    cachedTarget? (cacheOf lines) =
      ((lines.filterMap fun line => line.1.toEntry).find? CacheEntry.namesTarget).map
        CacheEntry.value := by
  rw [cachedTarget?_eq, cacheOf, String.toList_ofList]
  induction lines with
  | nil => rfl
  | cons l lines ih =>
    obtain ⟨line, ending⟩ := l
    rw [List.flatMap_cons, List.append_assoc, List.singleton_append, Text.splitAt_append_sep,
      Text.splitAt_of_not_mem (line.newline_not_mem ending), List.singleton_append,
      List.findSome?_cons, line.lineTarget?_eq ending, ih]
    cases line with
    | blank => rfl
    | comment => rfl
    | entry e =>
      simp only [CacheLine.toEntry, List.filterMap_cons]
      cases h : e.namesTarget <;> simp [Option.filter, h]

/-- The first entry for a target has no value, so it is passed over. -/
example : cachedTarget? ("# IDF_TARGET=a\n\t\r\nIDF_TARGET_ARCH:STRING=b\nIDF_TARGET=\r\n" ++
    "IDF_TARGET:STRING=c=d:e#f\r\nIDF_TARGET=g\n") = some "c=d:e#f" := by
  decide +kernel

end FirmwareMatrix
