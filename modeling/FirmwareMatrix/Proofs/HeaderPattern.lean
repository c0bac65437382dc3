import FirmwareMatrix.Discovery
import FirmwareMatrix.Proofs.PathJoin

/-! # The usual header pattern

Token by token, a sequence covers a text when each token can take a part of it and leave the rest
to the tokens after it. In this way the usual pattern covers every name that starts with `hw_` and
ends with `.h`, whatever stands between. -/

namespace FirmwareMatrix

namespace Glob

variable {t : Token} {ts : List Token} {bs rest : List UInt8}

/-- Wherever `bs` is among the remainders, `ts` can leave nothing of it. -/
def Covers (ts : List Token) (bs : List UInt8) : Prop :=
  ∀ all, bs ∈ all → [] ∈ restsOfSequence ts all

theorem covers_nil : Covers [] [] := fun _ h => h

theorem mem_distinct {all : List (List UInt8)} : bs ∈ distinct all ↔ bs ∈ all := by
  simp [distinct]

/-- The first token leaves `rest` to the tokens after it. -/
theorem Covers.cons (h : Covers ts rest) (hfirst : ∀ all, bs ∈ all → rest ∈ t.rests all) :
    Covers (t :: ts) bs := by
  intro all hall
  rw [restsOfSequence]
  exact h _ (mem_distinct.mpr (hfirst all hall))

theorem Covers.literal (h : Covers ts rest) (c : Char) :
    Covers (.literal c :: ts) (String.utf8EncodeChar c ++ rest) := by
  refine h.cons fun all hall => ?_
  rw [Token.rests, List.mem_filterMap]
  exact ⟨_, hall, by simp [afterBytes]⟩

theorem mem_suffixes (before rest : List UInt8) : rest ∈ suffixes (before ++ rest) := by
  induction before with
  | nil => cases rest <;> simp [suffixes]
  | cons b before ih => exact List.mem_cons_of_mem _ ih

theorem Covers.star (h : Covers ts rest) (before : List UInt8) :
    Covers (.star :: ts) (before ++ rest) := by
  refine h.cons fun all hall => ?_
  rw [Token.rests, List.mem_flatMap]
  exact ⟨_, hall, mem_suffixes before rest⟩

/-- Two stars at the start may stand for no directory at all. -/
theorem Covers.leading (h : Covers ts bs) : Covers (.leading :: ts) bs := by
  refine h.cons fun all hall => ?_
  rw [Token.rests]
  exact List.mem_append_left _ hall

/-- The pattern that board headers are usually found by. -/
def headers : Glob :=
  ⟨"**/hw_*.h", [.leading, .literal 'h', .literal 'w', .literal '_', .star, .literal '.',
    .literal 'h']⟩

theorem read_headers : Glob.read "**/hw_*.h" = .ok headers := rfl

theorem headers_compile : Compiler.nesting.compiles headers = true := by decide

theorem headers_matches (between : List Char) :
    headers.matches (String.ofList ("hw_".toList ++ between ++ ".h".toList)) = true := by
  have hcovers : Covers headers.tokens
      (Text.Utf8.encode ("hw_".toList ++ between ++ ".h".toList)) := by
    have hend : Covers [.literal '.', .literal 'h'] (Text.Utf8.encode ".h".toList) :=
      (covers_nil.literal 'h').literal '.'
    have hstart := (((hend.star (Text.Utf8.encode between)).literal '_').literal 'w').literal 'h'
    simpa [Text.Utf8.encode, headers] using hstart.leading
  have hmem := hcovers [Text.Utf8.encode ("hw_".toList ++ between ++ ".h".toList)]
    List.mem_cons_self
  rw [Glob.matches, String.toList_ofList, matchesBytes]
  simpa [headers] using hmem

end Glob

namespace Discovery

/-- The name of the header file for a stem. -/
def headerName (stem : String) : String := "hw_" ++ stem ++ ".h"

theorem toList_headerName (stem : String) :
    (headerName stem).toList = 'h' :: 'w' :: '_' :: (stem.toList ++ ['.', 'h']) := by
  simp [headerName]

theorem isName_headerName {stem : String} (h : '/' ∉ stem.toList) :
    Path.IsName (headerName stem) := by
  have hlist := toList_headerName stem
  refine ⟨fun he => ?_, fun he => ?_, fun he => ?_, ?_⟩
  · rw [he] at hlist
    cases hlist
  · rw [he] at hlist
    cases (List.cons.inj hlist).1
  · rw [he] at hlist
    cases (List.cons.inj hlist).1
  · rw [hlist]
    simp [h]

theorem relativeTo_child {root : Path} {name : String} (h : Path.IsName name) :
    root.relativeTo (root.child name) = some ⟨name⟩ := by
  have hchild : (root.child name).components = root.components ++ [name].map .name :=
    Path.components_child h
  simpa using Path.relativeTo_of_components hchild

/-- A header right below the root is wanted, also when its stem holds backslashes, which count as
separators. -/
theorem wanted_header (root : Path) {stem : String} (h : '/' ∉ stem.toList) :
    wanted root Glob.headers.matches (root.child (headerName stem)) = true := by
  have hmap : (headerName stem).toList.map (fun c => if c = '\\' then '/' else c) =
      "hw_".toList ++ stem.toList.map (fun c => if c = '\\' then '/' else c) ++ ".h".toList := by
    simp [headerName]
  rw [wanted, relativeTo_child (isName_headerName h)]
  simp only [Path.text_mk, hmap]
  exact Glob.headers_matches _

end Discovery

end FirmwareMatrix
