import FirmwareMatrix.Proofs.BoardOrder
import FirmwareMatrix.Proofs.PathJoin
import Mathlib.Data.List.Forall2
import Mathlib.Data.List.Infix

/-! # Sorting boards

Boards compare as equal exactly if they count as equal, which they do whatever the spelling of their
sources. In a sorted list the first board is at most as great as any other, so in two sorted lists
of the same boards the first ones compare as equal, and so on down the lists: the order in which
boards were found leaves no trace but the spelling. The targets ascend, so the boards of one target
stand together. -/

namespace FirmwareMatrix

/-! ## Spelling of paths -/

namespace Path

namespace Script

variable {α : Type} [DecidableEq α] {s : Script α}

/-- A piece between separators that stands for no component can be left out. -/
theorem components_skip (xs piece ys : List α) (hpiece : s.separator ∉ piece)
    (h : s.inner piece = none) :
    s.components (xs ++ s.separator :: (piece ++ s.separator :: ys)) =
      s.components (xs ++ s.separator :: ys) := by
  simp only [components, Text.splitAt_append_sep, Text.splitAt_of_not_mem hpiece]
  obtain ⟨first, rest, hs⟩ := List.exists_cons_of_ne_nil (Text.splitAt_ne_nil s.separator xs)
  obtain ⟨u, us, hu⟩ := List.exists_cons_of_ne_nil (Text.splitAt_ne_nil s.separator ys)
  rw [hs, hu]
  cases first with
  | nil => cases rest <;> simp [List.filterMap_cons, h]
  | cons c cs => simp [h]

end Script

/-- Repeated separators and inner dots do not count. -/
theorem beq_respelled (s t : String) :
    ((⟨s ++ "//" ++ t⟩ : Path) == ⟨s ++ "/./" ++ t⟩) = true := by
  have hdouble : letters.components (s.toList ++ '/' :: '/' :: t.toList) =
      letters.components (s.toList ++ '/' :: t.toList) :=
    Script.components_skip s.toList [] t.toList (by decide) rfl
  have hdot : letters.components (s.toList ++ '/' :: '.' :: '/' :: t.toList) =
      letters.components (s.toList ++ '/' :: t.toList) :=
    Script.components_skip s.toList ['.'] t.toList (by decide) rfl
  rw [beq_iff]
  simpa [components, read] using hdouble.trans hdot.symm

end Path

/-! ## Lists in ascending order -/

section Sorting

variable {α : Type} [Ord α] [Std.TransOrd α]

/-- The first of an ascending list is at most as great as what compares as equal with a member. -/
theorem isLE_of_countP_pos {a x : α} {as : List α}
    (h : (a :: as).Pairwise fun a b => (compare a b).isLE = true)
    (hx : 0 < (a :: as).countP fun y => compare x y == .eq) : (compare a x).isLE = true := by
  obtain ⟨y, hy, heq⟩ := List.countP_pos_iff.mp hx
  rw [Std.TransCmp.congr_right (eq_of_beq heq)]
  rcases List.mem_cons.mp hy with rfl | hy
  · exact Std.ReflCmp.isLE_rfl
  · exact (List.pairwise_cons.mp h).1 y hy

/-- Ascending lists in which equally many members compare as equal with each `x` agree member by
member, as far as comparing can tell. -/
theorem forall₂_of_ascending {as bs : List α}
    (ha : as.Pairwise fun a b => (compare a b).isLE = true)
    (hb : bs.Pairwise fun a b => (compare a b).isLE = true)
    (hcount : ∀ x, (as.countP fun y => compare x y == .eq) =
      bs.countP fun y => compare x y == .eq) :
    List.Forall₂ (fun a b => compare a b = .eq) as bs := by
  have self (x : α) (xs : List α) : 0 < (x :: xs).countP fun y => compare x y == .eq :=
    List.countP_pos_iff.mpr ⟨x, List.mem_cons_self, by simp⟩
  induction as generalizing bs with
  | nil =>
    cases bs with
    | nil => exact .nil
    | cons b bs =>
      have hpos := self b bs
      rw [← hcount b] at hpos
      cases hpos
  | cons a as ih =>
    cases bs with
    | nil =>
      have hpos := self a as
      rw [hcount a] at hpos
      cases hpos
    | cons b bs =>
      have hle : (compare a b).isLE = true := isLE_of_countP_pos ha (hcount b ▸ self b bs)
      have hge : (compare b a).isLE = true := isLE_of_countP_pos hb (hcount a ▸ self a as)
      have heq : compare a b = .eq := Std.OrientedCmp.isLE_antisymm hle hge
      refine .cons heq (ih ha.of_cons hb.of_cons fun x => ?_)
      -- what compares as equal with one of the first two does so with the other
      have hfirst : compare x a = compare x b := Std.TransCmp.congr_right heq
      have hx := hcount x
      rw [List.countP_cons, List.countP_cons, hfirst] at hx
      omega

end Sorting

/-! ## Boards -/

namespace Board

/-- Equality looks at every part of a board, and at the components of its source. -/
theorem beq_iff {b b' : Board} : (b == b') = true ↔
    b.name = b'.name ∧ b.target = b'.target ∧ b.source.components = b'.source.components := by
  show (b.name == b'.name && (b.target == b'.target && b.source == b'.source)) = true ↔ _
  simp only [Bool.and_eq_true, beq_iff_eq, Path.beq_iff]

instance : Std.LawfulBEqOrd Board where
  compare_eq_iff_beq {b b'} := by
    rw [compare_eq_then, Ordering.then_eq_eq, Ordering.then_eq_eq, Std.compare_eq_iff_eq,
      Std.compare_eq_iff_eq, Path.compare_eq_eq, beq_iff]
    exact and_left_comm

theorem target_ascending (boards : List Board) :
    (sort boards).Pairwise fun b b' => (compare b.target b'.target).isLE = true :=
  (mergeSort_ascending boards).imp target_le_of_le

theorem isPrefix_filter_target {boards : List Board} {target : String}
    (sorted : boards.Pairwise fun b b' => (compare b.target b'.target).isLE = true)
    (hleast : ∀ b ∈ boards, (compare target b.target).isLE = true) :
    boards.filter (·.target == target) <+: boards := by
  induction boards with
  | nil => exact List.prefix_rfl
  | cons b boards ih =>
    obtain ⟨hfirst, htail⟩ := List.pairwise_cons.mp sorted
    obtain ⟨hb, hrest⟩ := List.forall_mem_cons.mp hleast
    by_cases heq : b.target = target
    · rw [List.filter_cons_of_pos (by simpa using heq), List.prefix_cons_inj]
      exact ih htail hrest
    · -- the target has been passed
      have hnone : (b :: boards).filter (·.target == target) = [] := by
        rw [List.filter_eq_nil_iff]
        intro c hc hctarget
        obtain rfl := beq_iff_eq.mp hctarget
        rcases List.mem_cons.mp hc with rfl | hc
        · exact heq rfl
        · exact heq (Std.LawfulEqCmp.eq_of_compare
            (Std.OrientedCmp.isLE_antisymm (hfirst c hc) hb))
      rw [hnone]
      exact List.nil_prefix

/-- Where targets ascend, the boards of one target stand together. -/
theorem isInfix_filter_target {boards : List Board} (target : String)
    (sorted : boards.Pairwise fun b b' => (compare b.target b'.target).isLE = true) :
    boards.filter (·.target == target) <:+: boards := by
  induction boards with
  | nil => exact List.infix_rfl
  | cons b boards ih =>
    obtain ⟨hfirst, htail⟩ := List.pairwise_cons.mp sorted
    cases hle : (compare target b.target).isLE with
    | true =>
      have hrest : ∀ c ∈ boards, (compare target c.target).isLE = true :=
        fun c hc => Std.TransCmp.isLE_trans hle (hfirst c hc)
      exact (isPrefix_filter_target sorted (List.forall_mem_cons.mpr ⟨hle, hrest⟩)).isInfix
    | false =>
      have hne : b.target ≠ target := by
        rintro rfl
        simp at hle
      rw [List.filter_cons_of_neg (by simpa using hne)]
      exact List.infix_cons (ih htail)

/-- Boards are totally ordered, and compare as equal exactly if they have one name, one target and
the same components in their sources. Sorting gives the same boards, as far as equality can tell,
whatever the order that they came in, and those of one target stand together. -/
theorem sort_canonical :
    (∀ a b : Board, compare a b = (compare b a).swap) ∧
    (∀ a b : Board, (compare a b).isLE = true → (compare b a).isLE = true → (a == b) = true) ∧
    (∀ a b c : Board, (compare a b).isLE = true → (compare b c).isLE = true →
      (compare a c).isLE = true) ∧
    (∀ a b : Board, (compare a b).isLE = true ∨ (compare b a).isLE = true) ∧
    (∀ a b : Board, compare a b = .eq ↔ (a == b) = true) ∧
    (∀ a b : Board, (a == b) = true ↔ a.name = b.name ∧ a.target = b.target ∧
      a.source.components = b.source.components) ∧
    (∀ s t : String, ((⟨s ++ "//" ++ t⟩ : Path) == ⟨s ++ "/./" ++ t⟩) = true) ∧
    ∀ boards boards' : List Board, boards.Perm boards' →
      (sort boards).Perm boards ∧
      List.Forall₂ (fun b b' => (b == b') = true) (sort boards) (sort boards') ∧
      ∀ target, (sort boards).filter (·.target == target) <:+: sort boards := by
  refine ⟨fun _ _ => Std.OrientedOrd.eq_swap, fun _ _ hle hge => ?_,
    fun _ _ _ => Std.TransCmp.isLE_trans, fun a b => ?_, fun _ _ => Std.compare_eq_iff_beq,
    fun _ _ => beq_iff, Path.beq_respelled, fun boards boards' hperm => ?_⟩
  · exact Std.compare_eq_iff_beq.mp (Std.OrientedCmp.isLE_antisymm hle hge)
  · exact Bool.or_eq_true_iff.mp (compare_isLE_total a b)
  · have hsorted : (sort boards).Perm (sort boards') :=
      (List.mergeSort_perm boards _).trans (hperm.trans (List.mergeSort_perm boards' _).symm)
    refine ⟨List.mergeSort_perm boards _, ?_, fun target =>
      isInfix_filter_target target (target_ascending boards)⟩
    exact List.Forall₂.imp (fun _ _ => Std.compare_eq_iff_beq.mp) (forall₂_of_ascending
      (mergeSort_ascending boards) (mergeSort_ascending boards') fun _ => hsorted.countP_eq _)

/-- Two boards that count as equal, though their sources are spelled in two ways, and a board for
another chip. -/
def slashed : Board := ⟨"A", "esp32c3", ⟨"hw//a.h"⟩⟩

def dotted : Board := ⟨"A", "esp32c3", ⟨"hw/./a.h"⟩⟩

def other : Board := ⟨"B", "esp32s3", ⟨"hw/b.h"⟩⟩

/-- Sorting keeps both spellings in the order that they came in, so the two lists differ, but not in
what counts. -/
theorem spellings_sort_canonical :
    [slashed, dotted, other].Perm [dotted, slashed, other] ∧
      sort [slashed, dotted, other] = [slashed, dotted, other] ∧
      sort [dotted, slashed, other] = [dotted, slashed, other] ∧
      slashed.source.text ≠ dotted.source.text ∧
      List.Forall₂ (fun b b' => (b == b') = true) (sort [slashed, dotted, other])
        (sort [dotted, slashed, other]) ∧
      [slashed, dotted] <:+: sort [slashed, dotted, other] := by
  have hperm : [slashed, dotted, other].Perm [dotted, slashed, other] := .swap _ _ _
  obtain ⟨-, hsame, htogether⟩ := sort_canonical.2.2.2.2.2.2.2 _ _ hperm
  have hsorted : sort [slashed, dotted, other] = [slashed, dotted, other] :=
    List.mergeSort_of_pairwise (by decide +kernel)
  have hsorted' : sort [dotted, slashed, other] = [dotted, slashed, other] :=
    List.mergeSort_of_pairwise (by decide +kernel)
  have hstretch := htogether "esp32c3"
  rw [hsorted] at hstretch ⊢
  exact ⟨hperm, rfl, hsorted', by decide, hsorted ▸ hsame, hstretch⟩

end Board

end FirmwareMatrix
