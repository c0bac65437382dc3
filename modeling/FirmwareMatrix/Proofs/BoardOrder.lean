import FirmwareMatrix.Board
import FirmwareMatrix.Proofs.PathScript

/-! # The order of paths and of boards

Paths are ordered by their components, boards by target, name and source. Sorting puts either in
order, and of two boards with different names the earlier one has the lesser target or, for one
target, the lesser name, byte by byte. -/

namespace FirmwareMatrix

instance : Std.TransOrd Component :=
  inferInstanceAs (Std.TransCmp
    (compareLex (compareOn Component.rank) (compareOn Component.label)))

instance : Std.TransOrd Path := inferInstanceAs (Std.TransCmp (compareOn Path.components))

instance : Std.TransOrd Board :=
  inferInstanceAs (Std.TransCmp
    (compareLex (compareOn Board.target) (compareLex (compareOn Board.name)
      (compareOn Board.source))))

instance : Std.LawfulEqOrd Component where
  eq_of_compare {a b} h := by
    obtain ⟨hrank, hlabel⟩ := Ordering.then_eq_eq.mp
      (show ((compare a.rank b.rank).then (compare a.label b.label)) = .eq from h)
    replace hrank := Std.LawfulEqOrd.eq_of_compare hrank
    replace hlabel := Std.LawfulEqOrd.eq_of_compare hlabel
    have named (ha : a.isName = true) (hb : b.isName = true) : a = b := by
      rw [Component.label_eq ha, Component.label_eq hb] at hlabel
      exact Component.native_inj ha hb (NativeText.bytes_inj hlabel)
    cases a <;> cases b <;> first | rfl | exact named rfl rfl | cases hrank

theorem Path.compare_eq_eq {p q : Path} : compare p q = .eq ↔ p.components = q.components :=
  Std.compare_eq_iff_eq (α := List Component)

theorem Path.beq_iff {p q : Path} : (p == q) = true ↔ p.components = q.components :=
  beq_iff_eq (α := List Component)

instance : Std.LawfulBEqOrd Path where
  compare_eq_iff_beq := Path.compare_eq_eq.trans Path.beq_iff.symm

section Sorting

variable {α : Type} [Ord α] [Std.TransOrd α]

theorem compare_isLE_total (a b : α) : ((compare a b).isLE || (compare b a).isLE) = true := by
  rw [Std.OrientedOrd.eq_swap]
  cases compare b a <;> rfl

theorem mergeSort_ascending (as : List α) :
    (as.mergeSort fun a b => (compare a b).isLE).Pairwise fun a b => (compare a b).isLE = true :=
  List.pairwise_mergeSort (fun _ _ _ => Std.TransCmp.isLE_trans) compare_isLE_total as

/-- No later member of an ascending list is less than an earlier one. -/
theorem first_le_of_ascending {as : List α} (h : as.Pairwise fun a b => (compare a b).isLE = true)
    {i j : Nat} (hij : i ≤ j) (hj : j < as.length) :
    (compare (as[i]) (as[j])).isLE = true := by
  rcases Nat.lt_or_eq_of_le hij with hlt | rfl
  · exact List.pairwise_iff_getElem.mp h i j (by omega) hj hlt
  · simp

end Sorting

namespace Board

/-- By target and then by name, both byte by byte; boards of one target and name stand in neither
order. -/
def Before (b b' : Board) : Prop :=
  Text.Utf8.encode b.target.toList < Text.Utf8.encode b'.target.toList ∨
    b.target = b'.target ∧ Text.Utf8.encode b.name.toList < Text.Utf8.encode b'.name.toList

theorem compare_string_eq_lt {s t : String} :
    compare s t = .lt ↔ Text.Utf8.encode s.toList < Text.Utf8.encode t.toList := by
  rw [Text.Utf8.encode_lt_encode_iff]
  exact compareOfLessAndEq_eq_lt

theorem compare_eq_then (b b' : Board) :
    compare b b' = (compare b.target b'.target).then
      ((compare b.name b'.name).then (compare b.source b'.source)) := rfl

/-- Boards in ascending order have their targets in ascending order. -/
theorem target_le_of_le {b b' : Board} (h : (compare b b').isLE = true) :
    (compare b.target b'.target).isLE = true := by
  rw [compare_eq_then, Ordering.isLE_then_iff_or] at h
  rcases h with hlt | ⟨heq, -⟩
  · simp [hlt]
  · simp [heq]

/-- Among boards of different names the source never decides. -/
theorem before_of_compare {b b' : Board} (h : (compare b b').isLE = true)
    (hname : b.name ≠ b'.name) : b.Before b' := by
  rw [compare_eq_then, Ordering.isLE_then_iff_or, Ordering.isLE_then_iff_or] at h
  rcases h with ht | ⟨ht, hn | ⟨hn, -⟩⟩
  · exact .inl (compare_string_eq_lt.mp ht)
  · exact .inr ⟨Std.compare_eq_iff_eq.mp ht, compare_string_eq_lt.mp hn⟩
  · exact absurd (Std.compare_eq_iff_eq.mp hn) hname

theorem not_before_self (b : Board) : ¬ b.Before b := by
  rintro (h | ⟨-, h⟩)
  · exact List.lt_irrefl _ h
  · exact List.lt_irrefl _ h

theorem nodup_of_before {boards : List Board} (h : boards.Pairwise Before) : boards.Nodup := by
  refine h.imp fun {b b'} hbefore heq => ?_
  subst heq
  exact not_before_self b hbefore

theorem sort_before {boards : List Board} (h : boards.Pairwise fun b b' => b.name ≠ b'.name) :
    (sort boards).Pairwise Before := by
  have hnames : (sort boards).Pairwise fun b b' => b.name ≠ b'.name :=
    ((List.mergeSort_perm boards _).pairwise_iff fun hne => hne.symm).mpr h
  exact ((mergeSort_ascending boards).and hnames).imp fun h => before_of_compare h.1 h.2

end Board

end FirmwareMatrix
