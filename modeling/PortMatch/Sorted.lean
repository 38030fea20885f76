/-!
# Sorting

Lists in the order of their elements.  The order is that of an `Ord` instance, and elements that
compare as equal keep the order in which they came.  The sort works by insertion, one element after
the other from the back of the list; it is made for short lists, and simple enough for a sorted list
to be computed inside a proof.

* `sorted` — the list in ascending order;
* `sorted_perm`, `pairwise_sorted` — it has the elements of the list, and they ascend.
-/

namespace PortMatch

variable {α : Type} [Ord α]

/-- Puts an element in front of the first one that is not smaller. -/
def insertSorted (a : α) : List α → List α
  | [] => [a]
  | b :: rest => if (compare a b).isLE then a :: b :: rest else b :: insertSorted a rest

/-- The elements of a list in ascending order. -/
def sorted (xs : List α) : List α := xs.foldr insertSorted []

theorem insertSorted_perm (a : α) (xs : List α) : (insertSorted a xs).Perm (a :: xs) := by
  induction xs with
  | nil => exact .refl _
  | cons b rest ih =>
    unfold insertSorted
    split
    · exact .refl _
    · exact (ih.cons b).trans (.swap a b rest)

/-- Sorting only changes the order. -/
theorem sorted_perm (xs : List α) : (sorted xs).Perm xs := by
  induction xs with
  | nil => exact .refl _
  | cons a rest ih => exact (insertSorted_perm a (sorted rest)).trans (ih.cons a)

theorem pairwise_insertSorted [Std.TransOrd α] (a : α) {xs : List α}
    (h : xs.Pairwise fun x y => (compare x y).isLE) :
    (insertSorted a xs).Pairwise fun x y => (compare x y).isLE := by
  induction xs with
  | nil => simp [insertSorted]
  | cons b rest ih =>
    obtain ⟨hb, hrest⟩ := List.pairwise_cons.1 h
    unfold insertSorted
    split
    · next hab =>
      refine List.pairwise_cons.2 ⟨fun y hy => ?_, h⟩
      rcases List.mem_cons.1 hy with rfl | hy
      · exact hab
      · exact Std.TransCmp.isLE_trans hab (hb y hy)
    · next hab =>
      refine List.pairwise_cons.2 ⟨fun y hy => ?_, ih hrest⟩
      rcases List.mem_cons.1 ((insertSorted_perm a rest).mem_iff.1 hy) with rfl | hy
      · rw [Std.OrientedOrd.eq_swap] at hab
        cases hc : compare b y <;> simp_all
      · exact hb y hy

/-- The elements of a sorted list ascend. -/
theorem pairwise_sorted [Std.TransOrd α] (xs : List α) :
    (sorted xs).Pairwise fun x y => (compare x y).isLE := by
  induction xs with
  | nil => exact .nil
  | cons a rest ih => exact pairwise_insertSorted a ih

end PortMatch
