/-!
# Stable sorting

Sorting by a comparison keeps the order of the elements that the comparison finds equal, the ties.
A sorted list is known by its elements and by the order of its ties, so that it does not matter in
which steps it was sorted.

* `filter_mergeSort`: sorting keeps the order of ties.
* `eq_of_stable`: two sorted lists of the same elements with their ties in the same order are equal.
* `mergeSort_flatten`: sorting the parts of a list first makes no difference.
-/

namespace Curation

section Stable

variable {α : Type} {cmp : α → α → Ordering} [Std.TransCmp cmp]

private theorem isLE_trans (a b c : α) (hab : (cmp a b).isLE) (hbc : (cmp b c).isLE) :
    (cmp a c).isLE :=
  Std.TransCmp.isLE_trans hab hbc

private theorem isLE_total (a b : α) : ((cmp a b).isLE || (cmp b a).isLE) = true := by
  have hswap : cmp b a = (cmp a b).swap := Std.OrientedCmp.eq_swap
  rw [hswap]
  cases cmp a b <;> rfl

variable (cmp) in
/-- A sorted list is in order. -/
theorem pairwise_mergeSort (xs : List α) :
    (xs.mergeSort fun a b => (cmp a b).isLE).Pairwise fun a b => (cmp a b).isLE :=
  List.pairwise_mergeSort isLE_trans isLE_total xs

variable (cmp) in
/-- Sorting keeps the order of the elements that tie with one of them. -/
theorem filter_mergeSort (a : α) (xs : List α) :
    (xs.mergeSort fun a b => (cmp a b).isLE).filter (cmp a · == .eq) =
      xs.filter (cmp a · == .eq) := by
  let ties := xs.filter (cmp a · == .eq)
  -- ties are in order wherever they stand, so that sorting leaves them as they are
  have hordered : ties.Pairwise fun b c => (cmp b c).isLE := by
    refine List.pairwise_of_forall_mem_list fun b hb c hc => ?_
    have hab := beq_iff_eq.mp (List.mem_filter.mp hb).2
    have hac := beq_iff_eq.mp (List.mem_filter.mp hc).2
    rw [Std.TransCmp.eq_trans (Std.OrientedCmp.eq_symm hab) hac]
    rfl
  have hsublist : ties.Sublist (xs.mergeSort fun a b => (cmp a b).isLE) :=
    List.sublist_mergeSort isLE_trans isLE_total hordered List.filter_sublist
  have hfilter := hsublist.filter (cmp a · == .eq)
  simp only [ties, List.filter_filter, Bool.and_self] at hfilter
  -- no tie is missing among them, as there are as many in the sorted list
  refine (hfilter.eq_of_length ?_).symm
  exact ((List.mergeSort_perm xs _).filter _).length_eq.symm

variable (cmp) in
/-- Sorted lists of the same elements are equal if their ties are in the same order. -/
theorem eq_of_stable {xs ys : List α} (hperm : xs.Perm ys)
    (hxs : xs.Pairwise fun a b => (cmp a b).isLE) (hys : ys.Pairwise fun a b => (cmp a b).isLE)
    (hstable : ∀ a, xs.filter (cmp a · == .eq) = ys.filter (cmp a · == .eq)) : xs = ys := by
  induction xs generalizing ys with
  | nil => exact hperm.nil_eq
  | cons x xs ih =>
    cases ys with
    | nil => exact hperm.eq_nil
    | cons y ys =>
      have hfirst : ∀ {a : α} {zs : List α}, (a :: zs).Pairwise (fun a b => (cmp a b).isLE) →
          ∀ b ∈ a :: zs, (cmp a b).isLE := by
        intro a zs hzs b hb
        rcases List.mem_cons.mp hb with rfl | hb
        · exact Std.ReflCmp.isLE_rfl
        · exact List.rel_of_pairwise_cons hzs hb
      -- the first elements tie, as each is not after the other, so they are the first of their ties
      have htie : cmp x y = .eq := Std.OrientedCmp.isLE_antisymm
        (hfirst hxs y (hperm.mem_iff.mpr List.mem_cons_self))
        (hfirst hys x (hperm.mem_iff.mp List.mem_cons_self))
      obtain rfl : x = y := by
        have hties := hstable x
        rw [List.filter_cons_of_pos (by simp [Std.ReflCmp.compare_self]),
          List.filter_cons_of_pos (by simp [htie])] at hties
        exact (List.cons.inj hties).1
      refine congrArg _ (ih hperm.cons_inv hxs.of_cons hys.of_cons fun a => ?_)
      -- the first element is taken off the ties of `a` on both sides, or on neither
      have hties := hstable a
      by_cases hax : cmp a x = .eq
      · rw [List.filter_cons_of_pos (by simp [hax]), List.filter_cons_of_pos (by simp [hax])]
          at hties
        exact (List.cons.inj hties).2
      · rwa [List.filter_cons_of_neg (by simp [hax]), List.filter_cons_of_neg (by simp [hax])]
          at hties

variable (cmp) in
/-- A list is sorted as well by sorting its parts first. -/
theorem mergeSort_flatten (parts : List (List α)) :
    (parts.flatMap (·.mergeSort fun a b => (cmp a b).isLE)).mergeSort
        (fun a b => (cmp a b).isLE) =
      parts.flatten.mergeSort fun a b => (cmp a b).isLE := by
  have hparts : (parts.flatMap (·.mergeSort fun a b => (cmp a b).isLE)).Perm parts.flatten := by
    induction parts with
    | nil => rfl
    | cons xs parts ih =>
      rw [List.flatMap_cons, List.flatten_cons]
      exact (List.mergeSort_perm xs _).append ih
  refine eq_of_stable cmp ?_ (pairwise_mergeSort cmp _) (pairwise_mergeSort cmp _) ?_
  · exact (List.mergeSort_perm ..).trans (hparts.trans (List.mergeSort_perm ..).symm)
  · intro a
    -- neither the first sorting nor the second one moves ties
    rw [filter_mergeSort, filter_mergeSort, List.filter_flatMap, List.filter_flatten]
    simp only [filter_mergeSort]
    rfl

end Stable

end Curation
