import Mathlib

/-!
# Lists in the order of a key

Lists are sorted by an integer that belongs to each item, and items with the same integer stay in
their order.  A sorted list is known from its items at each key, so that leaving out items before
sorting is the same as leaving them out afterwards.

## Main results

* `Sorting.pairwise_mergeSort` — the keys of a sorted list ascend.
* `Sorting.filter_mergeSort` — sorting keeps the items of a key in their order.
* `Sorting.sublist_mergeSort` — sorting a part of a list gives a part of the sorted list.
-/

namespace ChipSupport.Sorting

variable {α : Type} (key : α → Int)

private theorem le_trans_key (a b c : α) (hab : decide (key a ≤ key b) = true)
    (hbc : decide (key b ≤ key c) = true) : decide (key a ≤ key c) = true := by
  rw [decide_eq_true_eq] at *
  exact Int.le_trans hab hbc

private theorem le_total_key (a b : α) :
    (decide (key a ≤ key b) || decide (key b ≤ key a)) = true := by
  rw [Bool.or_eq_true, decide_eq_true_eq, decide_eq_true_eq]
  exact Int.le_total _ _

/-- The keys of a sorted list ascend. -/
theorem pairwise_mergeSort (xs : List α) :
    (xs.mergeSort fun a b => decide (key a ≤ key b)).Pairwise fun a b => key a ≤ key b :=
  (List.pairwise_mergeSort (le_trans_key key) (le_total_key key) xs).imp of_decide_eq_true

/-- The first item of a list goes behind the items of smaller keys and in front of all others. -/
theorem exists_mergeSort_cons (x : α) (xs : List α) :
    ∃ below rest,
      ((x :: xs).mergeSort fun a b => decide (key a ≤ key b)) = below ++ x :: rest ∧
      (xs.mergeSort fun a b => decide (key a ≤ key b)) = below ++ rest ∧
      (∀ a ∈ below, key a < key x) ∧ ∀ a ∈ rest, key x ≤ key a := by
  obtain ⟨below, rest, hcons, hxs, hbelow⟩ :=
    List.mergeSort_cons (le_trans_key key) (le_total_key key) x xs
  have hsorted := pairwise_mergeSort key (x :: xs)
  rw [hcons, List.pairwise_append, List.pairwise_cons] at hsorted
  refine ⟨below, rest, hcons, hxs, fun a ha => ?_, hsorted.2.1.1⟩
  simpa using hbelow a ha

/-- **Sorting keeps the items of a key in their order.** -/
theorem filter_mergeSort (k : Int) (xs : List α) :
    (xs.mergeSort fun a b => decide (key a ≤ key b)).filter (fun a => decide (key a = k))
      = xs.filter fun a => decide (key a = k) := by
  induction xs with
  | nil => rw [List.mergeSort_nil]
  | cons x xs ih =>
    obtain ⟨below, rest, hcons, hxs, hbelow, -⟩ := exists_mergeSort_cons key x xs
    rw [hxs, List.filter_append] at ih
    rw [hcons, List.filter_append]
    by_cases hx : key x = k
    · -- no item below the first one has its key
      have hnone : below.filter (fun a => decide (key a = k)) = [] := by
        rw [List.filter_eq_nil_iff]
        intro a ha
        have hlt := hbelow a ha
        simp only [decide_eq_true_eq]
        omega
      rw [hnone, List.nil_append] at ih ⊢
      rw [List.filter_cons_of_pos (by simpa using hx), List.filter_cons_of_pos (by simpa using hx),
        ih]
    · rw [List.filter_cons_of_neg (by simpa using hx), List.filter_cons_of_neg (by simpa using hx),
        ih]

/-- **Sorting a part of a list gives a part of the sorted list.** -/
theorem sublist_mergeSort {xs ys : List α} (h : xs.Sublist ys) :
    (xs.mergeSort fun a b => decide (key a ≤ key b)).Sublist
      (ys.mergeSort fun a b => decide (key a ≤ key b)) := by
  induction h with
  | slnil => exact List.Sublist.refl _
  | @cons xs ys y _ ih =>
    obtain ⟨below, rest, hcons, hys, -, -⟩ := exists_mergeSort_cons key y ys
    rw [hys] at ih
    rw [hcons]
    exact ih.trans ((List.Sublist.refl below).append (List.sublist_cons_self y rest))
  | @cons_cons xs ys x _ ih =>
    obtain ⟨below, rest, hxs, hxs', hbelow, hrest⟩ := exists_mergeSort_cons key x xs
    obtain ⟨below', rest', hys, hys', hbelow', hrest'⟩ := exists_mergeSort_cons key x ys
    -- the items in front of the first one are those of smaller keys, on both sides
    have hsplit {front back : List α} (hfront : ∀ a ∈ front, key a < key x)
        (hback : ∀ a ∈ back, key x ≤ key a) :
        (front ++ back).filter (fun a => decide (key a < key x)) = front ∧
          (front ++ back).filter (fun a => decide (key x ≤ key a)) = back := by
      constructor
      · rw [List.filter_append, List.filter_eq_self.mpr (by simpa using hfront),
          List.filter_eq_nil_iff.mpr (by simpa using hback), List.append_nil]
      · rw [List.filter_append, List.filter_eq_nil_iff.mpr (by simpa using hfront),
          List.filter_eq_self.mpr (by simpa using hback), List.nil_append]
    rw [hxs', hys'] at ih
    have hfront := ih.filter fun a => decide (key a < key x)
    have hback := ih.filter fun a => decide (key x ≤ key a)
    rw [(hsplit hbelow hrest).1, (hsplit hbelow' hrest').1] at hfront
    rw [(hsplit hbelow hrest).2, (hsplit hbelow' hrest').2] at hback
    rw [hxs, hys]
    exact hfront.append (hback.cons_cons x)

end ChipSupport.Sorting
