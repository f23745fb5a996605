import Mathlib.Data.List.Induction
import Mathlib.Data.List.Nodup

/-!
# Sorting by a text

Rows, tests and subtests are sorted by their names. Where no two things have one name, the sorted
list does not depend on the order that they were in.

* `pairwise_mergeSort_of_iff`, `pairwise_mergeSort`: what is sorted ascends.
* `mergeSort_eq_of_perm`, `mergeSort_eq_mergeSort`: it is the only order that ascends.
* `pairwise_lt_mergeSort`: names without repetition ascend strictly.
* `foldl_of_ascending`: what ascends strictly stays as it is when its members are put in one by one.
-/

namespace ResultSearch.Sorting

variable {α : Type} {f : α → String} {l r : List α}

/-- Sorting by a comparison that decides a total order ascends in it. -/
theorem pairwise_mergeSort_of_iff {r : α → α → Prop} {le : α → α → Bool}
    (h : ∀ a b, le a b = true ↔ r a b) (htrans : ∀ a b c, r a b → r b c → r a c)
    (htotal : ∀ a b, r a b ∨ r b a) : (l.mergeSort le).Pairwise r := by
  have hsorted : (l.mergeSort le).Pairwise fun a b => le a b = true := by
    refine List.pairwise_mergeSort (fun a b c hab hbc => ?_) (fun a b => ?_) l
    · exact (h a c).2 (htrans a b c ((h a b).1 hab) ((h b c).1 hbc))
    · rw [Bool.or_eq_true, h, h]
      exact htotal a b
  exact hsorted.imp fun {a b} hab => (h a b).1 hab

theorem pairwise_mergeSort : (l.mergeSort fun a b => decide (f a ≤ f b)).Pairwise fun a b =>
    f a ≤ f b :=
  pairwise_mergeSort_of_iff (fun _ _ => decide_eq_true_iff)
    (fun _ _ _ => String.le_trans) (fun a b => String.le_total (f a) (f b))

/-- A list that ascends, where a name stands for one thing, is what any order of it is sorted to. -/
theorem mergeSort_eq_of_perm (hf : ∀ a ∈ r, ∀ b ∈ r, f a = f b → a = b)
    (hr : r.Pairwise fun a b => f a ≤ f b) (h : l.Perm r) :
    (l.mergeSort fun a b => decide (f a ≤ f b)) = r := by
  have hperm : (l.mergeSort fun a b => decide (f a ≤ f b)).Perm r :=
    (List.mergeSort_perm _ _).trans h
  refine List.Perm.eq_of_pairwise (fun a b ha hb hab hba => ?_) pairwise_mergeSort hr hperm
  exact hf a (hperm.subset ha) b hb (String.le_antisymm hab hba)

theorem mergeSort_eq_mergeSort (hf : ∀ a ∈ r, ∀ b ∈ r, f a = f b → a = b) (h : l.Perm r) :
    (l.mergeSort fun a b => decide (f a ≤ f b)) = r.mergeSort fun a b => decide (f a ≤ f b) := by
  refine mergeSort_eq_of_perm (fun a ha b hb => ?_) pairwise_mergeSort
    (h.trans (List.mergeSort_perm _ _).symm)
  exact hf a (List.mem_mergeSort.1 ha) b (List.mem_mergeSort.1 hb)

theorem pairwise_lt_mergeSort {l : List String} (h : l.Nodup) :
    (l.mergeSort fun a b => decide (a ≤ b)).Pairwise fun a b => a < b := by
  have hle : (l.mergeSort fun a b => decide (a ≤ b)).Pairwise fun a b => a ≤ b :=
    pairwise_mergeSort (f := id)
  have hne : (l.mergeSort fun a b => decide (a ≤ b)).Nodup :=
    (List.mergeSort_perm _ _).nodup_iff.2 h
  refine (hle.and hne).imp fun ⟨hab, hne⟩ => ?_
  exact String.not_le.1 fun hba => hne (String.le_antisymm hab hba)

theorem foldl_of_ascending {put : List α → α → List α}
    (hput : ∀ l a, (∀ b ∈ l, f b < f a) → put l a = l ++ [a])
    (h : l.Pairwise fun a b => f a < f b) : l.foldl put [] = l := by
  induction l using List.reverseRecOn with
  | nil => rfl
  | append_singleton l a ih =>
    obtain ⟨hl, -, ha⟩ := List.pairwise_append.1 h
    rw [List.foldl_append, ih hl]
    exact hput l a fun b hb => ha b hb a (List.mem_singleton_self a)

end ResultSearch.Sorting
