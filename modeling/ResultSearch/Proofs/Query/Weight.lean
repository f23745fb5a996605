import ResultSearch.Proofs.Query.Binding
import ResultSearch.Proofs.Query.Folding

/-!
# The size of a bound query

Binding copies what stands under a combinator over runs, once for each run or each window of runs.
A copy is bound to one run, so that what is copied within it is not multiplied again: a query bound
to runs is at most as many times as large as there are runs.

* `Query.weight`: the leaves and negations of a query.
* `sizes_map_le_mul_weights`: bounds of the bound arguments make a bound of all of them.
* `sizes_bindAlong_le`: one window of runs takes one copy of each argument.
* `growsLinearly`, `size_bind_le`: a bound query is no larger than the weight, for every run.
-/

namespace ResultSearch

namespace Query

mutual

/-- The number of leaves and negations, a `noRun` being a negation; constants count nothing. -/
def weight : Query → Nat
  | .const _ => 0
  | .not q => 1 + weight q
  | .or args => weights args
  | .and args => weights args
  | .someRun args => weights args
  | .everyRun args => weights args
  | .noRun args => 1 + weights args
  | .consecutive args => weights args
  | .tally _ _ q => weight q
  | _ => 1

/-- The weights of all the queries together. -/
def weights : List Query → Nat
  | [] => 0
  | q :: rest => weight q + weights rest

end

end Query

namespace BoundQuery

/-! ## Sums of sizes -/

theorem sizes_map_le {α : Type} {g : α → BoundQuery} {l : List α} {n : Nat}
    (h : ∀ x ∈ l, (g x).size ≤ n) : sizes (l.map g) ≤ l.length * n := by
  induction l with
  | nil => simp [sizes]
  | cons x rest ih =>
    have hx : (g x).size ≤ n := h x List.mem_cons_self
    have hrest := ih fun y hy => h y (List.mem_cons_of_mem _ hy)
    rw [List.map_cons, sizes, List.length_cons, Nat.succ_mul]
    omega

/-- Where every argument is bound to at most `n` times its weight, all of them are. -/
theorem sizes_map_le_mul_weights {g : Query → BoundQuery} {args : List Query} {n : Nat}
    (h : ∀ q ∈ args, (g q).size ≤ n * q.weight) :
    sizes (args.map g) ≤ n * Query.weights args := by
  induction args with
  | nil => simp [sizes]
  | cons q rest ih =>
    have hq : (g q).size ≤ n * q.weight := h q List.mem_cons_self
    have hrest := ih fun x hx => h x (List.mem_cons_of_mem _ hx)
    rw [List.map_cons, sizes, Query.weights, Nat.mul_add]
    omega

theorem sizes_le_length {args : List BoundQuery} (h : ∀ q ∈ args, q.size ≤ 1) :
    sizes args ≤ args.length := by
  have hmap : sizes (args.map fun q => q) ≤ args.length * 1 := sizes_map_le h
  rwa [List.map_id', Nat.mul_one] at hmap

end BoundQuery

namespace Binder

variable {b : Binder}

/-! ## Leaves -/

theorem size_bindStatus_le {product : Option Product} {test : StatusTest} {runs : List Run} :
    (bindStatus product test runs).size ≤ runs.length := by
  rw [bindStatus_eq_any]
  apply Nat.le_trans (BoundQuery.size_any_le _)
  apply Nat.le_trans (BoundQuery.sizes_le_length _)
  · rw [List.length_map]
    exact List.length_filter_le _ _
  · intro q hq
    obtain ⟨r, -, rfl⟩ := List.mem_map.1 hq
    exact Nat.le_refl 1

theorem size_bindTriaged_le {product : Option Product} {runs : List Run} :
    (b.bindTriaged product runs).size ≤ runs.length := by
  apply Nat.le_trans (BoundQuery.size_any_le _)
  apply Nat.le_trans (BoundQuery.sizes_le_length _)
  · exact Nat.le_trans (List.length_filterMap_le _ _) (List.length_filter_le _ _)
  · intro q hq
    obtain ⟨r, -, hr⟩ := List.mem_filterMap.1 hq
    dsimp only at hr
    split at hr
    · cases hr
    · cases hr
      exact Nat.le_refl 1

/-! ## Copies -/

/-- The bound query is at most as many times as large as the query as there are runs. -/
def GrowsLinearly (b : Binder) (q : Query) : Prop :=
  ∀ runs, (b.bind q runs).size ≤ max 1 runs.length * q.weight

theorem GrowsLinearly.single {q : Query} (h : b.GrowsLinearly q) (r : Run) :
    (b.bind q [r]).size ≤ q.weight := by
  simpa using h [r]

/-- One copy of each argument for each run, put together by folding. -/
theorem sizes_copies_le {fold : List BoundQuery → BoundQuery}
    (hfold : ∀ l, (fold l).size ≤ BoundQuery.sizes l) {args : List Query} {runs : List Run}
    (ih : ∀ q ∈ args, b.GrowsLinearly q) :
    BoundQuery.sizes (args.map fun q => fold (runs.map fun r => b.bind q [r])) ≤
      max 1 runs.length * Query.weights args := by
  apply BoundQuery.sizes_map_le_mul_weights
  intro q hq
  calc (fold (runs.map fun r => b.bind q [r])).size
      ≤ BoundQuery.sizes (runs.map fun r => b.bind q [r]) := hfold _
    _ ≤ runs.length * q.weight := BoundQuery.sizes_map_le fun r _ => (ih q hq).single r
    _ ≤ max 1 runs.length * q.weight := Nat.mul_le_mul_right _ (Nat.le_max_right _ _)

theorem size_bindSomeRun_le {args : List Query} {runs : List Run}
    (ih : ∀ q ∈ args, b.GrowsLinearly q) :
    (b.bindSomeRun args runs).size ≤ max 1 runs.length * Query.weights args := by
  by_cases hone : args.length = 1
  · -- The single argument is not copied, but bound to all the runs.
    obtain ⟨q, rfl⟩ := List.length_eq_one_iff.1 hone
    rw [bindSomeRun_singleton]
    simpa [Query.weights] using ih q (List.mem_singleton_self q) runs
  · rw [bindSomeRun_of_length_ne_one hone, bindInSome_eq_map]
    exact Nat.le_trans (BoundQuery.size_all_le _) (sizes_copies_le BoundQuery.size_any_le ih)

/-- A window of runs takes one copy of each argument. -/
theorem sizes_bindAlong_le {args : List Query} {runs : List Run}
    (ih : ∀ q ∈ args, b.GrowsLinearly q) :
    BoundQuery.sizes (b.bindAlong args runs) ≤ Query.weights args := by
  induction args generalizing runs with
  | nil => simp [bindAlong, BoundQuery.sizes]
  | cons q rest ihargs =>
    cases runs with
    | nil => simp [bindAlong, BoundQuery.sizes]
    | cons r runs =>
      have hq : (b.bind q [r]).size ≤ q.weight := (ih q List.mem_cons_self).single r
      have hrest : BoundQuery.sizes (b.bindAlong rest runs) ≤ Query.weights rest :=
        ihargs fun x hx => ih x (List.mem_cons_of_mem _ hx)
      rw [bindAlong, BoundQuery.sizes, Query.weights]
      omega

theorem size_bindConsecutive_le {args : List Query} {runs : List Run}
    (ih : ∀ q ∈ args, b.GrowsLinearly q) :
    (b.bind (.consecutive args) runs).size ≤ max 1 runs.length * Query.weights args := by
  rw [bind]
  split
  · simp [BoundQuery.size]
  next hargs =>
  -- A sequence is not empty, so that there are no more windows than runs.
  have hpos : args.length ≠ 0 := by
    intro h
    exact hargs (by simp [List.length_eq_zero_iff.1 h])
  have hwindows : runs.length + 1 - args.length ≤ max 1 runs.length := by omega
  apply Nat.le_trans (BoundQuery.size_any_le _)
  calc BoundQuery.sizes ((List.range (runs.length + 1 - args.length)).map fun i =>
        .all (b.bindAlong args (runs.drop i)))
      ≤ (List.range (runs.length + 1 - args.length)).length * Query.weights args := by
        apply BoundQuery.sizes_map_le
        intro i _
        exact Nat.le_trans (BoundQuery.size_all_le _) (sizes_bindAlong_le ih)
    _ ≤ max 1 runs.length * Query.weights args := by
        rw [List.length_range]
        exact Nat.mul_le_mul_right _ hwindows

/-- A negation adds one to what is at most so many times as large, and there is at least one
copy. -/
theorem size_negate_le_mul {q : BoundQuery} {n w : Nat} (h : q.size ≤ max 1 n * w) :
    (BoundQuery.negate q).size ≤ max 1 n * (1 + w) := by
  have hnegate : (BoundQuery.negate q).size ≤ 1 + q.size := BoundQuery.size_negate_le q
  have hone : 1 ≤ max 1 n := Nat.le_max_left 1 n
  rw [Nat.mul_add, Nat.mul_one]
  omega

theorem size_le_of_le_length {q : BoundQuery} {runs : List Run} (h : q.size ≤ runs.length) :
    q.size ≤ max 1 runs.length * 1 := by
  rw [Nat.mul_one]
  exact Nat.le_trans h (Nat.le_max_right _ _)

theorem one_le_copies {runs : List Run} : 1 ≤ max 1 runs.length * 1 := by
  rw [Nat.mul_one]
  exact Nat.le_max_left _ _

/-! ## All queries -/

mutual

theorem growsLinearly : (q : Query) → b.GrowsLinearly q
  | .const _ => fun _ => by simp [bind, BoundQuery.size]
  | .testName _ => fun _ => one_le_copies
  | .subtestName _ => fun _ => one_le_copies
  | .testPath _ => fun _ => one_le_copies
  | .status _ _ => fun _ => size_le_of_le_length size_bindStatus_le
  | .not q => fun runs => by
    rw [bind, Query.weight]
    exact size_negate_le_mul (growsLinearly q runs)
  | .or args => fun runs => by
    rw [bind, bindEach_eq_map, Query.weight]
    apply Nat.le_trans (BoundQuery.size_any_le _)
    exact BoundQuery.sizes_map_le_mul_weights fun q hq => growsLinearlyEach args q hq runs
  | .and args => fun runs => by
    rw [bind, bindEach_eq_map, Query.weight]
    apply Nat.le_trans (BoundQuery.size_all_le _)
    exact BoundQuery.sizes_map_le_mul_weights fun q hq => growsLinearlyEach args q hq runs
  | .someRun args => fun runs => by
    rw [bind, Query.weight]
    exact size_bindSomeRun_le (growsLinearlyEach args)
  | .everyRun args => fun runs => by
    rw [bind, bindInEvery_eq_map, Query.weight]
    apply Nat.le_trans (BoundQuery.size_all_le _)
    exact sizes_copies_le BoundQuery.size_all_le (growsLinearlyEach args)
  | .noRun args => fun runs => by
    rw [bind, Query.weight]
    exact size_negate_le_mul (size_bindSomeRun_le (growsLinearlyEach args))
  | .consecutive args => fun runs => by
    rw [Query.weight]
    exact size_bindConsecutive_le (growsLinearlyEach args)
  | .tally _ _ q => fun runs => by
    rw [bind, BoundQuery.size, Query.weight]
    apply Nat.le_trans (BoundQuery.sizes_map_le fun r _ => (growsLinearly q).single r)
    exact Nat.mul_le_mul_right _ (Nat.le_max_right _ _)
  | .link _ => fun _ => one_le_copies
  | .triaged _ => fun _ => size_le_of_le_length size_bindTriaged_le
  | .label _ => fun _ => one_le_copies
  | .feature _ => fun _ => one_le_copies
  | .quality _ => fun _ => one_le_copies

theorem growsLinearlyEach : (args : List Query) → ∀ q ∈ args, b.GrowsLinearly q
  | [] => by simp
  | q :: rest => by
    rintro x (_ | ⟨_, hx⟩)
    · exact growsLinearly q
    · exact growsLinearlyEach rest x hx

end

/-- A bound query is no larger than as many times the weight of the query as there are runs, however
deep combinators over runs are nested in it. -/
theorem size_bind_le (b : Binder) (q : Query) (runs : List Run) :
    (b.bind q runs).size ≤ max 1 runs.length * q.weight :=
  growsLinearly q runs

end Binder

end ResultSearch
