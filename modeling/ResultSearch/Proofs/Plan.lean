import ResultSearch.Plan
import ResultSearch.Proofs.Aggregation
import ResultSearch.Proofs.Outcome

/-!
# Executing plans

A scan that nothing stops gathers all entries of a registry that the filter accepts; the rows of the
shards come one after the other and are sorted in the end.

* `scanFrom_never`, `scan_never`: what one shard answers.
* `scanFromShard_perm`: the shards together answer the rows of each.
* `exists_of_mem_execute`: every row of a plan is one of some shard.
* `execute_eq_error`: columns without results are refused, whatever the names.
* `sortRows_eq`: rows of different tests have one order.
-/

namespace ResultSearch.Plan

variable {options : RowOptions}

/-! ## One shard -/

theorem scanFrom_never {filter : Filter} {columns : List RunResults} {shard position : Nat}
    {entries : List (Fingerprint × TestName)} {a : Aggregation} :
    scanFrom filter columns options (StopCheck.never shard) position entries a =
      .ok ((entries.filter fun e => filter.accepts e.1 e.2).foldl
        (fun a e => a.add columns options e.1 e.2) a) := by
  induction entries generalizing position a with
  | nil => rfl
  | cons e rest ih =>
    have hcheck : (if position % stride = 0 then StopCheck.never shard position else .ok ()) =
        .ok () := by
      split <;> rfl
    rw [scanFrom, hcheck]
    dsimp only
    rw [ih, List.filter_cons]
    split <;> rfl

/-- A shard with results of all the columns answers the rows of what its filter accepts. -/
theorem scan_never {part : ShardFilter} {registry : Registry} {columns : List RunId}
    {results : List RunResults} {shard : Nat}
    (h : columns.mapM (Filter.resultsOf part.results) = .ok results) :
    scan part registry columns options (StopCheck.never shard) =
      .ok ((Aggregation.gather options results
        (registry.entries.filter fun e => part.filter.accepts e.1 e.2)).finish options) := by
  rw [scan, h]
  refine Outcome.bind_eq_ok_iff.2 ⟨results, rfl, ?_⟩
  exact Outcome.bind_eq_ok_iff.2 ⟨_, scanFrom_never, rfl⟩

/-! ## All shards -/

/-- Where every shard answers some rows, perhaps in another order, so do all together. -/
theorem scanFromShard_perm {columns : List RunId} {number : Nat}
    {shards : List (ShardFilter × Registry)} {rows : Nat → List Row}
    (h : ∀ i part registry, shards[i]? = some (part, registry) → ∃ answer,
      scan part registry columns options (StopCheck.never (number + i)) = .ok answer ∧
        answer.Perm (rows (number + i))) :
    ∃ answer, scanFromShard columns options .never number shards = .ok answer ∧
      answer.Perm ((List.range' number shards.length).flatMap rows) := by
  induction shards generalizing number with
  | nil => exact ⟨[], rfl, .nil⟩
  | cons s rest ih =>
    obtain ⟨part, registry⟩ := s
    obtain ⟨first, hfirst, hfirst_perm⟩ := h 0 part registry rfl
    have hrest : ∀ i part registry, rest[i]? = some (part, registry) → ∃ answer,
        scan part registry columns options (StopCheck.never (number + 1 + i)) = .ok answer ∧
          answer.Perm (rows (number + 1 + i)) := by
      intro i part registry hi
      have hnext := h (i + 1) part registry hi
      rwa [show number + (i + 1) = number + 1 + i by omega] at hnext
    obtain ⟨others, hothers, hothers_perm⟩ := ih hrest
    refine ⟨first ++ others, ?_, ?_⟩
    · refine Outcome.bind_eq_ok_iff.2 ⟨first, hfirst, ?_⟩
      exact Outcome.bind_eq_ok_iff.2 ⟨others, hothers, rfl⟩
    · rw [List.length_cons, List.range'_succ, List.flatMap_cons]
      exact hfirst_perm.append hothers_perm

/-- If every shard answers, so do all together. -/
theorem scanFromShard_isOk {columns : List RunId} {number : Nat}
    {shards : List (ShardFilter × Registry)}
    (h : ∀ s ∈ shards, ∃ results, columns.mapM (Filter.resultsOf s.1.results) = .ok results) :
    ∃ rows, scanFromShard columns options .never number shards = .ok rows := by
  induction shards generalizing number with
  | nil => exact ⟨[], rfl⟩
  | cons s rest ih =>
    obtain ⟨results, hresults⟩ := h s List.mem_cons_self
    obtain ⟨rows, hrows⟩ := @ih (number + 1) fun s hs => h s (List.mem_cons_of_mem _ hs)
    rw [scanFromShard, scan_never hresults, hrows]
    exact ⟨_, rfl⟩

/-- A row that the shards answer is one that some shard answers. -/
theorem exists_of_mem_scanFromShard {columns : List RunId} {number : Nat}
    {shards : List (ShardFilter × Registry)} {rows : List Row}
    (h : scanFromShard columns options .never number shards = .ok rows) {row : Row} (hrow : row ∈ rows) :
    ∃ s ∈ shards, ∃ results : List RunResults, row ∈ (Aggregation.gather options results
      (s.2.entries.filter fun e => s.1.filter.accepts e.1 e.2)).finish options := by
  induction shards generalizing number rows with
  | nil =>
    obtain rfl := Except.ok.inj h
    cases hrow
  | cons s rest ih =>
    obtain ⟨first, hfirst, h⟩ := Outcome.bind_eq_ok_iff.1 h
    obtain ⟨others, hothers, h⟩ := Outcome.bind_eq_ok_iff.1 h
    obtain rfl := Except.ok.inj h
    rcases List.mem_append.1 hrow with hrow | hrow
    · obtain ⟨results, hresults, -⟩ := Outcome.bind_eq_ok_iff.1 hfirst
      rw [scan_never hresults] at hfirst
      exact ⟨s, List.mem_cons_self, results, Except.ok.inj hfirst ▸ hrow⟩
    · obtain ⟨s', hs', hfound⟩ := ih hothers hrow
      exact ⟨s', List.mem_cons_of_mem _ hs', hfound⟩

/-- A row of a plan is one that some shard answers. -/
theorem exists_of_mem_execute {p : Plan} {registries : List Registry} {columns : List RunId}
    {rows : List Row} (h : p.execute registries columns options = .ok rows) {row : Row}
    (hrow : row ∈ rows) : ∃ s ∈ p.shards.zip registries, ∃ results : List RunResults,
      row ∈ (Aggregation.gather options results
        (s.2.entries.filter fun e => s.1.filter.accepts e.1 e.2)).finish options := by
  obtain ⟨answer, hanswer, h⟩ := Outcome.bind_eq_ok_iff.1 h
  obtain rfl := Except.ok.inj h
  exact exists_of_mem_scanFromShard hanswer (List.mem_mergeSort.1 hrow)

/-- Columns that the first shard has no results for are refused before any name is looked at. -/
theorem execute_eq_error {p : Plan} {part : ShardFilter} {parts : List ShardFilter}
    {registries : List Registry} {columns : List RunId} {e : Error}
    (hparts : p.shards = part :: parts) (hregistries : registries ≠ [])
    (h : columns.mapM (Filter.resultsOf part.results) = .error e) :
    p.execute registries columns options = .error e := by
  obtain ⟨registry, rest, rfl⟩ := List.exists_cons_of_ne_nil hregistries
  rw [execute, executeWith, hparts, List.zip_cons_cons, scanFromShard, scan, h]
  rfl

/-- Rows of tests that ascend are already sorted, and no other order of them is. -/
theorem sortRows_eq {answer rows : List Row} (h : answer.Perm rows)
    (hrows : rows.Pairwise fun a b => a.test < b.test) : sortRows answer = rows := by
  refine Sorting.mergeSort_eq_of_perm (f := Row.test) (fun a ha b hb htest => ?_)
    (hrows.imp fun hab => String.not_lt.1 (String.lt_asymm hab)) h
  have hnodup : (rows.map Row.test).Nodup := List.pairwise_map.2 (hrows.imp String.ne_of_lt)
  exact List.inj_on_of_nodup_map hnodup ha hb htest

end ResultSearch.Plan
