import ResultSearch.Proofs.Plan
import ResultSearch.Proofs.Query.Evaluation

/-!
# The order of the columns

The columns of a search can be asked for in another order. Then the summaries of every row come in
that order, and nothing else about the rows changes, unless they are to say how the second of two
columns differs from the first.

* `reorder`: a list in another order, given by the places that its members come from.
* `Aggregation.gather_reorder`: what is gathered over reordered columns.
* `Plan.execute_reorder`: what a plan answers over reordered columns.
-/

namespace ResultSearch

/-! ## Lists in another order -/

/-- What stands at some places of a list, place by place. -/
def reorder {α : Type} (places : List Nat) (l : List α) : List α := places.filterMap fun i => l[i]?

section Reorder

variable {α β γ : Type} {places : List Nat}

theorem reorder_map (f : α → β) (l : List α) :
    reorder places (l.map f) = (reorder places l).map f := by
  simp [reorder, List.map_filterMap]

theorem reorder_range (l : List α) : reorder (List.range l.length) l = l := by
  induction l with
  | nil => rfl
  | cons a rest ih =>
    rw [reorder, List.length_cons, List.range_succ_eq_map, List.filterMap_cons]
    simpa [reorder, List.filterMap_map, Function.comp_def] using ih

theorem reorder_perm {l : List α} (h : places.Perm (List.range l.length)) :
    (reorder places l).Perm l := by
  have hperm : (reorder places l).Perm (reorder (List.range l.length) l) := h.filterMap _
  rwa [reorder_range] at hperm

theorem reorder_replicate {n : Nat} (h : places.Perm (List.range n)) (a : α) :
    reorder places (List.replicate n a) = List.replicate n a :=
  List.perm_replicate.1 (reorder_perm (by rwa [List.length_replicate]))

theorem reorder_zipWith (f : α → β → γ) {l : List α} {m : List β}
    (hl : ∀ i ∈ places, i < l.length) (hm : ∀ i ∈ places, i < m.length) :
    reorder places (List.zipWith f l m) = List.zipWith f (reorder places l) (reorder places m) := by
  induction places with
  | nil => rfl
  | cons i rest ih =>
    have hrest := ih (fun j hj => hl j (List.mem_cons_of_mem _ hj))
      fun j hj => hm j (List.mem_cons_of_mem _ hj)
    have hi := hl i List.mem_cons_self
    have hi' := hm i List.mem_cons_self
    have hil := List.getElem?_eq_getElem hi
    have him := List.getElem?_eq_getElem hi'
    have hzip : (List.zipWith f l m)[i]? = some (f l[i] m[i]) :=
      List.getElem?_zipWith_eq_some.2 ⟨_, _, hil, him, rfl⟩
    rw [reorder, List.filterMap_cons_some hzip, reorder, List.filterMap_cons_some hil, reorder,
      List.filterMap_cons_some him, List.zipWith_cons_cons]
    exact congrArg _ hrest

theorem forall₂_reorder {R : α → β → Prop} {l : List α} {m : List β} (h : List.Forall₂ R l m) :
    List.Forall₂ R (reorder places l) (reorder places m) := by
  induction places with
  | nil => exact .nil
  | cons i rest ih =>
    rw [reorder, reorder, List.filterMap_cons, List.filterMap_cons]
    by_cases hi : i < m.length
    · obtain ⟨a, ha, hab⟩ := Outcome.getElem?_of_forall₂ h (List.getElem?_eq_getElem hi)
      rw [ha, List.getElem?_eq_getElem hi]
      exact .cons hab ih
    · have hi' : m.length ≤ i := by omega
      rw [List.getElem?_eq_none hi', List.getElem?_eq_none (h.length_eq ▸ hi')]
      exact ih

/-- Every order of a list comes from some places. -/
theorem exists_reorder_of_perm {l r : List α} (h : l.Perm r) :
    ∃ places, places.Perm (List.range l.length) ∧ reorder places l = r := by
  have hat : List.Forall₂ (fun a i => l[i]? = some a) l (List.range l.length) := by
    refine List.forall₂_iff_get.2 ⟨by simp, fun i hi _ => ?_⟩
    simp
  obtain ⟨places, hplaces, hperm⟩ := List.perm_comp_forall₂ h.symm hat
  refine ⟨places, hperm, ?_⟩
  clear h hat hperm
  induction hplaces with
  | nil => rfl
  | cons ha _ ih => rw [reorder, List.filterMap_cons_some ha, ← ih, reorder]

end Reorder

/-! ## Rows -/

namespace Row

/-- A row with its summaries in another order. -/
def reorder (places : List Nat) (row : Row) : Row :=
  { row with perRun := ResultSearch.reorder places row.perRun }

end Row

namespace Aggregation

variable {options : RowOptions} {columns : List RunResults} {places : List Nat}

theorem blankRow_reorder (h : places.Perm (List.range columns.length)) (test : String) :
    (blankRow test columns.length).reorder places = blankRow test columns.length := by
  rw [blankRow, Row.reorder, reorder_replicate h]

theorem diff_addToRow (hdiff : options.includeDiff = false) (f : Fingerprint) (name : TestName)
    (row : Row) : (addToRow columns options f name row).diff = row.diff := by
  dsimp only [addToRow]
  split <;> simp [hdiff]

/-- Without differences a match counts the same wherever its columns stand. -/
theorem addToRow_reorder (h : places.Perm (List.range columns.length))
    (hdiff : options.includeDiff = false) {f : Fingerprint} {name : TestName} {row : Row}
    (hrow : row.perRun.length = columns.length) :
    addToRow (reorder places columns) options f name (row.reorder places) =
      (addToRow columns options f name row).reorder places := by
  have hlt : ∀ i ∈ places, i < columns.length := fun i hi => List.mem_range.1 (h.subset hi)
  have hlength : (reorder places columns).length = columns.length := (reorder_perm h).length_eq
  have hperm : (reorder places (columns.map fun results => results.get f)).Perm
      (columns.map fun results => results.get f) := reorder_perm (by rwa [List.length_map])
  have hpassing : passing options f (reorder places (columns.map fun results => results.get f)) =
      passing options f (columns.map fun results => results.get f) := hperm.countP_eq _
  refine (Row.mk.injEq ..).mpr ⟨rfl, ?_, ?_, rfl, ?_⟩
  · rw [← reorder_map]
    exact (reorder_zipWith _ (by rwa [hrow]) (by rwa [List.length_map])).symm
  · rw [← reorder_map, hpassing, hlength]
    rfl
  · exact (diff_addToRow hdiff f name _).trans (diff_addToRow hdiff f name row).symm

/-- The rows with their summaries in another order. -/
def reorder (places : List Nat) (a : Aggregation) : Aggregation :=
  ⟨a.rows.mapValues (Row.reorder places)⟩

theorem add_reorder (h : places.Perm (List.range columns.length))
    (hdiff : options.includeDiff = false) {a : Aggregation} {f : Fingerprint} {name : TestName}
    (hrows : ∀ key row, a.rows.get? key = some row → row.perRun.length = columns.length) :
    (a.reorder places).add (ResultSearch.reorder places columns) options f name =
      (a.add columns options f name).reorder places := by
  have hlength := (reorder_perm h).length_eq
  have hrow : ((a.reorder places).rows.get? f.test).getD
      (blankRow name.test (ResultSearch.reorder places columns).length) =
        ((a.rows.get? f.test).getD (blankRow name.test columns.length)).reorder places := by
    rw [reorder, Table.get?_mapValues, hlength]
    cases a.rows.get? f.test with
    | none => exact (blankRow_reorder h name.test).symm
    | some row => rfl
  have hperRun : ((a.rows.get? f.test).getD (blankRow name.test columns.length)).perRun.length =
      columns.length := by
    cases hget : a.rows.get? f.test with
    | none => exact List.length_replicate
    | some row => exact hrows f.test row hget
  rw [add, hrow, addToRow_reorder h hdiff hperRun, reorder, reorder, add, Table.mapValues_set]

theorem length_perRun_gather {found : List (Fingerprint × TestName)} {key : UInt64} {row : Row}
    (hrow : (gather options columns found).rows.get? key = some row) :
    row.perRun.length = columns.length := by
  rw [get?_rows_gather] at hrow
  obtain ⟨e, -, rfl⟩ := Option.map_eq_some_iff.1 hrow
  simp [gathered]

/-- What is gathered over reordered columns has its summaries reordered. -/
theorem gather_reorder (h : places.Perm (List.range columns.length))
    (hdiff : options.includeDiff = false) (found : List (Fingerprint × TestName)) :
    gather options (ResultSearch.reorder places columns) found =
      (gather options columns found).reorder places := by
  induction found using List.reverseRecOn with
  | nil => rfl
  | append_singleton l e ih =>
    rw [gather_append, ih, gather_append]
    exact add_reorder h hdiff fun _ _ => length_perRun_gather

theorem finish_reorder (a : Aggregation) :
    (a.reorder places).finish options = (a.finish options).map (Row.reorder places) := by
  simp [finish, reorder, Table.values, Table.mapValues, Function.comp_def, finishRow, Row.reorder]

end Aggregation

/-! ## Plans -/

/-- Two parts of plans that hold the same results and accept the same. -/
structure ShardFilter.Alike (part part' : ShardFilter) : Prop where
  results : part'.results.get? = part.results.get?
  accepts : ∀ f name, part'.filter.accepts f name = part.filter.accepts f name

namespace Plan

variable {options : RowOptions} {columns : List RunId} {places : List Nat}

theorem mapM_resultsOf_reorder {results : Table RunId RunResults} {found : List RunResults}
    (h : columns.mapM (Filter.resultsOf results) = .ok found) (places : List Nat) :
    (reorder places columns).mapM (Filter.resultsOf results) = .ok (reorder places found) :=
  Outcome.mapM_eq_ok_iff.2 (forall₂_reorder (Outcome.mapM_eq_ok_iff.1 h))

/-- A shard that answers some rows answers them over reordered columns, reordered. -/
theorem scan_reorder (registry : Registry) (shard : Nat) {part part' : ShardFilter}
    (halike : part.Alike part') (hplaces : places.Perm (List.range columns.length))
    (hdiff : options.includeDiff = false)
    (hknown : ∀ id ∈ columns, (part.results.get? id).isSome) :
    ∃ rows, scan part registry columns options (StopCheck.never shard) = .ok rows ∧
      scan part' registry (reorder places columns) options (StopCheck.never shard) =
        .ok (rows.map (Row.reorder places)) := by
  obtain ⟨found, hfound⟩ : ∃ found, columns.mapM (Filter.resultsOf part.results) = .ok found :=
    Outcome.exists_mapM_eq_ok fun id hid => Filter.resultsOf_isOk (hknown id hid)
  have hsame : Filter.resultsOf part'.results = Filter.resultsOf part.results := by
    funext id
    rw [Filter.resultsOf, halike.results, Filter.resultsOf]
  have hfound' := mapM_resultsOf_reorder hfound places
  rw [← hsame] at hfound'
  have hlength : found.length = columns.length :=
    (Outcome.mapM_eq_ok_iff.1 hfound).length_eq.symm
  refine ⟨_, scan_never hfound, ?_⟩
  rw [scan_never hfound', Aggregation.gather_reorder (by rwa [hlength]) hdiff,
    Aggregation.finish_reorder]
  simp only [halike.accepts]

/-- So do all shards together. -/
theorem scanFromShard_reorder (registries : List Registry) (number : Nat)
    {parts parts' : List ShardFilter} (halike : List.Forall₂ ShardFilter.Alike parts parts')
    (hplaces : places.Perm (List.range columns.length)) (hdiff : options.includeDiff = false)
    (hknown : ∀ part ∈ parts, ∀ id ∈ columns, (part.results.get? id).isSome) :
    ∃ rows, scanFromShard columns options .never number (parts.zip registries) = .ok rows ∧
      scanFromShard (reorder places columns) options .never number (parts'.zip registries) =
        .ok (rows.map (Row.reorder places)) := by
  induction halike generalizing registries number with
  | nil => exact ⟨[], rfl, rfl⟩
  | cons hpart _ ih =>
    cases registries with
    | nil => exact ⟨[], rfl, rfl⟩
    | cons registry rest =>
      obtain ⟨first, hfirst, hfirst'⟩ := scan_reorder registry number hpart hplaces hdiff
        (hknown _ List.mem_cons_self)
      obtain ⟨others, hothers, hothers'⟩ := ih rest (number + 1) fun part hpart =>
        hknown part (List.mem_cons_of_mem _ hpart)
      refine ⟨first ++ others, ?_, ?_⟩
      · rw [List.zip_cons_cons, scanFromShard, hfirst, hothers]
        rfl
      · rw [List.zip_cons_cons, scanFromShard, hfirst', hothers', List.map_append]
        rfl

theorem sortRows_reorder (rows : List Row) :
    sortRows (rows.map (Row.reorder places)) = (sortRows rows).map (Row.reorder places) := by
  have htests : ∀ a ∈ rows, ∀ b ∈ rows, decide (a.test ≤ b.test) =
      decide ((a.reorder places).test ≤ (b.reorder places).test) := fun _ _ _ _ => rfl
  exact (List.map_mergeSort htests).symm

/-- A plan answers over reordered columns what any plan with the same results answers that accepts
the same, row by row, with the summaries reordered. -/
theorem execute_reorder {p p' : Plan} (halike : List.Forall₂ ShardFilter.Alike p.shards p'.shards)
    (hplaces : places.Perm (List.range columns.length)) (hdiff : options.includeDiff = false)
    (hknown : ∀ part ∈ p.shards, ∀ id ∈ columns, (part.results.get? id).isSome)
    (registries : List Registry) :
    ∃ rows, p.execute registries columns options = .ok rows ∧
      p'.execute registries (reorder places columns) options =
        .ok (rows.map (Row.reorder places)) := by
  obtain ⟨rows, hrows, hrows'⟩ := scanFromShard_reorder registries 0 halike hplaces hdiff hknown
  refine ⟨sortRows rows, ?_, ?_⟩
  · rw [execute, executeWith, hrows]
    rfl
  · rw [execute, executeWith, hrows', ← sortRows_reorder]
    rfl

end Plan

end ResultSearch
