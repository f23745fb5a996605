import ResultSearch.Index.Search
import ResultSearch.Proofs.Index.History
import ResultSearch.Proofs.Query.Evaluation

/-!
# Plans of an index

What binding a query to an index comes to: every shard gets the results that it holds of the queried
runs and of those that the query speaks of, and the filter that compiles over them.

* `PartOf`: the part of a plan for one shard.
* `bind_eq_ok`: what there is to a plan.
* `InStep.bind_isOk`: a query over resident runs has a plan.
-/

namespace ResultSearch

namespace Index

variable {ix : Index} {s : Shard} {ids columns : List RunId} {q : BoundQuery}

/-! ## Results of runs -/

/-- Pairs of runs with their results, as far as they go through. -/
theorem pairs_of_gather {pairs : List (RunId × RunResults)}
    (h : List.Forall₂ (fun id p => p.1 = id ∧ s.store.forRun id = some p.2) ids pairs) :
    pairs.map Prod.fst = ids ∧ ∀ p ∈ pairs, s.store.forRun p.1 = some p.2 := by
  induction h with
  | nil => exact ⟨rfl, by simp⟩
  | cons hp _ ih =>
    obtain ⟨rfl, hresults⟩ := hp
    refine ⟨by rw [List.map_cons, ih.1], fun p hmem => ?_⟩
    rcases List.mem_cons.1 hmem with rfl | hmem
    · exact hresults
    · exact ih.2 p hmem

/-- What is gathered is what the shard holds of the runs. -/
theorem get?_of_gather {results : Table RunId RunResults} (h : gather s ids = .ok results)
    (id : RunId) : results.get? id = if id ∈ ids then s.store.forRun id else none := by
  obtain ⟨pairs, hpairs, h⟩ := Outcome.bind_eq_ok_iff.1 h
  obtain rfl := Except.ok.inj h
  obtain ⟨hkeys, hvalues⟩ := pairs_of_gather <|
    (Outcome.mapM_eq_ok_iff.1 hpairs).imp fun id p hp => by
      split at hp
      · next r hr => cases hp; exact ⟨rfl, hr⟩
      · cases hp
  rw [Table.get?_ofList]
  cases hfind : Table.find id pairs.reverse with
  | none =>
    have hid := Table.find_eq_none_iff.1 hfind
    rw [List.map_reverse, List.mem_reverse, hkeys] at hid
    rw [if_neg hid]
  | some r =>
    have hmem := List.mem_reverse.1 (Table.mem_of_find_eq_some hfind)
    have hid : id ∈ ids := hkeys ▸ List.mem_map_of_mem hmem
    rw [if_pos hid, hvalues _ hmem]

theorem gather_isOk (h : ∀ id ∈ ids, s.store.contains id = true) :
    ∃ results, gather s ids = .ok results := by
  refine Outcome.exists_bind_eq_ok (Outcome.exists_mapM_eq_ok fun id hid => ?_)
  obtain ⟨r, hr⟩ := Table.contains_iff_exists.1 (h id hid)
  exact ⟨(id, r), by rw [ResultStore.forRun, hr]⟩

/-! ## Binding -/

/-- The part of a plan for a shard: the results of the runs as the shard holds them, and the filter
of the query over them. -/
structure PartOf (columns : List RunId) (q : BoundQuery) (s : Shard) (part : ShardFilter) :
    Prop where
  results : ∀ id, part.results.get? id =
    if id ∈ columns ++ q.runIds then s.store.forRun id else none
  filter : Filter.compile part.results (columns.filterMap part.results.get?) q = .ok part.filter

theorem partOf_of_bindShard {part : ShardFilter}
    (h : bindShard columns q.runIds q s = .ok part) : PartOf columns q s part := by
  obtain ⟨results, hresults, h⟩ := Outcome.bind_eq_ok_iff.1 h
  obtain ⟨filter, hfilter, h⟩ := Outcome.bind_eq_ok_iff.1 h
  obtain rfl := Except.ok.inj h
  exact ⟨get?_of_gather hresults, hfilter⟩

theorem bindShard_isOk (h : ∀ id ∈ columns ++ q.runIds, s.store.contains id = true) :
    ∃ part, bindShard columns q.runIds q s = .ok part := by
  obtain ⟨results, hresults⟩ := gather_isOk h
  have hmentions : ∀ id ∈ q.mentions, (results.get? id).isSome := by
    intro id hid
    have hid : id ∈ columns ++ q.runIds :=
      List.mem_append_right _ (BoundQuery.mem_runIds.2 hid)
    rw [get?_of_gather hresults, if_pos hid]
    exact h id hid
  obtain ⟨filter, hfilter⟩ : ∃ filter,
      Filter.compile results (columns.filterMap results.get?) q = .ok filter :=
    Filter.compile_isOk q hmentions
  exact ⟨⟨results, filter⟩, Outcome.bind_eq_ok_iff.2
    ⟨results, hresults, Outcome.bind_eq_ok_iff.2 ⟨filter, hfilter, rfl⟩⟩⟩

/-- A plan is over some runs, all that it needs are resident, and it has a part for every shard. -/
theorem bind_eq_ok {p : Plan} (h : ix.bind columns (some q) = .ok p) :
    columns ≠ [] ∧ (∀ id ∈ columns ++ q.runIds, ix.resident.contains id = true) ∧
      List.Forall₂ (PartOf columns q) ix.shards p.shards := by
  unfold bind at h
  split at h
  · cases h
  · next hne =>
    dsimp only at h
    split at h
    · cases h
    · next hfind =>
      obtain ⟨parts, hparts, h⟩ := Outcome.bind_eq_ok_iff.1 h
      obtain rfl := Except.ok.inj h
      refine ⟨by simpa using hne, ?_, ?_⟩
      · intro id hid
        simpa using List.find?_eq_none.1 hfind id hid
      · exact (Outcome.mapM_eq_ok_iff.1 hparts).imp fun s part hpart => partOf_of_bindShard hpart

end Index

namespace Chronicle.InStep

/-- A query is bound to runs if they and all that it speaks of are resident. -/
theorem bind_isOk {ix : Index} (h : InStep ix) {columns : List RunId} {q : BoundQuery}
    (hne : columns ≠ []) (hres : ∀ id ∈ columns ++ q.runIds, ix.resident.contains id = true) :
    ∃ p, ix.bind columns (some q) = .ok p := by
  have hfind : (columns ++ q.runIds).find? (fun id => !ix.resident.contains id) = none :=
    List.find?_eq_none.2 fun id hid => by simp [hres id hid]
  obtain ⟨parts, hparts⟩ := Outcome.exists_mapM_eq_ok fun s hs =>
    Index.bindShard_isOk fun id hid => (h.stores s hs id).trans (hres id hid)
  refine ⟨⟨columns, parts⟩, ?_⟩
  rw [Index.bind, if_neg (by simpa using hne)]
  dsimp only
  rw [hfind]
  exact Outcome.bind_eq_ok_iff.2 ⟨parts, hparts, rfl⟩

end Chronicle.InStep

end ResultSearch
