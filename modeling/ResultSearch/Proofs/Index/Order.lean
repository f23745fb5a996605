import ResultSearch.Proofs.Columns
import ResultSearch.Proofs.Index.Answers
import ResultSearch.Proofs.Query.Order

/-!
# Searches in another order of the runs

A user may name the runs of a search in any order. Unless the query asks for a sequence, and unless
the rows are to say how the second run differs from the first, another order finds the same tests
with the same subtests and histograms, and only the summaries of each row change their places, as
the runs do.

* `Index.userSearch`: a search over runs that were found; `Index.search_eq_userSearch`: it is what
  the search of a request comes to.
* `Index.PartOf.alike`: the parts of the two plans accept the same.
* `userSearch_perm`: the rows of a search over reordered runs.
-/

namespace ResultSearch

namespace Index

/-- The rows of a user's query over some runs. -/
def userSearch (ix : Index) (binder : Binder) (q : Query) (runs : List Run) (options : RowOptions) :
    Except Error (List Row) := do
  let p ← ix.userPlan binder q runs
  ix.execute p (runs.map Run.id) options

theorem search_eq_userSearch {ix : Index} {binder : Binder} {request : Request} {runs : List Run}
    {options : RowOptions} (hruns : ix.runs request.runIds = .ok runs)
    (hids : runs.map Run.id = request.runIds) :
    ix.search binder request options = ix.userSearch binder request.query runs options := by
  rw [search, plan, hruns, userSearch, userPlan, hids]
  rfl

/-! ## The parts of two plans -/

section Parts

variable {binder : Binder} {q : Query} {runs runs' : List Run} {s : Shard}
  {part part' : ShardFilter}

/-- A part of a user's plan holds the results of the runs, and of no others. -/
theorem PartOf.get?_results
    (h : PartOf (runs.map Run.id) ((binder.bind q runs).restrictTo (runs.map Run.id)) s part)
    (id : RunId) :
    part.results.get? id = if id ∈ runs.map Run.id then s.store.forRun id else none := by
  have hmem : id ∈ runs.map Run.id ++
      ((binder.bind q runs).restrictTo (runs.map Run.id)).runIds ↔ id ∈ runs.map Run.id := by
    rw [List.mem_append]
    exact ⟨fun hid => hid.elim (fun hid => hid) fun hid =>
      binder.runIds_restrictTo_bind_subset q runs hid, .inl⟩
  rw [h.results]
  simp only [hmem]

/-- Over the same runs in another order a query without a sequence accepts the same. -/
theorem PartOf.alike (hq : q.isUnordered = true) (hperm : runs.Perm runs')
    (h : PartOf (runs.map Run.id) ((binder.bind q runs).restrictTo (runs.map Run.id)) s part)
    (h' : PartOf (runs'.map Run.id) ((binder.bind q runs').restrictTo (runs'.map Run.id)) s
      part') : part.Alike part' := by
  have hids : (runs.map Run.id).Perm (runs'.map Run.id) := hperm.map _
  have hresults : part'.results.get? = part.results.get? := by
    funext id
    rw [h'.get?_results, h.get?_results]
    simp only [hids.mem_iff]
  refine ⟨hresults, fun f name => ?_⟩
  have hsame : (Subject.under part'.results
      ((runs'.map Run.id).filterMap part'.results.get?) f name).SameButOrder
        (Subject.under part.results ((runs.map Run.id).filterMap part.results.get?) f name) :=
    { name := rfl
      status := by
        funext id
        simp only [Subject.under, hresults]
      compared := by
        rw [hresults]
        exact (hids.symm.filterMap _).map _ }
  rw [Filter.accepts_eq_holds f name _ h'.filter, Filter.accepts_eq_holds f name _ h.filter,
    BoundQuery.holds_restrictTo, BoundQuery.holds_restrictTo, Binder.holds_bind,
    Binder.holds_bind, hsame.status, hids.any_eq, Query.holds_perm hsame q hq _ _ hperm.symm]

end Parts

end Index

/-! ## The whole search -/

namespace Chronicle

variable {hash : NameHash} {count : Nat} {c : Chronicle}

/-- A search over resident runs without a sequence and without differences answers, and over the
runs in another order it answers the same rows with their summaries in that order. -/
theorem userSearch_perm {calls : List IndexCall} {q : Query} {options : RowOptions}
    {runs runs' : List Run} (h : replay hash count calls = .ok c) (binder : Binder)
    (hq : q.isUnordered = true) (hdiff : options.includeDiff = false) (hne : runs ≠ [])
    (hres : ∀ r ∈ runs, c.index.resident.contains r.id = true) (hperm : runs.Perm runs') :
    ∃ rows, c.index.userSearch binder q runs options = .ok rows ∧
      (∃ places, places.Perm (List.range runs.length) ∧ reorder places runs = runs') ∧
      ∀ places, places.Perm (List.range runs.length) → reorder places runs = runs' →
        c.index.userSearch binder q runs' options = .ok (rows.map (Row.reorder places)) := by
  have hc := replay_consistent h
  have hne' : runs' ≠ [] := fun hnil => hne (hperm.trans (.of_eq hnil)).eq_nil
  have hres' : ∀ r ∈ runs', c.index.resident.contains r.id = true :=
    fun r hr => hres r (hperm.mem_iff.2 hr)
  obtain ⟨p, hp⟩ := hc.inStep.userPlan_isOk binder q hne hres
  obtain ⟨p', hp'⟩ := hc.inStep.userPlan_isOk binder q hne' hres'
  obtain ⟨-, hbound, hparts⟩ := Index.bind_eq_ok hp
  obtain ⟨-, -, hparts'⟩ := Index.bind_eq_ok hp'
  have halike : List.Forall₂ ShardFilter.Alike p.shards p'.shards :=
    Outcome.forall₂_of_common hparts hparts' fun _ _ _ hpart hpart' =>
      hpart.alike hq hperm hpart'
  have hknown : ∀ part ∈ p.shards, ∀ id ∈ runs.map Run.id, (part.results.get? id).isSome := by
    intro part hpart id hid
    obtain ⟨i, hi⟩ := List.getElem?_of_mem hpart
    obtain ⟨s, hs, hpart⟩ := Outcome.getElem?_of_forall₂ hparts hi
    exact (hc.get?_part_isSome hbound (List.mem_of_getElem? hs) hpart).2
      (List.mem_append_left _ hid)
  have hexecute : ∀ places, places.Perm (List.range runs.length) →
      ∃ rows, c.index.execute p (runs.map Run.id) options = .ok rows ∧
        c.index.execute p' (reorder places (runs.map Run.id)) options =
          .ok (rows.map (Row.reorder places)) := by
    intro places hplaces
    have hplaces : places.Perm (List.range (runs.map Run.id).length) := by
      rwa [List.length_map]
    exact Plan.execute_reorder halike hplaces hdiff hknown c.index.registries
  obtain ⟨places, hplaces, hreorder⟩ := exists_reorder_of_perm hperm
  obtain ⟨rows, hrows, -⟩ := hexecute places hplaces
  refine ⟨rows, Outcome.bind_eq_ok_iff.2 ⟨p, hp, hrows⟩, ⟨places, hplaces, hreorder⟩, ?_⟩
  intro places hplaces hreorder
  obtain ⟨rows', hrows', hanswer⟩ := hexecute places hplaces
  obtain rfl : rows' = rows := Except.ok.inj (hrows'.symm.trans hrows)
  rw [reorder_map, hreorder] at hanswer
  exact Outcome.bind_eq_ok_iff.2 ⟨p', hp', hanswer⟩

/-- Three runs are searched, two of them one and the same, for tests that pass in more than one of
them; then the one that is different comes first. -/
theorem userSearch_perm_with_repetition :
    let report : Report := ⟨[⟨"/a.html", .ok, none, [⟨"one", .pass, none⟩]⟩], .null⟩
    let run (id : RunId) : Run := { Run.blank with id, timeStart := ⟨id, 0⟩ }
    let calls : List IndexCall := [.ingest (run 1) (.ok report), .evictAny,
      .ingest (run 2) (.ok report), .ingest (run 3) (.ok report)]
    let query : Query := .and [.tally .moreThan 1 (.status none (.is .pass)),
      .not (.quality .different)]
    let options : RowOptions := ⟨true, true, true, false, .standard⟩
    ∃ c rows, replay Hash.hashText 2 calls = .ok c ∧ query.isUnordered = true ∧
      options.includeDiff = false ∧
      (∀ r ∈ [run 2, run 2, run 3], c.index.resident.contains r.id = true) ∧
      c.index.userSearch .empty query [run 2, run 2, run 3] options = .ok rows ∧
      c.index.userSearch .empty query [run 3, run 2, run 2] options =
        .ok (rows.map (Row.reorder [2, 0, 1])) := by
  intro report run calls query options
  let c : Chronicle := (start Hash.hashText 2).afterAll calls
  have hreplay : replay Hash.hashText 2 calls = .ok c := replay_eq_ok_iff.2 ⟨by decide, rfl⟩
  have hres : ∀ r ∈ [run 2, run 2, run 3], c.index.resident.contains r.id = true := by
    decide +kernel
  clear_value c
  have hquery : query.isUnordered = true := rfl
  have hdiff : options.includeDiff = false := rfl
  have hperm : [run 2, run 2, run 3].Perm [run 3, run 2, run 2] := by decide
  have hplaces : [2, 0, 1].Perm (List.range [run 2, run 2, run 3].length) := by decide
  obtain ⟨rows, hrows, -, hreordered⟩ :=
    userSearch_perm hreplay .empty hquery hdiff (by simp) hres hperm
  exact ⟨c, rows, hreplay, hquery, hdiff, hres, hrows, hreordered [2, 0, 1] hplaces rfl⟩

end Chronicle

end ResultSearch
