import ResultSearch.Proofs.Index.Snapshot

/-!
# Searches that answer

A search over resident runs is never refused. Whatever the query and the metadata, what it is bound
to speaks of no other runs, so that all the results that it needs are there.

* `Index.userPlan`: the plan of a user's query over some runs.
* `Binder.runIds_restrictTo_bind_subset`: the runs that a user's query speaks of.
* `InStep.runs_of_resident`, `InStep.userPlan_isOk`: resident runs are found, and a query over them
  has a plan.
* `search_of_resident`: after any calls the whole search answers, and its plan still does later.
-/

namespace ResultSearch

/-! ## The runs that a search speaks of -/

/-- A user's query speaks of the runs that are searched, and of no others. -/
theorem Binder.runIds_restrictTo_bind_subset (b : Binder) (q : Query) (runs : List Run) :
    ((b.bind q runs).restrictTo (runs.map Run.id)).runIds ⊆ runs.map Run.id := by
  intro id hid
  rcases List.mem_append.1 (BoundQuery.runIds_restrictTo_subset _ _ hid) with hid | hid
  · exact hid
  · exact b.runIds_bind_subset q runs hid

namespace Index

/-- The plan of a user's query over some runs. -/
def userPlan (ix : Index) (binder : Binder) (q : Query) (runs : List Run) : Except Error Plan :=
  ix.bind (runs.map Run.id) (some ((binder.bind q runs).restrictTo (runs.map Run.id)))

end Index

/-! ## Resident runs -/

namespace Chronicle

variable {hash : NameHash} {count : Nat} {c : Chronicle}

namespace InStep

variable {ix : Index}

theorem runs_of_resident (h : InStep ix) {ids : List RunId}
    (hres : ∀ id ∈ ids, ix.resident.contains id = true) :
    ∃ runs, ix.runs ids = .ok runs ∧ runs.map Run.id = ids := by
  have hrun : ∀ id ∈ ids, ∃ r, ix.run id = .ok r := by
    intro id hid
    obtain ⟨r, hr⟩ := Table.contains_iff_exists.1 (hres id hid)
    exact ⟨r, by rw [Index.run, hr]⟩
  obtain ⟨runs, hruns⟩ := Outcome.exists_mapM_eq_ok hrun
  have hids : runs.map Run.id = ids.map id := by
    refine Outcome.map_of_mapM hruns fun id _ r hr => ?_
    rw [Index.run] at hr
    split at hr
    · next r' hr' =>
      obtain rfl := Except.ok.inj hr
      exact h.ids id r' hr'
    · cases hr
  exact ⟨runs, hruns, hids.trans (List.map_id ids)⟩

/-- A user's query over resident runs has a plan. -/
theorem userPlan_isOk (h : InStep ix) (binder : Binder) (q : Query) {runs : List Run}
    (hne : runs ≠ []) (hres : ∀ r ∈ runs, ix.resident.contains r.id = true) :
    ∃ p, ix.userPlan binder q runs = .ok p := by
  have hids : ∀ id ∈ runs.map Run.id, ix.resident.contains id = true := by
    simpa using hres
  refine h.bind_isOk (by simpa using hne) fun id hid => hids id ?_
  rcases List.mem_append.1 hid with hid | hid
  · exact hid
  · exact binder.runIds_restrictTo_bind_subset q runs hid

end InStep

/-! ## The whole search -/

/-- A bound query speaks only of runs that it was bound to, and its restriction adds no runs but
those that it is restricted to. So a search over resident runs finds them, has a plan and answers,
whatever the query and the metadata; and its plan still answers after any calls that follow. -/
theorem search_of_resident {calls : List IndexCall} (h : replay hash count calls = .ok c) :
    (∀ (binder : Binder) (q : Query) (runs : List Run),
        ∀ id ∈ (binder.bind q runs).runIds, ∃ r ∈ runs, r.id = id) ∧
      (∀ (q : BoundQuery) (ids : List RunId),
        ∀ id ∈ (q.restrictTo ids).runIds, id ∈ ids ∨ id ∈ q.runIds) ∧
      ∀ (binder : Binder) (q : Query) (ids : List RunId), ids ≠ [] →
        (∀ id ∈ ids, c.index.resident.contains id = true) →
          ∃ runs p, c.index.runs ids = .ok runs ∧ runs.map Run.id = ids ∧
            c.index.bind ids (some ((binder.bind q runs).restrictTo ids)) = .ok p ∧
            ∀ (later : List IndexCall) (options : RowOptions),
              ∃ rows, (c.afterAll later).index.execute p ids options = .ok rows := by
  have hc := replay_consistent h
  refine ⟨fun binder q runs id hid => ?_, fun q ids id hid => ?_, ?_⟩
  · exact List.mem_map.1 (binder.runIds_bind_subset q runs hid)
  · exact List.mem_append.1 (q.runIds_restrictTo_subset ids hid)
  · rintro binder q _ hne hres
    obtain ⟨runs, hruns, rfl⟩ := hc.inStep.runs_of_resident hres
    have hne' : runs ≠ [] := by simpa using hne
    obtain ⟨p, hp⟩ := hc.inStep.userPlan_isOk binder q hne' (by simpa using hres)
    refine ⟨runs, p, hruns, rfl, hp, fun later options => ?_⟩
    exact hc.execute_isOk hp (List.subset_append_left _ _) _

/-- Two runs are searched, one of them twice, after another was evicted and while a fourth is being
loaded; the metadata cannot be had, and the query is about triage, windows and numbers of runs. -/
theorem search_of_resident_without_metadata :
    let report : Report := ⟨[⟨"/a.html", .ok, none, [⟨"one", .pass, none⟩]⟩], .null⟩
    let run (id : RunId) : Run := { Run.blank with id, timeStart := ⟨id, 0⟩ }
    let calls : List IndexCall := [.ingest (run 1) (.ok report), .evictAny,
      .ingest (run 2) (.ok report), .ingest (run 3) (.ok report), .begin (run 4)]
    let query : Query := .or [.triaged none, .noRun [.consecutive [.status none (.is .fail),
      .tally .moreThan 1 (.status none (.isNot .pass))]]]
    ∃ c runs p, replay Hash.hashText 2 calls = .ok c ∧
      (∀ id ∈ [3, 2, 3], c.index.resident.contains id = true) ∧
      c.index.runs [3, 2, 3] = .ok runs ∧ runs.map Run.id = [3, 2, 3] ∧
      c.index.bind [3, 2, 3] (some ((Binder.bind ⟨none, none⟩ query runs).restrictTo [3, 2, 3])) =
        .ok p ∧
      ∃ rows, c.index.execute p [3, 2, 3] .standard = .ok rows := by
  intro report run calls query
  let c : Chronicle := (start Hash.hashText 2).afterAll calls
  have hreplay : replay Hash.hashText 2 calls = .ok c := replay_eq_ok_iff.2 ⟨by decide, rfl⟩
  have hres : ∀ id ∈ [3, 2, 3], c.index.resident.contains id = true := by decide +kernel
  clear_value c
  obtain ⟨runs, p, hruns, hids, hp, hexecute⟩ :=
    (search_of_resident hreplay).2.2 ⟨none, none⟩ query [3, 2, 3] (by decide) hres
  have hnow : ∃ rows, c.index.execute p [3, 2, 3] .standard = .ok rows := hexecute [] .standard
  exact ⟨c, runs, p, hreplay, hres, hruns, hids, hp, hnow⟩

end Chronicle

end ResultSearch
