import ResultSearch.Proofs.Index.Flat
import ResultSearch.Proofs.Query.Meaning

/-!
# What a search depends on

The registries of an index hold names of runs that a search does not ask for, and of runs that are
gone. The restriction of a user's query lets none of them through, so that a search answers the same
on every index that holds the runs it names.

* `Flat.rows_restrictTo_congr`: names without a result in the runs of the restriction make no
  difference.
* `Index.search`: the search of a user.
* `Shares`: two indexes hold one run with one report.
* `search_eq_search`: a search answers the same where all its runs are shared.
-/

namespace ResultSearch

namespace Flat

variable {flat flat' : Flat} {compared columns ids : List RunId} {q : BoundQuery}
  {options : RowOptions}

theorem rows_congr (hfound : (flat.found compared q).Perm (flat'.found compared q))
    (hstatus : ∀ id ∈ columns, flat.status id = flat'.status id) :
    flat.rows compared columns q options = flat'.rows compared columns q options := by
  have htests : tests (flat.found compared q) = tests (flat'.found compared q) :=
    Sorting.mergeSort_eq_mergeSort (f := id) (fun _ _ _ _ => id) (hfound.map TestName.test).dedup
  have hmatch (n : TestName) : flat.toMatch columns n = flat'.toMatch columns n := by
    refine (Match.mk.injEq ..).mpr ⟨rfl, rfl, List.map_congr_left fun id hid => ?_⟩
    rw [hstatus id hid]
  rw [rows, rows, htests]
  refine List.map_congr_left fun t _ => ?_
  rw [row, row, funext hmatch]
  exact Row.ofMatches_perm ((hfound.filter _).map _)

/-- A query that is restricted to some runs finds the same wherever these and the runs that it
speaks of have the same statuses, whatever other names there are. -/
theorem rows_restrictTo_congr
    (hstatus : ∀ id ∈ compared ++ columns ++ (ids ++ q.mentions), flat.status id = flat'.status id)
    (hknown : ∀ id ∈ ids, ∀ n, flat.status id n ≠ .unknown → n ∈ flat.names ∧ n ∈ flat'.names) :
    flat.rows compared columns (q.restrictTo ids) options =
      flat'.rows compared columns (q.restrictTo ids) options := by
  have hcompared : ∀ id ∈ compared, flat.status id = flat'.status id := fun id hid =>
    hstatus id (List.mem_append_left _ (List.mem_append_left _ hid))
  have hcolumns : ∀ id ∈ columns, flat.status id = flat'.status id := fun id hid =>
    hstatus id (List.mem_append_left _ (List.mem_append_right _ hid))
  have hholds (n : TestName) : (q.restrictTo ids).holds (flat.subject compared n) =
      (q.restrictTo ids).holds (flat'.subject compared n) := by
    refine BoundQuery.holds_congr ?_ ?_ _ fun id hid => ?_
    · rfl
    · exact List.map_congr_left fun id hid => congrFun (hcompared id hid) n
    · have hmem := BoundQuery.mentions_restrictTo_subset hid
      exact congrFun (hstatus id (List.mem_append_right _ hmem)) n
  -- What is found has a result in a run of the restriction, so both know it.
  have hnames {n : TestName} (h : (q.restrictTo ids).holds (flat.subject compared n) = true) :
      n ∈ flat.names ∧ n ∈ flat'.names := by
    rw [BoundQuery.holds_restrictTo, Bool.and_eq_true, List.any_eq_true] at h
    obtain ⟨⟨id, hid, hpresent⟩, -⟩ := h
    exact hknown id hid n (of_decide_eq_true hpresent)
  refine rows_congr ((List.perm_ext_iff_of_nodup ?_ ?_).2 fun n => ?_) hcolumns
  · exact (List.nodup_dedup _).filter _
  · exact (List.nodup_dedup _).filter _
  · rw [found, found, List.mem_filter, List.mem_filter, List.mem_dedup, List.mem_dedup, ← hholds]
    constructor
    · rintro ⟨-, h⟩
      exact ⟨(hnames h).2, h⟩
    · rintro ⟨-, h⟩
      exact ⟨(hnames h).1, h⟩

end Flat

namespace Index

/-- The rows of a user's request over resident runs. -/
def search (ix : Index) (binder : Binder) (request : Request) (options : RowOptions) :
    Except Error (List Row) := do
  let p ← ix.plan binder request false
  ix.execute p request.runIds options

end Index

namespace Chronicle

/-- Both indexes hold the run, with one record and one report that was loaded for it. -/
def Shares (c d : Chronicle) (id : RunId) : Prop :=
  ∃ run report, c.index.resident.get? id = some run ∧ d.index.resident.get? id = some run ∧
    c.latest id = some ⟨run, report⟩ ∧ d.latest id = some ⟨run, report⟩

variable {c d : Chronicle} {ids : List RunId}

theorem runs_of_shares (hids : ∀ id ∈ ids, Shares c d id) :
    ∃ runs, c.index.runs ids = .ok runs ∧ d.index.runs ids = .ok runs ∧ runs.map Run.id = ids := by
  have hrun : ∀ id ∈ ids, ∃ run, c.index.run id = .ok run := by
    intro id hid
    obtain ⟨run, report, hc, -⟩ := hids id hid
    exact ⟨run, by rw [Index.run, hc]⟩
  have hsame : ∀ id ∈ ids, c.index.run id = d.index.run id := by
    intro id hid
    obtain ⟨run, report, hc, hd, -⟩ := hids id hid
    rw [Index.run, Index.run, hc, hd]
  obtain ⟨runs, hruns⟩ := Outcome.exists_mapM_eq_ok hrun
  refine ⟨runs, hruns, (Outcome.mapM_congr hsame).symm.trans hruns, ?_⟩
  have hmap := Outcome.map_of_mapM (g := Run.id) (k := id) hruns fun id hid r hr => by
    obtain ⟨run, report, hc, -, hlatest, -⟩ := hids id hid
    rw [Index.run, hc] at hr
    obtain rfl := Except.ok.inj hr
    exact (mem_of_latest hlatest).2
  rwa [List.map_id] at hmap

/-- A search of shared runs is bound on each index, and answers the rows of a flat scan. -/
theorem Consistent.search_eq_rows {hash : NameHash} {count : Nat} {request : Request}
    {runs : List Run} (binder : Binder) (options : RowOptions) (hc : Consistent hash count c)
    (hsep : Separates hash c.names) (hne : request.runIds ≠ [])
    (hruns : c.index.runs request.runIds = .ok runs) (hids : runs.map Run.id = request.runIds)
    (hres : ∀ id ∈ request.runIds, c.index.resident.contains id = true) :
    c.index.search binder request options =
      .ok (c.flat.rows request.runIds request.runIds
        ((binder.bind request.query runs).restrictTo request.runIds) options) := by
  generalize hq : (binder.bind request.query runs).restrictTo request.runIds = q
  have hmentions : ∀ id ∈ request.runIds ++ q.runIds, c.index.resident.contains id = true := by
    intro id hid
    rcases List.mem_append.1 hid with hid | hid
    · exact hres id hid
    · rw [← hq] at hid
      have hmem := BoundQuery.mentions_restrictTo_subset (BoundQuery.mem_runIds.1 hid)
      rcases List.mem_append.1 hmem with hid | hid
      · exact hres id hid
      · exact hres id (hids ▸ Binder.mem_mentions_bind _ _ hid)
  obtain ⟨p, hbind⟩ := hc.inStep.bind_isOk hne hmentions
  have hplan : c.index.plan binder request false = .ok p := by
    refine Outcome.bind_eq_ok_iff.2 ⟨runs, hruns, ?_⟩
    dsimp only
    rw [if_neg Bool.false_ne_true, hq]
    exact hbind
  refine Outcome.bind_eq_ok_iff.2 ⟨p, hplan, ?_⟩
  exact hc.execute_eq_rows hc hsep (List.Subset.refl _) hbind (List.subset_append_left _ _)
    (List.forall₂_same.2 fun r _ => .refl _)

/-- A search answers the same on any two indexes that hold the runs it names, with the same records
and reports, whatever else was ever published to either and however many shards they have. If it
names any runs it answers rows. -/
theorem search_eq_search {hash hash' : NameHash} {count count' : Nat}
    {calls calls' : List IndexCall} (binder : Binder) (request : Request) (options : RowOptions)
    (hc : replay hash count calls = .ok c) (hd : replay hash' count' calls' = .ok d)
    (hsep : Separates hash c.names) (hsep' : Separates hash' d.names)
    (hids : ∀ id ∈ request.runIds, Shares c d id) :
    c.index.search binder request options = d.index.search binder request options ∧
      (request.runIds ≠ [] → ∃ rows, c.index.search binder request options = .ok rows) := by
  by_cases hne : request.runIds = []
  · obtain ⟨ids, query⟩ := request
    obtain rfl : ids = [] := hne
    exact ⟨rfl, fun h => absurd rfl h⟩
  · obtain ⟨runs, hruns, hruns', hmap⟩ := runs_of_shares hids
    have hres : ∀ id ∈ request.runIds, c.index.resident.contains id = true ∧
        d.index.resident.contains id = true := by
      intro id hid
      obtain ⟨run, report, h, h', -⟩ := hids id hid
      exact ⟨Table.contains_iff_exists.2 ⟨run, h⟩, Table.contains_iff_exists.2 ⟨run, h'⟩⟩
    have hstatus : ∀ id ∈ request.runIds, c.status id = d.status id := by
      intro id hid
      obtain ⟨run, report, -, -, h, h'⟩ := hids id hid
      funext n
      rw [status, status, h, h']
    have hrows := (replay_consistent hc).search_eq_rows binder options hsep hne hruns hmap
      fun id hid => (hres id hid).1
    have hrows' := (replay_consistent hd).search_eq_rows binder options hsep' hne hruns' hmap
      fun id hid => (hres id hid).2
    refine ⟨?_, fun _ => ⟨_, hrows⟩⟩
    rw [hrows, hrows']
    refine congrArg Except.ok (Flat.rows_restrictTo_congr (fun id hid => ?_) ?_)
    · -- The query speaks of no runs but those that it was bound to.
      have hid : id ∈ request.runIds := by
        simp only [List.mem_append, or_self] at hid
        rcases hid with hid | hid | hid
        · exact hid
        · exact hid
        · exact hmap ▸ Binder.mem_mentions_bind _ _ hid
      exact hstatus id hid
    · intro id hid n hknown
      obtain ⟨run, report, -, -, h, h'⟩ := hids id hid
      have hn : n ∈ report.names := by
        apply Report.mem_names_of_status_ne_unknown
        have : c.flat.status id n = report.status n := by
          show c.status id n = _
          rw [status, h]
          rfl
        rwa [← this]
      exact ⟨mem_names_iff.2 ⟨_, (mem_of_latest h).1, hn⟩,
        mem_names_iff.2 ⟨_, (mem_of_latest h').1, hn⟩⟩

/-- One index has seen another run with another test come and go, and the other has not. A query for
tests that fail in no run would match that test too. -/
theorem search_after_eviction :
    let first : Report := ⟨[⟨"/a.html", .ok, none, [⟨"one", .pass, none⟩]⟩], .null⟩
    let second : Report := ⟨[⟨"/b.html", .fail, none, []⟩], .null⟩
    let run : Run := { Run.blank with id := 1 }
    let request : Request := ⟨[1], .noRun [.status none (.is .fail)]⟩
    ∃ c d, replay Hash.hashText 3 [.ingest { Run.blank with id := 2 } (.ok second), .evictAny,
        .ingest run (.ok first)] = .ok c ∧
      replay Hash.hashText 1 [.ingest run (.ok first)] = .ok d ∧
      Separates Hash.hashText c.names ∧ Separates Hash.hashText d.names ∧ Shares c d 1 ∧
      c.index.search .empty request .standard = d.index.search .empty request .standard := by
  intro first second run request
  let c : Chronicle := ((start Hash.hashText 3).afterAll
    [.ingest { Run.blank with id := 2 } (.ok second), .evictAny]).after (.ingest run (.ok first))
  let d : Chronicle := (start Hash.hashText 1).after (.ingest run (.ok first))
  have hc : replay Hash.hashText 3 [.ingest { Run.blank with id := 2 } (.ok second), .evictAny,
      .ingest run (.ok first)] = .ok c := replay_eq_ok_iff.2 ⟨by decide, rfl⟩
  have hd : replay Hash.hashText 1 [.ingest run (.ok first)] = .ok d :=
    replay_eq_ok_iff.2 ⟨by decide, rfl⟩
  have hsep : Separates Hash.hashText c.names := by decide +kernel
  have hsep' : Separates Hash.hashText d.names := by decide +kernel
  have hlatest : c.latest 1 = some ⟨run, first⟩ := latest_ingest (by decide +kernel)
  have hlatest' : d.latest 1 = some ⟨run, first⟩ := latest_ingest (by decide +kernel)
  have hshares : Shares c d 1 :=
    ⟨run, first, by decide +kernel, by decide +kernel, hlatest, hlatest'⟩
  refine ⟨c, d, hc, hd, hsep, hsep', hshares, ?_⟩
  refine (search_eq_search .empty request .standard hc hd hsep hsep' ?_).1
  simpa [request] using hshares

end Chronicle

end ResultSearch
