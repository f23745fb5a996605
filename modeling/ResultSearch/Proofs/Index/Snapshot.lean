import ResultSearch.Proofs.Index.Isolation

/-!
# Plans are snapshots

A plan keeps the results that it was bound over, but it goes through the names as they are when it
is executed. Evicting takes no name away, so that it changes nothing for any plan. Publishing brings
new names: what they have no result for in the runs of the plan, a query that is restricted to some
of these runs does not find.

* `Index.registries_evict`, `registries_evictions`: evicting leaves all names.
* `Consistent.execute_eq_error`: columns that a plan has no results for are refused at any time.
* `Consistent.execute_isOk`: a plan answers over all columns that it has results for.
* `Consistent.execute_restricted_eq`: a restricted plan answers the same however the names grew.
* `execute_after_binding`: what this means for any later calls.
-/

namespace ResultSearch

namespace IndexCall

/-- Whether the call can do no more than take runs away. -/
def isEviction : IndexCall → Bool
  | .evict _ => true
  | .evictAny => true
  | _ => false

end IndexCall

/-! ## Evicting leaves the names -/

namespace Index

variable {ix : Index}

theorem registries_withoutRuns {ids : List RunId} :
    (ix.withoutRuns ids).registries = ix.registries := by
  rw [registries, withoutRuns, List.map_map]
  rfl

theorem registries_evictOldest (h : Chronicle.InStep ix) (count : Nat) :
    (ix.evictOldest count).2.registries = ix.registries := by
  rw [h.evictOldest_eq]
  exact registries_withoutRuns

theorem registries_evict (h : Chronicle.InStep ix) (fraction : Float) :
    (ix.evict fraction).2.registries = ix.registries := by
  unfold evict
  split
  · rfl
  · exact registries_evictOldest h _

theorem registries_evictAny (h : Chronicle.InStep ix) :
    ix.evictAny.2.registries = ix.registries := by
  unfold evictAny
  split
  · rfl
  · exact registries_evictOldest h 1

end Index

namespace Chronicle

variable {hash : NameHash} {count : Nat} {c d : Chronicle} {ids columns : List RunId}
  {q : BoundQuery} {p : Plan} {options : RowOptions}

namespace Consistent

/-- No eviction takes a name away. -/
theorem registries_evictions (hc : Consistent hash count c) {calls : List IndexCall}
    (hcalls : ∀ call ∈ calls, call.isEviction = true) :
    (c.afterAll calls).index.registries = c.index.registries := by
  induction calls generalizing c with
  | nil => rfl
  | cons call rest ih =>
    have hrest := ih (hc.after call) fun x hx => hcalls x (List.mem_cons_of_mem _ hx)
    refine hrest.trans ?_
    cases call with
    | evict fraction => exact Index.registries_evict hc.inStep fraction
    | evictAny => exact Index.registries_evictAny hc.inStep
    | ingest | begin | deliver | abandon => cases hcalls _ List.mem_cons_self

/-- In every part of a plan there are results of the runs of the plan and of those that the query
speaks of, and of no others. -/
theorem get?_part_isSome (hc : Consistent hash count c)
    (hres : ∀ id ∈ ids ++ q.runIds, c.index.resident.contains id = true) {s : Shard}
    (hs : s ∈ c.index.shards) {part : ShardFilter} (hpart : Index.PartOf ids q s part)
    {id : RunId} : (part.results.get? id).isSome = true ↔ id ∈ ids ++ q.runIds := by
  rw [hpart.results]
  constructor
  · intro h
    by_contra hid
    rw [if_neg hid] at h
    cases h
  · intro hid
    rw [if_pos hid]
    exact (hc.inStep.stores s hs id).trans (hres id hid)

/-- Every part of a plan has results of all the columns that the plan has. -/
theorem mapM_resultsOf_isOk (hc : Consistent hash count c)
    (hbind : c.index.bind ids (some q) = .ok p) (hcolumns : columns ⊆ ids ++ q.runIds)
    {part : ShardFilter} (hpart : part ∈ p.shards) :
    ∃ results, columns.mapM (Filter.resultsOf part.results) = .ok results := by
  obtain ⟨-, hres, hparts⟩ := Index.bind_eq_ok hbind
  obtain ⟨i, hi⟩ := List.getElem?_of_mem hpart
  obtain ⟨shard, hshard, hpart⟩ := Outcome.getElem?_of_forall₂ hparts hi
  refine Outcome.exists_mapM_eq_ok fun id hid => Filter.resultsOf_isOk ?_
  exact (hc.get?_part_isSome hres (List.mem_of_getElem? hshard) hpart).2 (hcolumns hid)

/-- A plan answers over all columns that it has results for. -/
theorem execute_isOk (hc : Consistent hash count c) (hbind : c.index.bind ids (some q) = .ok p)
    (hcolumns : columns ⊆ ids ++ q.runIds) (registries : List Registry) :
    ∃ rows, p.execute registries columns options = .ok rows := by
  refine Outcome.exists_bind_eq_ok (Plan.scanFromShard_isOk fun s hs => ?_)
  exact hc.mapM_resultsOf_isOk hbind hcolumns (List.of_mem_zip hs).1

/-- Columns that a plan has no results for are refused with one error at any time. -/
theorem execute_eq_error (hc : Consistent hash count c)
    (hbind : c.index.bind ids (some q) = .ok p) (hcolumns : ¬ columns ⊆ ids ++ q.runIds) :
    ∃ e, ∀ registries, registries ≠ [] → p.execute registries columns options = .error e := by
  obtain ⟨-, hres, hparts⟩ := Index.bind_eq_ok hbind
  have hlength : 0 < c.index.shards.length := by rw [hc.length_eq]; exact hc.count_pos
  obtain ⟨s, shards, hshards⟩ := List.exists_cons_of_length_pos hlength
  rw [hshards] at hparts
  cases hp : p.shards with
  | nil => rw [hp] at hparts; cases hparts
  | cons part parts =>
    rw [hp, List.forall₂_cons] at hparts
    have hs : s ∈ c.index.shards := hshards ▸ List.mem_cons_self
    cases hmap : columns.mapM (Filter.resultsOf part.results) with
    | error e => exact ⟨e, fun registries hne => Plan.execute_eq_error hp hne hmap⟩
    | ok results =>
      refine absurd (fun id hid => ?_) hcolumns
      apply (hc.get?_part_isSome hres hs hparts.1).1
      obtain ⟨i, hi⟩ := List.getElem?_of_mem hid
      obtain ⟨r, hr⟩ := Outcome.getElem?_of_forall₂ (Outcome.mapM_eq_ok_iff.1 hmap).flip hi
      rw [Filter.get?_of_resultsOf hr.2]
      rfl

/-- A plan whose query is restricted to some runs answers at a later time, whatever names have come
since and in whichever order they are gone through, what it answered when it was bound. -/
theorem execute_restricted_eq {wanted : List RunId} {registries : List Registry}
    (hc : Consistent hash count c) (hd : Consistent hash count d) (hsep : Separates hash d.names)
    (hsub : c.names ⊆ d.names) (hbind : c.index.bind ids (some (q.restrictTo wanted)) = .ok p)
    (hregistries : List.Forall₂ (fun r r' => r.entries.Perm r'.entries) registries
      d.index.registries) :
    p.execute registries columns options = c.index.execute p columns options := by
  by_cases hcolumns : columns ⊆ ids ++ (q.restrictTo wanted).runIds
  · have hsep' : Separates hash c.names :=
      ⟨fun n hn m hm => hsep.tests n (hsub hn) m (hsub hm),
        fun n hn m hm => hsep.subtests n (hsub hn) m (hsub hm)⟩
    have hnow : c.index.execute p columns options = _ :=
      hc.execute_eq_rows hc hsep' (List.Subset.refl _) hbind hcolumns
        (List.forall₂_same.2 fun r _ => .refl _)
    rw [hc.execute_eq_rows hd hsep hsub hbind hcolumns hregistries, hnow]
    refine congrArg Except.ok (Flat.rows_restrictTo_congr (fun _ _ => rfl) fun id _ n hknown => ?_)
    -- A name with a status in one of the runs was published before the plan was bound.
    have hn : n ∈ c.names := by
      have hstatus : ((c.latest id).map fun p => p.report.status n).getD .unknown ≠ .unknown :=
        hknown
      cases hlatest : c.latest id with
      | none => rw [hlatest] at hstatus; exact absurd rfl hstatus
      | some published =>
        rw [hlatest] at hstatus
        exact mem_names_iff.2
          ⟨published, (mem_of_latest hlatest).1, Report.mem_names_of_status_ne_unknown hstatus⟩
    exact ⟨hsub hn, hn⟩
  · obtain ⟨e, he⟩ : ∃ e, ∀ registries, registries ≠ [] →
        p.execute registries columns options = .error e := hc.execute_eq_error hbind hcolumns
    have hne {b : Chronicle} (hb : Consistent hash count b) : b.index.registries ≠ [] := by
      have hlength : b.index.registries.length = count := (List.length_map _).trans hb.length_eq
      exact List.ne_nil_of_length_pos (hlength.symm ▸ hb.count_pos)
    have hregistries_ne : registries ≠ [] := by
      rintro rfl
      exact hne hd (List.forall₂_nil_left_iff.1 hregistries)
    exact (he registries hregistries_ne).trans (he _ (hne hc)).symm

end Consistent

/-- What was published stays published. -/
theorem names_subset_of_move (h : Move c d) : c.names ⊆ d.names := by
  cases h with
  | mark => exact List.Subset.refl _
  | publish => exact List.subset_append_right _ _
  | evict => exact List.Subset.refl _

theorem Consistent.names_subset_afterAll (hc : Consistent hash count c) (calls : List IndexCall) :
    c.names ⊆ (c.afterAll calls).names := by
  induction calls generalizing c with
  | nil => exact List.Subset.refl _
  | cons call rest ih =>
    exact List.Subset.trans (names_subset_of_move (move_after hc.inStep call)) (ih (hc.after call))

/-- A plan answers over all columns that it has results for. It answers the same after any
evictions; and if its query is restricted to some runs, it answers the same after any calls, also
when these runs have gone and come again with other reports. -/
theorem execute_after_binding {calls : List IndexCall} (h : replay hash count calls = .ok c)
    (hbind : c.index.bind ids (some q) = .ok p) :
    (columns ⊆ ids ++ q.runIds → ∃ rows, c.index.execute p columns options = .ok rows) ∧
      (∀ evictions : List IndexCall, (∀ call ∈ evictions, call.isEviction = true) →
        (c.afterAll evictions).index.execute p columns options =
          c.index.execute p columns options) ∧
      ∀ (wanted : List RunId) (query : BoundQuery), q = query.restrictTo wanted →
        ∀ later : List IndexCall, Separates hash (c.afterAll later).names →
          (c.afterAll later).index.execute p columns options =
              c.index.execute p columns options ∧
            ∀ registries, List.Forall₂ (fun r r' => r.entries.Perm r'.entries) registries
              (c.afterAll later).index.registries →
                p.execute registries columns options = c.index.execute p columns options := by
  have hc := replay_consistent h
  refine ⟨fun hcolumns => hc.execute_isOk hbind hcolumns _, fun evictions hevictions => ?_, ?_⟩
  · rw [Index.execute, hc.registries_evictions hevictions]
    rfl
  · rintro wanted query rfl later hsep
    have hany : ∀ registries, List.Forall₂ (fun r r' => r.entries.Perm r'.entries) registries
        (c.afterAll later).index.registries →
          p.execute registries columns options = c.index.execute p columns options :=
      fun registries hregistries => hc.execute_restricted_eq (hc.afterAll later) hsep
        (hc.names_subset_afterAll later) hbind hregistries
    exact ⟨hany _ (List.forall₂_same.2 fun r _ => .refl _), hany⟩

/-- A query for tests that do not fail, restricted to one run. The run goes and comes again with
another report, whose test does not fail in the plan either, but is not found by it. -/
theorem execute_after_reingestion :
    let first : Report := ⟨[⟨"/a.html", .ok, none, [⟨"one", .pass, none⟩]⟩], .null⟩
    let second : Report := ⟨[⟨"/b.html", .fail, none, []⟩], .null⟩
    let run : Run := { Run.blank with id := 1 }
    let query : BoundQuery := .not (.status 1 (.is .fail))
    let later : List IndexCall := [.evictAny, .ingest run (.ok second)]
    ∃ c p, replay Hash.hashText 2 [.ingest run (.ok first)] = .ok c ∧
      c.index.bind [1] (some (query.restrictTo [1])) = .ok p ∧
      c.latest 1 = some ⟨run, first⟩ ∧ (c.afterAll later).latest 1 = some ⟨run, second⟩ ∧
      (∃ rows, c.index.execute p [1] .standard = .ok rows ∧ rows.map Row.test = ["/a.html"]) ∧
      (c.afterAll [.evictAny]).index.execute p [1] .standard =
        c.index.execute p [1] .standard ∧
      (c.afterAll later).index.execute p [1] .standard = c.index.execute p [1] .standard := by
  intro first second run query later
  let c : Chronicle := (start Hash.hashText 2).after (.ingest run (.ok first))
  have hc : replay Hash.hashText 2 [.ingest run (.ok first)] = .ok c :=
    replay_eq_ok_iff.2 ⟨by decide, rfl⟩
  have hresident : ∀ id ∈ [1] ++ (query.restrictTo [1]).runIds,
      c.index.resident.contains id = true := by decide +kernel
  obtain ⟨p, hp⟩ := (replay_consistent hc).inStep.bind_isOk (by decide) hresident
  obtain ⟨hisOk, hevictions, hrestricted⟩ :=
    @execute_after_binding _ _ _ _ [1] _ _ .standard _ hc hp
  obtain ⟨rows, hrows⟩ := hisOk (by decide +kernel)
  have htests : (c.index.execute p [1] .standard).map (List.map Row.test) = .ok ["/a.html"] := by
    have : (c.index.bind [1] (some (query.restrictTo [1]))).bind (fun p =>
        (c.index.execute p [1] .standard).map (List.map Row.test)) = .ok ["/a.html"] := by
      decide +kernel
    rwa [hp] at this
  rw [hrows] at htests
  have hsep : Separates Hash.hashText (c.afterAll later).names := by decide +kernel
  have hlatest : (c.afterAll later).latest 1 = some ⟨run, second⟩ := by
    have hevicted : ((c.after .evictAny).index.ingest (fun _ => .ok second) run).1 = .ok () := by
      decide +kernel
    have hlast : c.afterAll later = (c.after .evictAny).after (.ingest run (.ok second)) := rfl
    rw [hlast]
    exact latest_ingest hevicted
  exact ⟨c, p, hc, hp, latest_ingest (by decide +kernel), hlatest,
    ⟨rows, hrows, Except.ok.inj htests⟩, hevictions [.evictAny] (by decide),
    (hrestricted [1] query rfl later hsep).1⟩

end Chronicle

end ResultSearch
