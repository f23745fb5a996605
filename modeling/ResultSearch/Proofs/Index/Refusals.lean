import ResultSearch.Proofs.Index.Snapshot

/-!
# Searches that are refused

A query is bound to runs, or it is refused for one known reason; a plan answers over columns, or it
refuses the first of them that it has no results for. Nothing else goes wrong: what the shards could
refuse on their own has been ruled out before they are asked, and where they do refuse they all give
the same reason.

* `BoundQuery.SpeaksOf`: some leaf of a query asks about a run.
* `BoundQuery.mem_runIds_iff_speaksOf`, `BoundQuery.pairwise_runIds`: the runs of a query are those
  that its leaves ask about, ascending.
* `IsFirstUnknown`: the first run that is not known.
* `Index.RefusesBind`: why a query is not bound.
* `Consistent.bind_eq_error_iff`, `Consistent.mapM_resultsOf_eq_error`: the refusals of an index and
  of the parts of a plan.
* `refusals_of_replay`: what this means after any calls.
-/

namespace ResultSearch

/-! ## The runs that a query speaks of -/

namespace BoundQuery

/-- Some leaf of the query, however deep, asks about the run. -/
inductive SpeaksOf (id : RunId) : BoundQuery → Prop
  | status (test : StatusTest) : SpeaksOf id (.status id test)
  | triaged (metadata : PathValues) : SpeaksOf id (.triaged id metadata)
  | and {q : BoundQuery} {args : List BoundQuery} : q ∈ args → SpeaksOf id q →
      SpeaksOf id (.and args)
  | or {q : BoundQuery} {args : List BoundQuery} : q ∈ args → SpeaksOf id q → SpeaksOf id (.or args)
  | not {q : BoundQuery} : SpeaksOf id q → SpeaksOf id (.not q)
  | tally {q : BoundQuery} {args : List BoundQuery} (comparison : Comparison) (count : Nat) :
      q ∈ args → SpeaksOf id q → SpeaksOf id (.tally comparison count args)

variable {id : RunId} {q : BoundQuery}

mutual

theorem speaksOf_of_mem_mentions : (q : BoundQuery) → id ∈ q.mentions → SpeaksOf id q
  | .status run test, h => by
    rw [mentions, List.mem_singleton] at h
    exact h ▸ .status test
  | .triaged run metadata, h => by
    rw [mentions, List.mem_singleton] at h
    exact h ▸ .triaged metadata
  | .and args, h => by
    obtain ⟨q, hq, hspeaks⟩ := exists_speaksOf_of_mem_mentionsAll args (by rwa [mentions] at h)
    exact .and hq hspeaks
  | .or args, h => by
    obtain ⟨q, hq, hspeaks⟩ := exists_speaksOf_of_mem_mentionsAll args (by rwa [mentions] at h)
    exact .or hq hspeaks
  | .not q, h => .not (speaksOf_of_mem_mentions q (by rwa [mentions] at h))
  | .tally comparison count args, h => by
    obtain ⟨q, hq, hspeaks⟩ := exists_speaksOf_of_mem_mentionsAll args (by rwa [mentions] at h)
    exact .tally comparison count hq hspeaks
  | .const _, h => absurd h (by simp [mentions])
  | .testName _, h => absurd h (by simp [mentions])
  | .subtestName _, h => absurd h (by simp [mentions])
  | .testPath _, h => absurd h (by simp [mentions])
  | .link _ _, h => absurd h (by simp [mentions])
  | .label _ _, h => absurd h (by simp [mentions])
  | .feature _ _, h => absurd h (by simp [mentions])
  | .quality _, h => absurd h (by simp [mentions])

theorem exists_speaksOf_of_mem_mentionsAll : (args : List BoundQuery) → id ∈ mentionsAll args →
    ∃ q ∈ args, SpeaksOf id q
  | [], h => absurd h (by simp [mentionsAll])
  | q :: rest, h => by
    rw [mentionsAll, List.mem_append] at h
    rcases h with h | h
    · exact ⟨q, List.mem_cons_self, speaksOf_of_mem_mentions q h⟩
    · obtain ⟨q', hq', hspeaks⟩ := exists_speaksOf_of_mem_mentionsAll rest h
      exact ⟨q', List.mem_cons_of_mem _ hq', hspeaks⟩

end

theorem mem_mentions_of_speaksOf (h : SpeaksOf id q) : id ∈ q.mentions := by
  induction h with
  | status test => simp [mentions]
  | triaged metadata => simp [mentions]
  | and hq _ ih => rw [mentions]; exact mem_mentionsAll.2 ⟨_, hq, ih⟩
  | or hq _ ih => rw [mentions]; exact mem_mentionsAll.2 ⟨_, hq, ih⟩
  | not _ ih => rwa [mentions]
  | tally comparison count hq _ ih => rw [mentions]; exact mem_mentionsAll.2 ⟨_, hq, ih⟩

theorem mem_runIds_iff_speaksOf : id ∈ q.runIds ↔ SpeaksOf id q :=
  mem_runIds.trans ⟨speaksOf_of_mem_mentions q, mem_mentions_of_speaksOf⟩

theorem pairwise_insertId {ids : List RunId} (h : ids.Pairwise (· < ·)) :
    (insertId id ids).Pairwise (· < ·) := by
  induction ids with
  | nil => simp [insertId]
  | cons x rest ih =>
    rw [insertId]
    obtain ⟨hx, hrest⟩ := List.pairwise_cons.1 h
    split
    · exact h
    · next hne =>
      split
      · next hlt =>
        refine List.pairwise_cons.2 ⟨fun y hy => ?_, h⟩
        rcases List.mem_cons.1 hy with rfl | hy
        · exact hlt
        · exact Int.lt_trans hlt (hx y hy)
      · next hge =>
        refine List.pairwise_cons.2 ⟨fun y hy => ?_, ih hrest⟩
        rcases mem_insertId.1 hy with rfl | hy
        · exact Int.lt_iff_le_and_ne.2 ⟨Int.not_lt.1 hge, hne⟩
        · exact hx y hy

theorem pairwise_runIds : q.runIds.Pairwise (· < ·) := by
  have h (ids acc : List RunId) (hacc : acc.Pairwise (· < ·)) :
      (ids.foldl (fun acc x => insertId x acc) acc).Pairwise (· < ·) := by
    induction ids generalizing acc with
    | nil => exact hacc
    | cons x rest ih => exact ih _ (pairwise_insertId hacc)
  exact h _ _ .nil

/-- Only one list ascends and has just the runs that a query speaks of. -/
theorem eq_runIds {ids : List RunId} (hids : ids.Pairwise (· < ·))
    (h : ∀ id, id ∈ ids ↔ SpeaksOf id q) : ids = q.runIds := by
  have hperm : ids.Perm q.runIds :=
    (List.perm_ext_iff_of_nodup (hids.imp Int.ne_of_lt) (pairwise_runIds.imp Int.ne_of_lt)).2
      fun id => (h id).trans mem_runIds_iff_speaksOf.symm
  exact hperm.eq_of_pairwise (fun a b _ _ hab hba => absurd hab (Int.lt_asymm hba)) hids
    pairwise_runIds

end BoundQuery

/-! ## The first run that is not known -/

/-- The first of some runs that is none of the known ones. -/
def IsFirstUnknown (known : RunId → Prop) (ids : List RunId) (id : RunId) : Prop :=
  ∃ before after, ids = before ++ id :: after ∧ (∀ x ∈ before, known x) ∧ ¬ known id

variable {known : RunId → Prop} {ids : List RunId} {id : RunId}

theorem IsFirstUnknown.exists_of_not_forall (h : ¬ ∀ id ∈ ids, known id) :
    ∃ id, IsFirstUnknown known ids id := by
  induction ids with
  | nil => exact absurd (fun id hid => absurd hid List.not_mem_nil) h
  | cons x rest ih =>
    by_cases hx : known x
    · obtain ⟨id, before, after, rfl, hbefore, hid⟩ := ih fun hrest => h <| by
        simpa [hx] using hrest
      exact ⟨id, x :: before, after, rfl, by simpa [hx] using hbefore, hid⟩
    · exact ⟨x, [], rest, rfl, by simp, hx⟩

theorem IsFirstUnknown.not_forall (h : IsFirstUnknown known ids id) : ¬ ∀ id ∈ ids, known id := by
  obtain ⟨before, after, rfl, -, hid⟩ := h
  exact fun hall => hid (hall id (by simp))

theorem find?_eq_some_iff_isFirstUnknown {p : RunId → Bool} (hp : ∀ id, p id = true ↔ ¬ known id) :
    ids.find? p = some id ↔ IsFirstUnknown known ids id := by
  rw [List.find?_eq_some_iff_append, hp]
  constructor
  · rintro ⟨hid, before, after, hids, hbefore⟩
    refine ⟨before, after, hids, fun x hx => ?_, hid⟩
    by_contra hunknown
    simpa [(hp x).2 hunknown] using hbefore x hx
  · rintro ⟨before, after, hids, hbefore, hid⟩
    refine ⟨hid, before, after, hids, fun x hx => ?_⟩
    rw [Bool.not_eq_true', Bool.eq_false_iff, Ne, hp, not_not]
    exact hbefore x hx

theorem IsFirstUnknown.unique {id' : RunId} (h : IsFirstUnknown known ids id)
    (h' : IsFirstUnknown known ids id') : id = id' := by
  classical
  have hunknown (x : RunId) : decide (¬ known x) = true ↔ ¬ known x := decide_eq_true_iff
  have hfind := (find?_eq_some_iff_isFirstUnknown hunknown).2 h
  exact Option.some.inj (hfind.symm.trans ((find?_eq_some_iff_isFirstUnknown hunknown).2 h'))

/-- Results are looked up for one column after the other, up to the first that has none. -/
theorem mapM_resultsOf_eq_error {results : Table RunId RunResults}
    (h : IsFirstUnknown (fun id => (results.get? id).isSome = true) ids id) :
    ids.mapM (Filter.resultsOf results) = .error (.unknownRun id) := by
  obtain ⟨before, after, rfl, hbefore, hid⟩ := h
  refine Outcome.mapM_eq_error (fun x hx => Filter.resultsOf_isOk (hbefore x hx)) ?_
  rw [Filter.resultsOf]
  split
  · next r hr => exact absurd (Option.isSome_iff_exists.2 ⟨r, hr⟩) hid
  · rfl

/-! ## Binding and executing -/

/-- Why a query over some runs has no plan. The runs are looked at first, and then those that the
query speaks of, ascending. -/
inductive Index.RefusesBind (ix : Index) : List RunId → Option BoundQuery → Error → Prop
  | noRuns (query : Option BoundQuery) : RefusesBind ix [] query .noRuns
  | noQuery {runs : List RunId} : runs ≠ [] → RefusesBind ix runs none .noQuery
  | unknownRun {runs referenced : List RunId} {q : BoundQuery} {id : RunId} : runs ≠ [] →
      referenced.Pairwise (· < ·) → (∀ x, x ∈ referenced ↔ q.SpeaksOf x) →
      IsFirstUnknown (fun x => ix.resident.contains x = true) (runs ++ referenced) id →
      RefusesBind ix runs (some q) (.unknownRun id)

namespace Chronicle

variable {hash : NameHash} {count : Nat} {c : Chronicle} {runs columns : List RunId}
  {q : BoundQuery} {p : Plan}

namespace InStep

variable {ix : Index}

theorem bind_isOk_iff (h : InStep ix) {query : Option BoundQuery} :
    (∃ p, ix.bind runs query = .ok p) ↔ runs ≠ [] ∧ ∃ q, query = some q ∧
      ∀ id, id ∈ runs ∨ q.SpeaksOf id → ix.resident.contains id = true := by
  constructor
  · rintro ⟨p, hp⟩
    cases query with
    | none =>
      rw [Index.bind] at hp
      split at hp <;> cases hp
    | some q =>
      obtain ⟨hne, hres, -⟩ := Index.bind_eq_ok hp
      refine ⟨hne, q, rfl, fun id hid => hres id ?_⟩
      rwa [List.mem_append, BoundQuery.mem_runIds_iff_speaksOf]
  · rintro ⟨hne, q, rfl, hres⟩
    refine h.bind_isOk hne fun id hid => hres id ?_
    rwa [List.mem_append, BoundQuery.mem_runIds_iff_speaksOf] at hid

/-- Once all runs are known to be resident no shard refuses, so that there is no other reason. -/
theorem bind_eq_error_iff (h : InStep ix) {query : Option BoundQuery} {e : Error} :
    ix.bind runs query = .error e ↔ ix.RefusesBind runs query e := by
  have hunknown (id : RunId) : (!ix.resident.contains id) = true ↔
      ¬ ix.resident.contains id = true := by simp
  constructor
  · intro hbind
    by_cases hne : runs = []
    · subst hne
      obtain rfl : .noRuns = e := Except.error.inj hbind
      exact .noRuns query
    have hnonempty : ¬ runs.isEmpty = true := by simpa using hne
    cases query with
    | none =>
      rw [Index.bind, if_neg hnonempty] at hbind
      obtain rfl : .noQuery = e := Except.error.inj hbind
      exact .noQuery hne
    | some q =>
      by_cases hres : ∀ id ∈ runs ++ q.runIds, ix.resident.contains id = true
      · obtain ⟨p, hp⟩ := h.bind_isOk hne hres
        rw [hp] at hbind
        cases hbind
      · obtain ⟨id, hid⟩ := IsFirstUnknown.exists_of_not_forall hres
        rw [Index.bind, if_neg hnonempty] at hbind
        dsimp only at hbind
        rw [(find?_eq_some_iff_isFirstUnknown hunknown).2 hid] at hbind
        obtain rfl : .unknownRun id = e := Except.error.inj hbind
        exact .unknownRun hne BoundQuery.pairwise_runIds
          (fun _ => BoundQuery.mem_runIds_iff_speaksOf) hid
  · rintro (_ | hne | ⟨hne, hascending, hspeaks, hid⟩)
    · rfl
    · rw [Index.bind, if_neg (by simpa using hne)]
    · obtain rfl := BoundQuery.eq_runIds hascending hspeaks
      rw [Index.bind, if_neg (by simpa using hne)]
      dsimp only
      rw [(find?_eq_some_iff_isFirstUnknown hunknown).2 hid]

end InStep

namespace Consistent

/-- Every part of a plan refuses the same column, before it looks at any name. -/
theorem mapM_resultsOf_eq_error (hc : Consistent hash count c)
    (hbind : c.index.bind runs (some q) = .ok p) {id : RunId}
    (hid : IsFirstUnknown (fun x => x ∈ runs ∨ q.SpeaksOf x) columns id) {part : ShardFilter}
    (hpart : part ∈ p.shards) :
    columns.mapM (Filter.resultsOf part.results) = .error (.unknownRun id) := by
  obtain ⟨-, hres, hparts⟩ := Index.bind_eq_ok hbind
  obtain ⟨i, hi⟩ := List.getElem?_of_mem hpart
  obtain ⟨s, hs, hpart⟩ := Outcome.getElem?_of_forall₂ hparts hi
  have hknown : (fun x => x ∈ runs ∨ q.SpeaksOf x) =
      fun x => (part.results.get? x).isSome = true := by
    funext x
    rw [hc.get?_part_isSome hres (List.mem_of_getElem? hs) hpart, List.mem_append,
      BoundQuery.mem_runIds_iff_speaksOf]
  exact ResultSearch.mapM_resultsOf_eq_error (hknown ▸ hid)

/-- A plan answers, or it refuses the first column that is none of its runs and none that its query
speaks of. -/
theorem execute_cases (hc : Consistent hash count c) (hbind : c.index.bind runs (some q) = .ok p)
    {registries : List Registry} (hregistries : registries ≠ []) (columns : List RunId)
    (options : RowOptions) :
    ((∀ id ∈ columns, id ∈ runs ∨ q.SpeaksOf id) ∧
        ∃ rows, p.execute registries columns options = .ok rows) ∨
      ∃ id, IsFirstUnknown (fun x => x ∈ runs ∨ q.SpeaksOf x) columns id ∧
        p.execute registries columns options = .error (.unknownRun id) := by
  by_cases hall : ∀ id ∈ columns, id ∈ runs ∨ q.SpeaksOf id
  · have hcolumns : columns ⊆ runs ++ q.runIds := fun id hid => by
      rw [List.mem_append, BoundQuery.mem_runIds_iff_speaksOf]
      exact hall id hid
    exact .inl ⟨hall, hc.execute_isOk hbind hcolumns registries⟩
  · obtain ⟨id, hid⟩ := IsFirstUnknown.exists_of_not_forall hall
    obtain ⟨-, -, hparts⟩ := Index.bind_eq_ok hbind
    have hlength : 0 < p.shards.length := by
      rw [← hparts.length_eq, hc.length_eq]
      exact hc.count_pos
    obtain ⟨part, parts, hshards⟩ := List.exists_cons_of_length_pos hlength
    refine .inr ⟨id, hid, Plan.execute_eq_error hshards hregistries ?_⟩
    exact hc.mapM_resultsOf_eq_error hbind hid (hshards ▸ List.mem_cons_self)

theorem execute_isOk_iff (hc : Consistent hash count c)
    (hbind : c.index.bind runs (some q) = .ok p) {registries : List Registry}
    (hregistries : registries ≠ []) {options : RowOptions} :
    (∃ rows, p.execute registries columns options = .ok rows) ↔
      ∀ id ∈ columns, id ∈ runs ∨ q.SpeaksOf id := by
  rcases hc.execute_cases hbind hregistries columns options with
    ⟨hall, hrows⟩ | ⟨id, hid, hrefused⟩
  · exact ⟨fun _ => hall, fun _ => hrows⟩
  · exact ⟨fun ⟨rows, hrows⟩ => absurd (hrows.symm.trans hrefused) nofun,
      fun hall => absurd hall hid.not_forall⟩

theorem execute_eq_error_iff (hc : Consistent hash count c)
    (hbind : c.index.bind runs (some q) = .ok p) {registries : List Registry}
    (hregistries : registries ≠ []) {options : RowOptions} {e : Error} :
    p.execute registries columns options = .error e ↔ ∃ id, e = .unknownRun id ∧
      IsFirstUnknown (fun x => x ∈ runs ∨ q.SpeaksOf x) columns id := by
  rcases hc.execute_cases hbind hregistries columns options with
    ⟨hall, rows, hrows⟩ | ⟨id, hid, hrefused⟩
  · exact ⟨fun herror => absurd (herror.symm.trans hrows) nofun,
      fun ⟨_, _, hid⟩ => absurd hall hid.not_forall⟩
  · rw [hrefused]
    constructor
    · rintro ⟨⟩
      exact ⟨id, rfl, hid⟩
    · rintro ⟨id', rfl, hid'⟩
      rw [hid.unique hid']

end Consistent

/-- After any calls a query over some runs is refused just for the reasons listed, and else has a
plan: if there are runs and a query, and all the runs and those that the query speaks of are
resident. At any later time, also when its runs are gone, the plan answers over all columns among these runs;
over other columns every part of it refuses the first that is not among them. -/
theorem refusals_of_replay {calls : List IndexCall} (h : replay hash count calls = .ok c)
    (runs : List RunId) (query : Option BoundQuery) :
    (∀ e, c.index.bind runs query = .error e ↔ c.index.RefusesBind runs query e) ∧
      ((∃ p, c.index.bind runs query = .ok p) ↔ runs ≠ [] ∧ ∃ q, query = some q ∧
        ∀ id, id ∈ runs ∨ q.SpeaksOf id → c.index.resident.contains id = true) ∧
      ∀ q p, query = some q → c.index.bind runs query = .ok p →
        ∀ (later : List IndexCall) (columns : List RunId) (options : RowOptions),
          ((∃ rows, (c.afterAll later).index.execute p columns options = .ok rows) ↔
            ∀ id ∈ columns, id ∈ runs ∨ q.SpeaksOf id) ∧
          (∀ e, (c.afterAll later).index.execute p columns options = .error e ↔
            ∃ id, e = .unknownRun id ∧
              IsFirstUnknown (fun x => x ∈ runs ∨ q.SpeaksOf x) columns id) ∧
          ∀ id, IsFirstUnknown (fun x => x ∈ runs ∨ q.SpeaksOf x) columns id →
            ∀ part ∈ p.shards, ∀ registry check,
              Plan.scan part registry columns options check = .error (.unknownRun id) := by
  have hc := replay_consistent h
  refine ⟨fun e => hc.inStep.bind_eq_error_iff, hc.inStep.bind_isOk_iff, ?_⟩
  rintro q p rfl hbind later columns options
  have hlater := hc.afterAll later
  have hne : (c.afterAll later).index.registries ≠ [] := by
    have hlength : (c.afterAll later).index.registries.length = count :=
      (List.length_map _).trans hlater.length_eq
    exact List.ne_nil_of_length_pos (hlength.symm ▸ hc.count_pos)
  refine ⟨hc.execute_isOk_iff hbind hne, fun e => hc.execute_eq_error_iff hbind hne, ?_⟩
  intro id hid part hpart registry check
  rw [Plan.scan, hc.mapM_resultsOf_eq_error hbind hid hpart]
  rfl

/-- The query speaks of runs deep inside a count. With two more leaves it is refused for the run
that comes first in order and not in the query. Its plan answers when all runs are gone, and refuses
a run that was gone before. -/
theorem refusals_of_nested_query :
    let report : Report := ⟨[⟨"/a.html", .ok, none, [⟨"one", .pass, none⟩]⟩], .null⟩
    let run (id : RunId) : Run := { Run.blank with id }
    let calls : List IndexCall := [.ingest (run 1) (.ok report), .evictAny,
      .ingest (run 2) (.ok report), .ingest (run 3) (.ok report)]
    let query : BoundQuery := .tally .moreThan 0 [.not (.status 3 (.is .fail)),
      .or [.triaged 2 PathValues.empty, .const false]]
    let wider : BoundQuery :=
      .and [query, .status 1 (.is .pass), .not (.triaged 0 PathValues.empty)]
    ∃ c p, replay Hash.hashText 2 calls = .ok c ∧
      c.index.bind [3] (some wider) = .error (.unknownRun 0) ∧
      c.index.bind [3] (some query) = .ok p ∧
      (∃ rows, (c.afterAll [.evictAny, .evictAny]).index.execute p [2, 3] .standard = .ok rows) ∧
      (c.afterAll [.evictAny, .evictAny]).index.execute p [3, 1, 9] .standard =
        .error (.unknownRun 1) := by
  intro report run calls query wider
  let c : Chronicle := (start Hash.hashText 2).afterAll calls
  have hreplay : replay Hash.hashText 2 calls = .ok c := replay_eq_ok_iff.2 ⟨by decide, rfl⟩
  have hspeaks (id : RunId) : id ∈ [2, 3] ↔ query.SpeaksOf id := by
    rw [← BoundQuery.mem_runIds_iff_speaksOf, show query.runIds = [2, 3] by decide +kernel]
  have hwider (id : RunId) : id ∈ [0, 1, 2, 3] ↔ wider.SpeaksOf id := by
    rw [← BoundQuery.mem_runIds_iff_speaksOf, show wider.runIds = [0, 1, 2, 3] by decide +kernel]
  have hthree : c.index.resident.contains 3 = true := by decide +kernel
  have htwo : c.index.resident.contains 2 = true := by decide +kernel
  have hzero : c.index.resident.contains 0 = false := by decide +kernel
  clear_value c
  have hrefused : c.index.bind [3] (some wider) = .error (.unknownRun 0) := by
    refine ((refusals_of_replay hreplay [3] (some wider)).1 _).2 ?_
    refine .unknownRun (by decide) (by decide) hwider
      ⟨[3], [1, 2, 3], rfl, by simpa using hthree, ?_⟩
    exact Bool.eq_false_iff.1 hzero
  obtain ⟨-, hisOk, hexecute⟩ := refusals_of_replay hreplay [3] (some query)
  have hresident : ∀ id, id ∈ [3] ∨ query.SpeaksOf id → c.index.resident.contains id = true := by
    intro id hid
    rw [← hspeaks] at hid
    rcases hid with hid | hid
    · exact List.mem_singleton.1 hid ▸ hthree
    · rcases List.mem_pair.1 hid with rfl | rfl
      · exact htwo
      · exact hthree
  obtain ⟨p, hp⟩ := hisOk.2 ⟨by decide, query, rfl, hresident⟩
  obtain ⟨hanswers, -⟩ := hexecute query p rfl hp [.evictAny, .evictAny] [2, 3] .standard
  obtain ⟨-, hrefuses, -⟩ := hexecute query p rfl hp [.evictAny, .evictAny] [3, 1, 9] .standard
  refine ⟨c, p, hreplay, hrefused, hp, hanswers.2 fun id hid => .inr ((hspeaks id).1 hid), ?_⟩
  refine (hrefuses _).2 ⟨1, rfl, [3], [9], rfl, by simp, ?_⟩
  dsimp only
  rw [← hspeaks]
  decide

end Chronicle

end ResultSearch
