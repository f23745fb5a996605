import ResultSearch.Proofs.Index.ShardCount
import ResultSearch.Proofs.Plan

/-!
# Searching without shards

A flat scan knows no shard, no fingerprint and no registry: it goes through all names that were ever
published, keeps those that the query holds of, and makes one row of those with the same test. The
shards of an index answer the same rows, as every name is in just one of them, together with all
other names of its test.

* `Flat.rows`: the rows of a flat scan; `Flat.rows_ascend`: they are in the order of their tests.
* `Consistent.mem_entries_iff`: a registry holds the names of its shard, each under its fingerprint.
* `Consistent.accepts_eq_holds`: the filter of a shard accepts the names that the query holds of.
* `Consistent.execute_eq_rows`: a plan answers the rows of a flat scan.
* `execute_eq_flat_rows`: so it does after any calls, with any number of shards.
-/

namespace ResultSearch

/-- Names of tests and subtests, with a status in every run. -/
structure Flat where
  names : List TestName
  status : RunId → TestName → Status

namespace Flat

variable (flat : Flat)

/-- What a query may ask of a name; `compared` are the runs whose agreement counts. -/
def subject (compared : List RunId) (n : TestName) : Subject where
  name := n
  status id := flat.status id n
  compared := compared.map fun id => flat.status id n

/-- The names that a query holds of, each once. -/
def found (compared : List RunId) (q : BoundQuery) : List TestName :=
  flat.names.dedup.filter fun n => q.holds (flat.subject compared n)

/-- What a row learns of a name. -/
def toMatch (columns : List RunId) (n : TestName) : Match where
  isSubtest := n.subtest.isSome
  subtest := n.subtest
  statuses := columns.map fun id => flat.status id n

/-- The row of a test among some names. -/
def row (columns : List RunId) (options : RowOptions) (found : List TestName) (test : String) :
    Row :=
  Row.ofMatches options columns.length test
    ((found.filter fun n => n.test = test).map (flat.toMatch columns))

/-- The tests of some names, in order. -/
def tests (found : List TestName) : List String :=
  (found.map TestName.test).dedup.mergeSort fun a b => decide (a ≤ b)

/-- The rows of all names that a query holds of, by test name. -/
def rows (compared columns : List RunId) (q : BoundQuery) (options : RowOptions) : List Row :=
  (tests (flat.found compared q)).map (flat.row columns options (flat.found compared q))

/-- One row for each test, by test name. -/
theorem rows_ascend {compared columns : List RunId} {q : BoundQuery} {options : RowOptions} :
    (flat.rows compared columns q options).Pairwise fun a b => a.test < b.test :=
  List.pairwise_map.2 (Sorting.pairwise_lt_mergeSort (List.nodup_dedup _))

end Flat

namespace Chronicle

/-- The status that the last report of a run gives to a test or subtest. -/
def status (c : Chronicle) (id : RunId) (n : TestName) : Status :=
  ((c.latest id).map fun p => p.report.status n).getD .unknown

/-- What a flat scan has to go through. -/
def flat (c : Chronicle) : Flat := ⟨c.names, c.status⟩

variable {hash : NameHash} {count : Nat} {c d : Chronicle} {i : Nat} {s : Shard}

namespace Consistent

/-! ## Names and their fingerprints -/

theorem hash_subtest_ne_zero (h : Consistent hash count c) {n : TestName} (hn : n ∈ c.names)
    {sub : String} (hsub : n.subtest = some sub) : hash sub ≠ 0 := by
  obtain ⟨p, hp, hn⟩ := mem_names_iff.1 hn
  obtain ⟨staged, hstaged⟩ := h.staged p hp
  exact Report.hash_subtest_ne_zero hstaged hn hsub

theorem ofName_inj (h : Consistent hash count c) (hsep : Separates hash c.names) {n m : TestName}
    (hn : n ∈ c.names) (hm : m ∈ c.names)
    (heq : Fingerprint.ofName hash n = Fingerprint.ofName hash m) : n = m :=
  hsep.ofName_inj hn hm (plain_of_mem_names hn) (plain_of_mem_names hm)
    (fun _ => h.hash_subtest_ne_zero hn) (fun _ => h.hash_subtest_ne_zero hm) heq

/-- A fingerprint tells a subtest from a test. -/
theorem isSubtest_ofName (h : Consistent hash count c) {n : TestName} (hn : n ∈ c.names) :
    (Fingerprint.ofName hash n).isSubtest = n.subtest.isSome := by
  rw [Fingerprint.ofName_of_plain (plain_of_mem_names hn), Fingerprint.isSubtest]
  cases hsub : n.subtest with
  | none => rfl
  | some sub => simpa using h.hash_subtest_ne_zero hn hsub

/-- The registry of a shard holds the names of the shard, each under its fingerprint. -/
theorem mem_entries_iff (h : Consistent hash count c) (hsep : Separates hash c.names)
    (hs : c.index.shards[i]? = some s) {e : Fingerprint × TestName} :
    e ∈ s.registry.entries ↔
      e.2 ∈ c.names ∧ e.1 = Fingerprint.ofName hash e.2 ∧ e.1.shard count = i := by
  obtain ⟨f, n⟩ := e
  -- What is registered under a fingerprint is the name of the fingerprint.
  have hnamed {m : TestName} (hm : s.registry.get? f = some m) :
      m ∈ c.names ∧ f = Fingerprint.ofName hash m ∧ f.shard count = i := by
    obtain ⟨htest, hi, hsub⟩ := h.named i s hs f m hm
    obtain ⟨hmem, hf⟩ := hsep.mem_of_named htest hsub
    exact ⟨hmem, hf, hi⟩
  constructor
  · intro hmem
    exact hnamed (Table.get?_eq_some_iff.2 hmem)
  · rintro ⟨hn, hf, hi⟩
    dsimp only at hn hf hi
    subst hf
    have hreg := h.registered n hn s (by rw [hi]; exact hs)
    obtain ⟨m, hm⟩ := Table.contains_iff_exists.1 hreg
    obtain ⟨hmem, heq, -⟩ := hnamed hm
    obtain rfl := h.ofName_inj hsep hn hmem heq
    exact Table.get?_eq_some_iff.1 hm

/-! ## Results and filters

A plan that was bound at `c` is executed at `d`, where everything of `c` is known still. -/

variable {ids columns : List RunId} {q : BoundQuery} {part : ShardFilter} {options : RowOptions}
  {registry : Registry} {s' : Shard}

/-- The number of the shard that a test and its subtests are in. -/
def shardOf (hash : NameHash) (count : Nat) (test : String) : Nat :=
  (Fingerprint.ofName hash ⟨test, none⟩).shard count

/-- All names of a test are in one shard. -/
theorem filter_shard_filter_test {l : List TestName} {test : String}
    (h : shardOf hash count test = i) :
    ((l.filter fun n => shardOf hash count n.test = i).filter fun n => n.test = test) =
      l.filter fun n => n.test = test := by
  rw [List.filter_filter]
  refine List.filter_congr fun n _ => ?_
  by_cases htest : n.test = test
  · simp [htest, h]
  · simp [htest]

/-- The tests in a shard are the tests of the names in the shard. -/
theorem tests_filter_perm {l : List TestName} :
    ((l.filter fun n => shardOf hash count n.test = i).map TestName.test).dedup.Perm
      ((Flat.tests l).filter fun t => shardOf hash count t = i) := by
  refine (List.perm_ext_iff_of_nodup (List.nodup_dedup _) ?_).2 fun t => ?_
  · exact ((List.mergeSort_perm _ _).nodup_iff.2 (List.nodup_dedup _)).filter _
  · rw [List.mem_dedup, List.mem_filter, Flat.tests, List.mem_mergeSort, List.mem_dedup,
      List.mem_map, List.mem_map]
    constructor
    · rintro ⟨n, hn, rfl⟩
      obtain ⟨hn, hi⟩ := List.mem_filter.1 hn
      exact ⟨⟨n, hn, rfl⟩, hi⟩
    · rintro ⟨⟨n, hn, rfl⟩, hi⟩
      exact ⟨n, List.mem_filter.2 ⟨hn, hi⟩, rfl⟩

section Parts

variable (hc : Consistent hash count c) (hd : Consistent hash count d)
  (hsep : Separates hash d.names) (hsub : c.names ⊆ d.names) (hs : c.index.shards[i]? = some s)
  (hpart : Index.PartOf ids q s part)
  (hres : ∀ id ∈ ids ++ q.runIds, c.index.resident.contains id = true)

include hc hd hsep hsub hs hpart hres

/-- The results in a plan are the statuses in the last reports of the runs. -/
theorem get_results {id : RunId} (hid : id ∈ ids ++ q.runIds) :
    ∃ r, part.results.get? id = some r ∧ ∀ n ∈ d.names,
      (Fingerprint.ofName hash n).shard count = i →
        r.get (Fingerprint.ofName hash n) = c.status id n := by
  obtain ⟨run, hrun⟩ := Table.contains_iff_exists.1 (hres id hid)
  obtain ⟨report, hlatest⟩ := hc.latest id run hrun
  obtain ⟨staged, hstaged⟩ := hc.staged _ (mem_of_latest hlatest).1
  have hstored := hc.stored i s hs id (hres id hid) _ staged hlatest hstaged
  refine ⟨staged.resultsIn count i, ?_, fun n hn hi => ?_⟩
  · rw [hpart.results, if_pos hid, hstored]
  · have hnames : report.names ⊆ d.names := fun m hm =>
      hsub (mem_names_iff.2 ⟨_, (mem_of_latest hlatest).1, hm⟩)
    rw [RunResults.get, Staged.get?_resultsIn, if_pos hi, status, hlatest]
    exact hsep.get?_stage hstaged hnames hn (plain_of_mem_names hn)
      fun _ => hd.hash_subtest_ne_zero hn

/-- The filter of a shard accepts the names of the shard that the query holds of. -/
theorem accepts_eq_holds {n : TestName} (hn : n ∈ d.names)
    (hi : (Fingerprint.ofName hash n).shard count = i) :
    part.filter.accepts (Fingerprint.ofName hash n) n = q.holds (c.flat.subject ids n) := by
  have hget {id : RunId} (hid : id ∈ ids ++ q.runIds) :
      (part.results.get? id).map (fun r => r.get (Fingerprint.ofName hash n)) =
        some (c.status id n) := by
    obtain ⟨r, hr, hstatus⟩ := hc.get_results hd hsep hsub hs hpart hres hid
    rw [hr, Option.map_some, hstatus n hn hi]
  rw [Filter.accepts_eq_holds _ _ q hpart.filter]
  refine BoundQuery.holds_congr ?_ ?_ q fun id hid => ?_
  · rfl
  · show (ids.filterMap part.results.get?).map (fun r => r.get (Fingerprint.ofName hash n)) =
      ids.map fun id => c.status id n
    rw [List.map_filterMap, ← List.filterMap_eq_map]
    refine List.filterMap_congr fun id hid => ?_
    exact hget (List.mem_append_left _ hid)
  · have hmem : id ∈ ids ++ q.runIds := List.mem_append_right _ (BoundQuery.mem_runIds.2 hid)
    show ((part.results.get? id).map fun r => r.get (Fingerprint.ofName hash n)).getD .unknown = _
    rw [hget hmem]
    rfl

/-- The columns of a plan have results, and these are the statuses in the last reports. -/
theorem mapM_resultsOf (hcolumns : columns ⊆ ids ++ q.runIds) :
    ∃ results, columns.mapM (Filter.resultsOf part.results) = .ok results ∧
      results.length = columns.length ∧
      ∀ n ∈ d.names, (Fingerprint.ofName hash n).shard count = i →
        results.map (fun r => r.get (Fingerprint.ofName hash n)) =
          columns.map fun id => c.status id n := by
  obtain ⟨results, hresults⟩ :
      ∃ results, columns.mapM (Filter.resultsOf part.results) = .ok results :=
    Outcome.exists_mapM_eq_ok fun id hid => by
      obtain ⟨r, hr, -⟩ := hc.get_results hd hsep hsub hs hpart hres (hcolumns hid)
      exact Filter.resultsOf_isOk (by rw [hr]; rfl)
  refine ⟨results, hresults, (Outcome.mapM_eq_ok_iff.1 hresults).length_eq.symm, fun n hn hi => ?_⟩
  refine Outcome.map_of_mapM hresults fun id hid r hr => ?_
  obtain ⟨r', hr', hstatus⟩ := hc.get_results hd hsep hsub hs hpart hres (hcolumns hid)
  obtain rfl : r' = r := Option.some.inj (hr'.symm.trans (Filter.get?_of_resultsOf hr))
  exact hstatus n hn hi

/-- The entries of a registry that the filter of its shard accepts are the names found that are in
the shard. -/
theorem accepted_perm (hs' : d.index.shards[i]? = some s')
    (hregistry : registry.entries.Perm s'.registry.entries) :
    (registry.entries.filter fun e => part.filter.accepts e.1 e.2).Perm
      ((((⟨d.names, c.status⟩ : Flat).found ids q).filter fun n =>
        shardOf hash count n.test = i).map fun n => (Fingerprint.ofName hash n, n)) := by
  refine (List.perm_ext_iff_of_nodup ?_ ?_).2 fun e => ?_
  · exact (List.Nodup.of_map _ registry.names.nodup).filter _
  · exact (((List.nodup_dedup _).filter _).filter _).map fun n m h => congrArg Prod.snd h
  · rw [List.mem_filter, hregistry.mem_iff, hd.mem_entries_iff hsep hs', List.mem_map]
    constructor
    · rintro ⟨⟨hn, hf, hi⟩, haccepts⟩
      rw [hf] at hi haccepts
      rw [hc.accepts_eq_holds hd hsep hsub hs hpart hres hn hi] at haccepts
      refine ⟨e.2, List.mem_filter.2 ⟨?_, decide_eq_true hi⟩, Prod.ext hf.symm rfl⟩
      exact List.mem_filter.2 ⟨List.mem_dedup.2 hn, haccepts⟩
    · rintro ⟨n, hn, rfl⟩
      obtain ⟨hn, hi⟩ := List.mem_filter.1 hn
      obtain ⟨hn, hholds⟩ := List.mem_filter.1 hn
      have hn := List.mem_dedup.1 hn
      have hi : (Fingerprint.ofName hash n).shard count = i := of_decide_eq_true hi
      refine ⟨⟨hn, rfl, hi⟩, ?_⟩
      rw [hc.accepts_eq_holds hd hsep hsub hs hpart hres hn hi]
      exact hholds

/-- A shard answers the rows of the tests that are in it. -/
theorem scan_perm (hcolumns : columns ⊆ ids ++ q.runIds) (hs' : d.index.shards[i]? = some s')
    (hregistry : registry.entries.Perm s'.registry.entries) (number : Nat) :
    let flat : Flat := ⟨d.names, c.status⟩
    ∃ answer, Plan.scan part registry columns options (StopCheck.never number) = .ok answer ∧
      answer.Perm (((Flat.tests (flat.found ids q)).filter fun t => shardOf hash count t = i).map
        (flat.row columns options (flat.found ids q))) := by
  intro flat
  obtain ⟨results, hresults, hlength, hstatus⟩ :=
    hc.mapM_resultsOf hd hsep hsub hs hpart hres hcolumns
  refine ⟨_, Plan.scan_never hresults, ?_⟩
  have haccepted := hc.accepted_perm hd hsep hsub hs hpart hres hs' hregistry
  let here := (flat.found ids q).filter fun n => shardOf hash count n.test = i
  have hfound {n : TestName} (hn : n ∈ flat.found ids q) : n ∈ d.names :=
    List.mem_dedup.1 (List.mem_filter.1 hn).1
  have hhere {e : Fingerprint × TestName}
      (he : e ∈ here.map fun n => (Fingerprint.ofName hash n, n)) :
      e.1 = Fingerprint.ofName hash e.2 ∧ e.2 ∈ d.names := by
    obtain ⟨n, hn, rfl⟩ := List.mem_map.1 he
    exact ⟨rfl, hfound (List.mem_filter.1 hn).1⟩
  have hrows : ((Aggregation.gather options results _).finish options).Perm _ :=
    Aggregation.finish_gather_perm_of_perm hash haccepted
      (fun e he => congrArg Fingerprint.test (hhere he).1)
      fun e he x hx => hsep.tests _ (hhere he).2 _ (hhere hx).2
  apply hrows.trans
  rw [List.map_map]
  have hrow : ∀ t ∈ (here.map TestName.test).dedup, Row.ofMatches options results.length t
      (((here.map fun n => (Fingerprint.ofName hash n, n)).filter fun e => e.2.test = t).map
        (Aggregation.toMatch results)) = flat.row columns options (flat.found ids q) t := by
    intro t ht
    obtain ⟨m, hm, rfl⟩ := List.mem_map.1 (List.mem_dedup.1 ht)
    have hmi : shardOf hash count m.test = i := of_decide_eq_true (List.mem_filter.1 hm).2
    rw [hlength, Flat.row, List.filter_map, List.map_map]
    refine congrArg _ ((congrArg (List.map _) (filter_shard_filter_test hmi)).trans
      (List.map_congr_left fun n hn => ?_))
    obtain ⟨hn, htest⟩ := List.mem_filter.1 hn
    have hi : shardOf hash count n.test = i := of_decide_eq_true htest ▸ hmi
    refine (Match.mk.injEq ..).mpr ⟨hd.isSubtest_ofName (hfound hn), rfl, ?_⟩
    exact hstatus n (hfound hn) hi
  exact (List.Perm.of_eq (List.map_congr_left hrow)).trans (tests_filter_perm.map _)

end Parts

/-! ## All shards -/

/-- What is in one of the shards each is in all of them together. -/
theorem flatMap_filter_perm {l : List String} {g : String → Nat} (hg : ∀ t ∈ l, g t < count)
    (hl : l.Nodup) : ((List.range' 0 count).flatMap fun i => l.filter fun t => g t = i).Perm l := by
  refine (List.perm_ext_iff_of_nodup ?_ hl).2 fun t => ?_
  · refine List.nodup_flatMap.2 ⟨fun i _ => hl.filter _, ?_⟩
    have hrange : (List.range' 0 count).Nodup := List.nodup_range'
    refine hrange.imp fun {i j} hij => ?_
    refine List.disjoint_left.2 fun t ht ht' => ?_
    have hi := of_decide_eq_true (List.mem_filter.1 ht).2
    have hj := of_decide_eq_true (List.mem_filter.1 ht').2
    exact hij (hi.symm.trans hj)
  · rw [List.mem_flatMap]
    constructor
    · rintro ⟨i, -, ht⟩
      exact (List.mem_filter.1 ht).1
    · intro ht
      refine ⟨g t, ?_, List.mem_filter.2 ⟨ht, decide_eq_true rfl⟩⟩
      have := hg t ht
      rw [List.mem_range'_1]
      omega

/-- A plan over resident runs answers the rows of a flat scan through all names that are registered
when it is executed, with the statuses from when it was bound, in whichever order the registries
are gone through. -/
theorem execute_eq_rows {p : Plan} {registries : List Registry}
    (hc : Consistent hash count c) (hd : Consistent hash count d) (hsep : Separates hash d.names)
    (hsub : c.names ⊆ d.names) (hbind : c.index.bind ids (some q) = .ok p)
    (hcolumns : columns ⊆ ids ++ q.runIds)
    (hregistries : List.Forall₂ (fun r r' => r.entries.Perm r'.entries) registries
      d.index.registries) :
    p.execute registries columns options =
      .ok ((⟨d.names, c.status⟩ : Flat).rows ids columns q options) := by
  obtain ⟨-, hres, hparts⟩ := Index.bind_eq_ok hbind
  let flat : Flat := ⟨d.names, c.status⟩
  let tests := Flat.tests (flat.found ids q)
  let rows (i : Nat) : List Row := (tests.filter fun t => shardOf hash count t = i).map
    (flat.row columns options (flat.found ids q))
  have hshards : ∀ i part registry, (p.shards.zip registries)[i]? = some (part, registry) →
      ∃ answer, Plan.scan part registry columns options (StopCheck.never (0 + i)) = .ok answer ∧
        answer.Perm (rows (0 + i)) := by
    intro i part registry hi
    obtain ⟨hpart, hregistry⟩ := List.getElem?_zip_eq_some.1 hi
    obtain ⟨s, hs, hpart⟩ := Outcome.getElem?_of_forall₂ hparts hpart
    obtain ⟨registry', hregistry', hentries⟩ :=
      Outcome.getElem?_of_forall₂ hregistries.flip hregistry
    rw [Index.registries, List.getElem?_map] at hregistry'
    obtain ⟨s', hs', rfl⟩ := Option.map_eq_some_iff.1 hregistry'
    rw [Nat.zero_add]
    exact scan_perm hc hd hsep hsub hs hpart hres hcolumns hs' hentries i
  have hlength : (p.shards.zip registries).length = count := by
    have hregistries_length := hregistries.length_eq
    rw [Index.registries, List.length_map, hd.length_eq] at hregistries_length
    rw [List.length_zip, ← hparts.length_eq, hc.length_eq, hregistries_length, Nat.min_self]
  obtain ⟨answer, hanswer, hperm⟩ := Plan.scanFromShard_perm hshards
  have hflat : answer.Perm (flat.rows ids columns q options) := by
    apply hperm.trans
    rw [hlength, ← List.map_flatMap]
    refine (flatMap_filter_perm (fun t _ => ?_) ?_).map _
    · exact Fingerprint.shard_lt _ hc.count_pos
    · exact (List.mergeSort_perm _ _).nodup_iff.2 (List.nodup_dedup _)
  rw [Plan.execute, Plan.executeWith, hanswer]
  exact congrArg Except.ok (Plan.sortRows_eq hflat flat.rows_ascend)

end Consistent

/-- After any calls a plan answers the rows of a flat scan through all names that were ever
published, whatever order the registries are gone through in. The rows ascend by test, and another
number of shards answers the same. -/
theorem execute_eq_flat_rows {calls : List IndexCall} {ids : List RunId} {q : BoundQuery}
    {options : RowOptions} {p : Plan} (h : replay hash count calls = .ok c)
    (hsep : Separates hash c.names) (hbind : c.index.bind ids (some q) = .ok p) :
    c.index.execute p ids options = .ok (c.flat.rows ids ids q options) ∧
      (∀ registries, List.Forall₂ (fun r r' => r.entries.Perm r'.entries) registries
        c.index.registries → p.execute registries ids options =
          .ok (c.flat.rows ids ids q options)) ∧
      (c.flat.rows ids ids q options).Pairwise (fun a b => a.test < b.test) ∧
      ∀ other, 0 < other → ∃ d p', replay hash other calls = .ok d ∧
        d.index.bind ids (some q) = .ok p' ∧
        d.index.execute p' ids options = .ok (c.flat.rows ids ids q options) := by
  have hc := replay_consistent h
  have hany : ∀ registries, List.Forall₂ (fun r r' => r.entries.Perm r'.entries) registries
      c.index.registries → p.execute registries ids options = .ok (c.flat.rows ids ids q options) :=
    fun registries hregistries => hc.execute_eq_rows hc hsep (List.Subset.refl _) hbind
      (List.subset_append_left _ _) hregistries
  refine ⟨hany _ (List.forall₂_same.2 fun r _ => .refl _), hany, c.flat.rows_ascend, ?_⟩
  intro other hother
  obtain ⟨d, hd, halike, hpublished⟩ := exists_replay_alike h hother
  have hdc := replay_consistent hd
  obtain ⟨hne, hres, -⟩ := Index.bind_eq_ok hbind
  obtain ⟨p', hbind'⟩ := hdc.inStep.bind_isOk hne (halike.resident_eq ▸ hres)
  have hnames : d.names = c.names := by rw [names, names, hpublished]
  have hflat : d.flat = c.flat := by
    have hstatus : d.status = c.status := by
      funext id n
      rw [status, status, latest, latest, hpublished]
    rw [flat, flat, hnames, hstatus]
  refine ⟨d, p', hd, hbind', ?_⟩
  rw [← hflat]
  exact hdc.execute_eq_rows hdc (hnames ▸ hsep) (List.Subset.refl _) hbind'
    (List.subset_append_left _ _) (List.forall₂_same.2 fun r _ => .refl _)

/-- Two runs bring different tests and the second is evicted. Its test is found still, with no
result, by a query that asks for something not to be the case. -/
theorem execute_after_eviction :
    let first : Report := ⟨[⟨"/a.html", .ok, none, [⟨"one", .pass, none⟩]⟩], .null⟩
    let second : Report := ⟨[⟨"/b.html", .fail, none, []⟩], .null⟩
    let calls : List IndexCall := [.ingest { Run.blank with id := 2 } (.ok second), .evictAny,
      .ingest { Run.blank with id := 1 } (.ok first)]
    let query : BoundQuery := .not (.status 1 (.is .fail))
    ∃ c p, replay Hash.hashText 3 calls = .ok c ∧ Separates Hash.hashText c.names ∧
      c.index.bind [1] (some query) = .ok p ∧
      c.index.execute p [1] .standard =
        .ok [⟨"/a.html", [⟨2, 2⟩], none, [], none⟩, ⟨"/b.html", [⟨0, 0⟩], none, [], none⟩] := by
  intro first second calls query
  let c : Chronicle := (start Hash.hashText 3).afterAll calls
  have hreplay : replay Hash.hashText 3 calls = .ok c := replay_eq_ok_iff.2 ⟨by decide, rfl⟩
  have hsep : Separates Hash.hashText c.names := by decide +kernel
  have hres : ∀ id ∈ [1] ++ query.runIds, c.index.resident.contains id = true := by decide +kernel
  obtain ⟨p, hbind⟩ := (replay_consistent hreplay).inStep.bind_isOk (List.cons_ne_nil 1 []) hres
  refine ⟨c, p, hreplay, hsep, hbind, ?_⟩
  rw [(execute_eq_flat_rows hreplay hsep hbind).1]
  have hfound : c.flat.found [1] query =
      [⟨"/a.html", none⟩, ⟨"/a.html", some "one"⟩, ⟨"/b.html", none⟩] := by decide +kernel
  have htests : Flat.tests (c.flat.found [1] query) = ["/a.html", "/b.html"] := by
    rw [hfound]
    exact Sorting.mergeSort_eq_of_perm (f := id) (by decide) (by decide) (by decide)
  rw [Flat.rows, htests, hfound]
  decide +kernel

end Chronicle

end ResultSearch
