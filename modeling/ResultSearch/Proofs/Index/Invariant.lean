import ResultSearch.Proofs.Index.History
import ResultSearch.Proofs.Index.Plans

/-!
# What holds of every index

The shards of an index, its resident runs and its chronicle stay in step: every shard holds of every
resident run just what its report says about the names of that shard, and has registered just the
names of that shard that were ever published.

* `Consistent`: the invariant; `Consistent.of_move` and `Consistent.after`: every move and so every
  call keeps it; `replay_consistent`: it holds after any calls.
* `Grown`, `grown_of_move`: a registry forgets nothing.
* `Consistent.bind_isOk`: a query over resident runs is bound to a plan.
* `replay_coherent`: what this means for an index alone.
-/

namespace ResultSearch

namespace Chronicle

/-- The shards, the resident runs and the publications are in step. -/
structure Consistent (hash : NameHash) (count : Nat) (c : Chronicle) : Prop where
  hash_eq : c.index.hash = hash
  count_pos : 0 < count
  length_eq : c.index.shards.length = count
  staged : ∀ p ∈ c.published, ∃ staged, Staged.stage hash p.report = .ok staged
  latest : ∀ id r, c.index.resident.get? id = some r → ∃ report, c.latest id = some ⟨r, report⟩
  absent : ∀ s ∈ c.index.shards, ∀ id, c.index.resident.contains id = false →
    s.store.contains id = false
  /-- Of a resident run a shard holds its part of the last report. -/
  stored : ∀ i s, c.index.shards[i]? = some s → ∀ id, c.index.resident.contains id = true →
    ∀ p staged, c.latest id = some p → Staged.stage hash p.report = .ok staged →
      s.store.forRun id = some (staged.resultsIn count i)
  registered : ∀ n ∈ c.names, ∀ s,
    c.index.shards[(Fingerprint.ofName hash n).shard count]? = some s →
      s.registry.names.contains (Fingerprint.ofName hash n) = true
  /-- What is registered is a name that was published; its test may have lent its name. -/
  named : ∀ i s, c.index.shards[i]? = some s → ∀ f n, s.registry.get? f = some n →
    (∃ m ∈ c.names, m.test = n.test ∧ hash m.test = f.test) ∧
      f.shard count = i ∧ ∃ m ∈ c.names, Fingerprint.ofName hash m = f ∧ m.subtest = n.subtest

variable {hash : NameHash} {count : Nat} {c d : Chronicle}

/-! ## The empty index -/

theorem consistent_start (h : 0 < count) : Consistent hash count (start hash count) := by
  have hempty {i : Nat} {s : Shard} (hs : (List.replicate count Shard.empty)[i]? = some s) :
      s = .empty := List.eq_of_mem_replicate (List.mem_of_getElem? hs)
  exact {
    hash_eq := rfl
    count_pos := h
    length_eq := List.length_replicate
    staged := fun p hp => by cases hp
    latest := fun id r hr => by cases hr
    absent := fun s hs id _ => by rw [List.eq_of_mem_replicate hs]; rfl
    stored := fun i s _ id hid => by cases hid
    registered := fun n hn => by cases hn
    named := fun i s hs f n hn => by rw [hempty hs] at hn; cases hn }

namespace Consistent

theorem inStep (h : Consistent hash count c) : InStep c.index where
  stores s hs id := by
    cases hid : c.index.resident.contains id with
    | false => exact h.absent s hs id hid
    | true =>
      obtain ⟨i, hi⟩ := List.getElem?_of_mem hs
      obtain ⟨r, hr⟩ := Table.contains_iff_exists.1 hid
      obtain ⟨report, hlatest⟩ := h.latest id r hr
      obtain ⟨staged, hstaged⟩ := h.staged _ (mem_of_latest hlatest).1
      exact Table.contains_iff_exists.2 ⟨_, h.stored i s hi id hid _ staged hlatest hstaged⟩
  ids id r hr := by
    obtain ⟨report, hlatest⟩ := h.latest id r hr
    exact (mem_of_latest hlatest).2

/-! ## One move -/

theorem mark (h : Consistent hash count c) (ids : List RunId) :
    Consistent hash count { c with index := { c.index with inFlight := ids } } :=
  ⟨h.hash_eq, h.count_pos, h.length_eq, h.staged, h.latest, h.absent, h.stored, h.registered,
    h.named⟩

theorem latest_publish {ix : Index} {p : Publication} {id : RunId} :
    (⟨ix, p :: c.published⟩ : Chronicle).latest id =
      if p.run.id = id then some p else c.latest id := by
  rw [Chronicle.latest, List.find?_cons]
  by_cases hid : p.run.id = id <;> simp [hid, Chronicle.latest]

theorem names_publish {ix : Index} {p : Publication} :
    (⟨ix, p :: c.published⟩ : Chronicle).names = p.report.names ++ c.names := rfl

variable {run : Run} {report : Report} {staged : Staged}

/-- Publishing registers every name of the report in its shard, whatever the order. -/
theorem contains_withRun (hstage : Staged.stage hash report = .ok staged) {n : TestName}
    (hn : n ∈ report.names) (s : Shard) (id : RunId) {results : List (Fingerprint × StagedResult)}
    (hresults : staged.forShard count ((Fingerprint.ofName hash n).shard count) ⊆ results) :
    (s.withRun id results).registry.names.contains (Fingerprint.ofName hash n) = true := by
  have hcontains := (Staged.contains_stage_iff hstage).2 ⟨n, hn, rfl⟩
  obtain ⟨l, hl⟩ := Table.contains_iff_exists.1 hcontains
  have hmem : (Fingerprint.ofName hash n, l) ∈
      staged.forShard count ((Fingerprint.ofName hash n).shard count) :=
    List.mem_filter.2 ⟨Table.get?_eq_some_iff.1 hl, decide_eq_true rfl⟩
  exact Registry.contains_enroll (hresults hmem)

/-- After publishing, in whatever order, a shard has registered names of its own that were published,
and no others. -/
theorem named_withRun (h : Consistent hash count c) (hstage : Staged.stage hash report = .ok staged)
    {i : Nat} {s : Shard} (hs : c.index.shards[i]? = some s) (id : RunId)
    {results : List (Fingerprint × StagedResult)} (hresults : results ⊆ staged.forShard count i) :
    ∀ f n, (s.withRun id results).registry.get? f = some n →
      (∃ m ∈ report.names ++ c.names, m.test = n.test ∧ hash m.test = f.test) ∧
        f.shard count = i ∧
          ∃ m ∈ report.names ++ c.names, Fingerprint.ofName hash m = f ∧ m.subtest = n.subtest := by
  refine Registry.forall_enroll
    (P := fun x t => ∃ m ∈ report.names ++ c.names, m.test = t ∧ hash m.test = x)
    (Q := fun f sub => f.shard count = i ∧ ∃ m ∈ report.names ++ c.names,
      Fingerprint.ofName hash m = f ∧ m.subtest = sub) ?_ ?_
  · intro f n hn
    obtain ⟨⟨m, hm, htest⟩, hi, k, hk, hsub⟩ := h.named i s hs f n hn
    exact ⟨⟨m, List.mem_append_right _ hm, htest⟩, hi, k, List.mem_append_right _ hk, hsub⟩
  · intro e he
    obtain ⟨he, hi⟩ := List.mem_filter.1 (hresults he)
    obtain ⟨hmem, hf⟩ := Staged.mem_names_of_mem_entries hstage he
    have hmem := List.mem_append_left c.names hmem
    rw [hf]
    refine ⟨⟨_, hmem, rfl, rfl⟩, ?_, _, hmem, Fingerprint.ofName_plain .., rfl⟩
    rw [← hf]
    exact of_decide_eq_true hi

/-- After publishing a shard holds of each resident run what its last report says. -/
theorem stored_withRun (h : Consistent hash count c)
    (hstage : Staged.stage hash report = .ok staged) {i : Nat} {s : Shard} (hs : c.index.shards[i]? = some s) {id : RunId}
    (hid : (c.index.withRun run staged).resident.contains id = true) {p : Publication}
    {staged' : Staged} (hp : (if run.id = id then some ⟨run, report⟩ else c.latest id) = some p)
    (hstaged' : Staged.stage hash p.report = .ok staged') :
    (s.withRun run.id (staged.forShard count i)).store.forRun id =
      some (staged'.resultsIn count i) := by
  rw [Shard.forRun_withRun]
  by_cases hrun : id = run.id
  · rw [if_pos hrun.symm] at hp
    obtain rfl := Option.some.inj hp
    obtain rfl : staged = staged' := Except.ok.inj (hstage.symm.trans hstaged')
    rw [if_pos hrun]
    rfl
  · rw [if_neg (Ne.symm hrun)] at hp
    rw [if_neg hrun]
    obtain ⟨r, hr⟩ := Table.contains_iff_exists.1 hid
    rw [Index.get?_resident_withRun, if_neg hrun] at hr
    exact h.stored i s hs id (Table.contains_iff_exists.2 ⟨r, hr⟩) p staged' hp hstaged'

theorem publish (h : Consistent hash count c) (ids : List RunId)
    (hstage : Staged.stage hash report = .ok staged) :
    Consistent hash count
      ⟨{ c.index.withRun run staged with inFlight := ids }, ⟨run, report⟩ :: c.published⟩ := by
  have hshard {i : Nat} {s' : Shard} (hs' : (c.index.withRun run staged).shards[i]? = some s') :
      ∃ s, c.index.shards[i]? = some s ∧ s' = s.withRun run.id (staged.forShard count i) := by
    have hs := Index.getElem?_withRun hs'
    rwa [show c.index.shardCount = count from h.length_eq] at hs
  have hresident {id : RunId} : (c.index.withRun run staged).resident.get? id =
      if id = run.id then some run else c.index.resident.get? id := Index.get?_resident_withRun
  refine {
    hash_eq := h.hash_eq
    count_pos := h.count_pos
    length_eq := List.length_mapIdx.trans h.length_eq
    staged := ?_
    latest := ?_
    absent := ?_
    stored := ?_
    registered := ?_
    named := ?_ }
  · rintro p (_ | ⟨_, hp⟩)
    · exact ⟨staged, hstage⟩
    · exact h.staged p hp
  · intro id r hr
    have hr := hresident.symm.trans hr
    rw [latest_publish]
    by_cases hid : id = run.id
    · rw [if_pos hid] at hr
      rw [if_pos hid.symm, ← Option.some.inj hr]
      exact ⟨report, rfl⟩
    · rw [if_neg hid] at hr
      rw [if_neg (Ne.symm hid)]
      exact h.latest id r hr
  · intro s' hs' id hid
    obtain ⟨i, hi⟩ := List.getElem?_of_mem hs'
    obtain ⟨s, hs, rfl⟩ := hshard hi
    have hid := hresident.symm.trans (Table.contains_eq_false_iff.1 hid)
    split at hid
    · cases hid
    · next hrun =>
      have hnone := h.absent s (List.mem_of_getElem? hs) id (Table.contains_eq_false_iff.2 hid)
      apply Table.contains_eq_false_iff.2
      exact (Shard.forRun_withRun.trans (if_neg hrun)).trans (Table.contains_eq_false_iff.1 hnone)
  · intro i s' hs' id hid p staged' hp hstaged'
    obtain ⟨s, hs, rfl⟩ := hshard hs'
    exact h.stored_withRun hstage hs hid (latest_publish.symm.trans hp) hstaged'
  · intro n hn s' hs'
    obtain ⟨s, hs, rfl⟩ := hshard hs'
    rw [names_publish, List.mem_append] at hn
    rcases hn with hn | hn
    · exact contains_withRun hstage hn s run.id (List.Subset.refl _)
    · obtain ⟨m, hm⟩ := Table.contains_iff_exists.1 (h.registered n hn s hs)
      exact Table.contains_iff_exists.2 ⟨m, Registry.get?_enroll hm⟩
  · intro i s' hs'
    obtain ⟨s, hs, rfl⟩ := hshard hs'
    exact h.named_withRun hstage hs run.id (List.Subset.refl _)

theorem evict (h : Consistent hash count c) (ids : List RunId) :
    Consistent hash count { c with index := c.index.withoutRuns ids } := by
  refine {
    hash_eq := h.hash_eq
    count_pos := h.count_pos
    length_eq := (List.length_map _).trans h.length_eq
    staged := h.staged
    latest := ?_
    absent := ?_
    stored := ?_
    registered := ?_
    named := ?_ }
  · intro id r hr
    have hr := Index.get?_resident_withoutRuns.symm.trans hr
    split at hr
    · cases hr
    · exact h.latest id r hr
  · intro s' hs' id hid
    obtain ⟨s, hs, rfl⟩ := List.mem_map.1 hs'
    have hid := Index.get?_resident_withoutRuns.symm.trans (Table.contains_eq_false_iff.1 hid)
    refine Table.contains_eq_false_iff.2 (Shard.forRun_withoutRuns.trans ?_)
    split at hid
    · next hmem => rw [if_pos hmem]
    · next hmem =>
      rw [if_neg hmem]
      exact Table.contains_eq_false_iff.1 (h.absent s hs id (Table.contains_eq_false_iff.2 hid))
  · intro i s' hs' id hid p staged hp hstaged
    obtain ⟨s, hs, rfl⟩ := Index.getElem?_withoutRuns hs'
    obtain ⟨r, hr⟩ := Table.contains_iff_exists.1 hid
    have hr := Index.get?_resident_withoutRuns.symm.trans hr
    split at hr
    · cases hr
    · next hmem =>
      rw [Shard.forRun_withoutRuns, if_neg hmem]
      exact h.stored i s hs id (Table.contains_iff_exists.2 ⟨r, hr⟩) p staged hp hstaged
  · intro n hn s' hs'
    obtain ⟨s, hs, rfl⟩ := Index.getElem?_withoutRuns hs'
    exact h.registered n hn s hs
  · intro i s' hs'
    obtain ⟨s, hs, rfl⟩ := Index.getElem?_withoutRuns hs'
    exact h.named i s hs

theorem of_move (h : Consistent hash count c) (hmove : Move c d) : Consistent hash count d := by
  cases hmove with
  | mark ids => exact h.mark ids
  | publish ids _ hstage => exact h.publish ids (h.hash_eq ▸ hstage)
  | evict hids => exact h.evict _

/-! ## All calls -/

theorem after (h : Consistent hash count c) (call : IndexCall) :
    Consistent hash count (c.after call) :=
  h.of_move (move_after h.inStep call)

theorem afterAll (h : Consistent hash count c) (calls : List IndexCall) :
    Consistent hash count (c.afterAll calls) := by
  induction calls generalizing c with
  | nil => exact h
  | cons call rest ih => exact ih (h.after call)

end Consistent

/-- Whatever is called, the shards, the resident runs and the publications stay in step. -/
theorem replay_consistent {calls : List IndexCall} (h : replay hash count calls = .ok c) :
    Consistent hash count c := by
  obtain ⟨hcount, rfl⟩ := replay_eq_ok_iff.1 h
  exact (consistent_start hcount).afterAll calls

/-! ## Registries -/

/-- Every name that a shard has registered stands in the same shard of the other index. -/
def Grown (ix ix' : Index) : Prop :=
  ∀ (i : Nat) (s : Shard), ix.shards[i]? = some s → ∃ s' : Shard, ix'.shards[i]? = some s' ∧
    ∀ f n, s.registry.get? f = some n → s'.registry.get? f = some n

theorem Grown.refl (ix : Index) : Grown ix ix := fun _ s hs => ⟨s, hs, fun _ _ hn => hn⟩

theorem Grown.trans {ix ix' ix'' : Index} (h : Grown ix ix') (h' : Grown ix' ix'') :
    Grown ix ix'' := by
  intro i s hs
  obtain ⟨s', hs', hkeep⟩ := h i s hs
  obtain ⟨s'', hs'', hkeep'⟩ := h' i s' hs'
  exact ⟨s'', hs'', fun f n hn => hkeep' f n (hkeep f n hn)⟩

/-- No move takes a name away or changes one, also not when its runs go. -/
theorem grown_of_move (h : Move c d) : Grown c.index d.index := by
  intro i s hs
  cases h with
  | mark ids => exact ⟨s, hs, fun _ _ hn => hn⟩
  | publish ids _ _ =>
    refine ⟨_, List.getElem?_mapIdx.trans (congrArg _ hs), fun f n hn => ?_⟩
    exact Registry.get?_enroll hn
  | evict _ => exact ⟨_, List.getElem?_map.trans (congrArg _ hs), fun _ _ hn => hn⟩

theorem Consistent.grown_afterAll (h : Consistent hash count c) (calls : List IndexCall) :
    Grown c.index (c.afterAll calls).index := by
  induction calls generalizing c with
  | nil => exact Grown.refl _
  | cons call rest ih => exact (grown_of_move (move_after h.inStep call)).trans (ih (h.after call))

/-! ## The index alone -/

namespace Consistent

variable {i : Nat} {s : Shard} {f : Fingerprint}

/-- What a shard holds of a run is its part of the last report of that run. -/
theorem of_forRun (h : Consistent hash count c) (hs : c.index.shards[i]? = some s) {id : RunId}
    {r : RunResults} (hr : s.store.forRun id = some r) :
    ∃ p staged, p ∈ c.published ∧ Staged.stage hash p.report = .ok staged ∧
      r = staged.resultsIn count i := by
  have hid : c.index.resident.contains id = true :=
    (h.inStep.stores s (List.mem_of_getElem? hs) id).symm.trans
      (Table.contains_iff_exists.2 ⟨r, hr⟩)
  obtain ⟨run, hrun⟩ := Table.contains_iff_exists.1 hid
  obtain ⟨report, hlatest⟩ := h.latest id run hrun
  obtain ⟨staged, hstaged⟩ := h.staged _ (mem_of_latest hlatest).1
  refine ⟨_, staged, (mem_of_latest hlatest).1, hstaged, ?_⟩
  exact Option.some.inj (hr.symm.trans (h.stored i s hs id hid _ staged hlatest hstaged))

/-- A stored status belongs to the shard and has its name registered there. -/
theorem of_contains_statuses (h : Consistent hash count c) (hs : c.index.shards[i]? = some s)
    {id : RunId} {r : RunResults} (hr : s.store.forRun id = some r)
    (hf : r.statuses.contains f = true) :
    f.shard count = i ∧ s.registry.names.contains f = true := by
  obtain ⟨p, staged, hp, hstaged, rfl⟩ := h.of_forRun hs hr
  obtain ⟨status, hstatus⟩ := Table.contains_iff_exists.1 hf
  rw [Staged.get?_resultsIn] at hstatus
  split at hstatus
  · next hi =>
    obtain ⟨l, hl, -⟩ := Option.map_eq_some_iff.1 hstatus
    obtain ⟨n, hn, rfl⟩ :=
      (Staged.contains_stage_iff hstaged).1 (Table.contains_iff_exists.2 ⟨l, hl⟩)
    refine ⟨hi, h.registered n (mem_names_iff.2 ⟨p, hp, hn⟩) s ?_⟩
    rw [hi]
    exact hs
  · cases hstatus

/-- With a subtest its test is registered. -/
theorem contains_testLevel (h : Consistent hash count c) (hs : c.index.shards[i]? = some s)
    (hf : s.registry.names.contains f = true) :
    f.shard count = i ∧ s.registry.names.contains f.testLevel = true := by
  obtain ⟨n, hn⟩ := Table.contains_iff_exists.1 hf
  obtain ⟨-, hi, m, hm, rfl, -⟩ := h.named i s hs f n hn
  refine ⟨hi, ?_⟩
  rw [Fingerprint.testLevel_ofName]
  apply h.registered _ (testLevel_mem_names hm) s
  rw [← Fingerprint.testLevel_ofName, Fingerprint.shard_testLevel, hi]
  exact hs

/-- A subtest and its test are registered under one name, unless names collide. -/
theorem test_eq (h : Consistent hash count c) (hsep : Separates hash c.names)
    (hs : c.index.shards[i]? = some s) {n m : TestName} (hn : s.registry.get? f = some n)
    (hm : s.registry.get? f.testLevel = some m) : m.test = n.test := by
  obtain ⟨⟨x, hx, hxn, hxf⟩, -⟩ := h.named i s hs f n hn
  obtain ⟨⟨y, hy, hym, hyf⟩, -⟩ := h.named i s hs _ m hm
  rw [← hxn, ← hym]
  exact hsep.tests y hy x hx (hyf.trans hxf.symm)

end Consistent

/-- How the shards of an index agree with each other and with its resident runs. -/
structure Coherent (count : Nat) (ix : Index) : Prop where
  shardCount_eq : ix.shards.length = count
  stores : ∀ s ∈ ix.shards, ∀ id, s.store.contains id = ix.resident.contains id
  names_in_place : ∀ i s, ix.shards[i]? = some s → ∀ f, s.registry.names.contains f = true →
    f.test.toNat % count = i
  results_in_place : ∀ i s, ix.shards[i]? = some s → ∀ id r, s.store.forRun id = some r →
    ∀ f, r.statuses.contains f = true → f.test.toNat % count = i
  results_named : ∀ s ∈ ix.shards, ∀ id r, s.store.forRun id = some r →
    ∀ f, r.statuses.contains f = true → s.registry.names.contains f = true
  parents_named : ∀ s ∈ ix.shards, ∀ f, s.registry.names.contains f = true →
    s.registry.names.contains f.testLevel = true

theorem Consistent.coherent (h : Consistent hash count c) : Coherent count c.index := by
  have hshard (f : Fingerprint) : f.shard count = f.test.toNat % count := by
    rw [Fingerprint.shard, Nat.max_eq_left h.count_pos]
  exact {
    shardCount_eq := h.length_eq
    stores := h.inStep.stores
    names_in_place := fun i s hs f hf => (hshard f).symm.trans (h.contains_testLevel hs hf).1
    results_in_place := fun i s hs id r hr f hf =>
      (hshard f).symm.trans (h.of_contains_statuses hs hr hf).1
    results_named := fun s hs id r hr f hf => by
      obtain ⟨i, hi⟩ := List.getElem?_of_mem hs
      exact (h.of_contains_statuses hi hr hf).2
    parents_named := fun s hs f hf => by
      obtain ⟨i, hi⟩ := List.getElem?_of_mem hs
      exact (h.contains_testLevel hi hf).2 }

/-- Whatever was called, the shards agree; no call that comes later takes a name away; and what
publishing, evicting and binding do in the shards never fails once the runs are known to be
resident, or not to be. -/
theorem replay_coherent {calls : List IndexCall} (h : replay hash count calls = .ok c) :
    Coherent count c.index ∧
      (Separates hash c.names → ∀ s ∈ c.index.shards, ∀ f n m, s.registry.get? f = some n →
        s.registry.get? f.testLevel = some m → m.test = n.test) ∧
      (∀ more, Grown c.index (c.afterAll more).index) ∧
      (∀ run staged, c.index.resident.contains run.id = false →
        (c.index.store run staged).1 = .ok ()) ∧
      (∀ n, ∃ ids, (c.index.evictOldest n).1 = .ok ids) ∧
      ∀ columns q, columns ≠ [] →
        (∀ id ∈ columns ++ q.runIds, c.index.resident.contains id = true) →
          ∃ p, c.index.bind columns (some q) = .ok p := by
  have hc := replay_consistent h
  refine ⟨hc.coherent, ?_, hc.grown_afterAll, ?_, ?_, ?_⟩
  · intro hsep s hs f n m hn hm
    obtain ⟨i, hi⟩ := List.getElem?_of_mem hs
    exact hc.test_eq hsep hi hn hm
  · intro run staged hres
    rw [hc.inStep.store_eq hres staged]
  · intro n
    exact ⟨_, by rw [hc.inStep.evictOldest_eq n]⟩
  · intro columns q hne hres
    exact hc.inStep.bind_isOk hne hres

/-- One run is evicted while another one is being loaded; both bring the same subtest, whose name
stays registered beside that of its test. -/
theorem coherent_after_eviction :
    let report : Report := ⟨[⟨"/a.html", .ok, none, [⟨"one", .pass, none⟩]⟩], .null⟩
    let second : Run := { Run.blank with id := 2 }
    let calls : List IndexCall := [.ingest { Run.blank with id := 1 } (.ok report), .begin second,
      .evictAny, .deliver second (.ok report)]
    ∃ c, replay Hash.hashText 2 calls = .ok c ∧ c.index.resident.keys = [2] ∧
      Coherent 2 c.index ∧
      (∀ s ∈ c.index.shards, ∀ f n m, s.registry.get? f = some n →
        s.registry.get? f.testLevel = some m → m.test = n.test) ∧
      Grown c.index (c.afterAll [.evictAny]).index := by
  intro report second calls
  have hreplay : replay Hash.hashText 2 calls = .ok ((start Hash.hashText 2).afterAll calls) :=
    replay_eq_ok_iff.2 ⟨by decide, rfl⟩
  obtain ⟨hcoherent, hparents, hgrown, -⟩ := replay_coherent hreplay
  exact ⟨_, hreplay, by decide +kernel, hcoherent, hparents (by decide +kernel), hgrown _⟩

end Chronicle

end ResultSearch
