import ResultSearch.Proofs.Index.Spared

/-!
# Ingestions that fail

An ingestion may be refused at its start, its load may fail, or its report may have a subtest that has
no fingerprint. None of this shows afterwards: what is resident, what the shards hold and what the
listeners were told is as if the ingestion had never been asked for.

* `Staged.stage_eq_error`, `Staged.exists_stage_error`: the reports that are refused.
* `ingest_eq`, `ingest_eq_error`: a whole ingestion with nothing in between; if it fails it leaves the
  index as it was.
* `FailsWith`, `Untraced`, `failure_of_step`: why an ingestion fails among others, and what this
  leaves alone.
* `failures_of_play`: what holds of all failures in a play.
-/

namespace ResultSearch

/-! ## Reports that are refused -/

namespace SubtestResult

/-- The subtest has a name that cannot be told from none. -/
def IsZero (hash : NameHash) (s : SubtestResult) : Prop := s.name ≠ "" ∧ hash s.name = 0

/-- Of the subtests with one name the first stays. -/
theorem exists_mem_firsts {s : SubtestResult} {subs : List SubtestResult} (h : s ∈ subs) :
    ∃ s' ∈ firsts subs, s'.name = s.name := by
  induction subs with
  | nil => cases h
  | cons head rest ih =>
    by_cases hname : head.name = s.name
    · exact ⟨head, List.mem_cons_self, hname⟩
    · rcases List.mem_cons.1 h with rfl | hrest
      · exact absurd rfl hname
      · obtain ⟨s', hs', heq⟩ := ih hrest
        have hne : s'.name ≠ head.name := fun hs => hname (hs.symm.trans heq)
        exact ⟨s', List.mem_cons_of_mem _ (List.mem_filter.2 ⟨hs', decide_eq_true hne⟩), heq⟩

end SubtestResult

/-- Only a name that cannot be told from none has no fingerprint. -/
theorem Fingerprint.compute_eq_error {hash : NameHash} {test sub : String} {e : Error}
    (h : compute hash test (some sub) = .error e) :
    (sub ≠ "" ∧ hash sub = 0) ∧ e = .zeroSubtestHash sub := by
  by_cases hname : sub = ""
  · simp [compute, subtestName?, Option.filter, hname] at h
  · by_cases hzero : hash sub = 0
    · exact ⟨⟨hname, hzero⟩, by simpa [compute, subtestName?, Option.filter, hname, hzero] using h.symm⟩
    · simp [compute, subtestName?, Option.filter, hname, hzero] at h

namespace Report

/-- Some subtest of the report, wherever it stands, has a name that cannot be told from none. -/
def HasZero (hash : NameHash) (report : Report) : Prop :=
  ∃ r ∈ report.results, ∃ s ∈ r.subtests, s.IsZero hash

end Report

namespace Staged

variable {hash : NameHash} {e : Error}

theorem addSubtests_eq_error {test : String} {seen : List String} {subs : List SubtestResult}
    {staged : Staged} (h : addSubtests hash test seen subs staged = .error e) :
    ∃ s ∈ subs, s.IsZero hash ∧ e = .zeroSubtestHash s.name := by
  induction subs generalizing seen staged with
  | nil => cases h
  | cons sub rest ih =>
    have hlater : (∃ s ∈ rest, s.IsZero hash ∧ e = .zeroSubtestHash s.name) →
        ∃ s ∈ sub :: rest, s.IsZero hash ∧ e = .zeroSubtestHash s.name :=
      fun ⟨s, hs, hzero⟩ => ⟨s, List.mem_cons_of_mem _ hs, hzero⟩
    rw [addSubtests] at h
    split at h
    · exact hlater (ih h)
    · cases hcompute : Fingerprint.compute hash test (some sub.name) with
      | ok f =>
        rw [hcompute] at h
        exact hlater (ih h)
      | error e' =>
        rw [hcompute] at h
        obtain rfl : e' = e := Except.error.inj h
        exact ⟨sub, List.mem_cons_self, Fingerprint.compute_eq_error hcompute⟩

/-- A report is refused only for a subtest whose name cannot be told from none. -/
theorem stage_eq_error {report : Report} (h : stage hash report = .error e) :
    ∃ r ∈ report.results, ∃ s ∈ r.subtests, s.IsZero hash ∧ e = .zeroSubtestHash s.name := by
  obtain ⟨r, hr, staged, hadd⟩ := Outcome.exists_of_foldlM_eq_error h
  obtain ⟨s, hs, hzero⟩ := addSubtests_eq_error hadd
  exact ⟨r, hr, s, hs, hzero⟩

/-- A report with such a subtest anywhere is refused. -/
theorem exists_stage_error {report : Report} (h : report.HasZero hash) :
    ∃ e, stage hash report = .error e := by
  obtain ⟨r, hr, s, hs, hname, hzero⟩ := h
  cases hstage : stage hash report with
  | error e => exact ⟨e, rfl⟩
  | ok staged =>
    obtain ⟨s', hs', heq⟩ := SubtestResult.exists_mem_firsts hs
    have hline : (⟨⟨r.test, some s'.name⟩, s'.status⟩ : StagedResult) ∈ report.lines :=
      List.mem_flatMap.2 ⟨r, hr, List.mem_cons_of_mem _ (List.mem_map_of_mem hs')⟩
    refine absurd hzero ((stage_eq hstage).2 _ hline s.name ?_)
    simp [TestName.plain, Fingerprint.subtestName?, Option.filter, heq, hname]

end Staged

/-! ## An ingestion with nothing in between -/

/-- A whole ingestion is refused, or it fails with its load or its report, or it publishes the run.
Its own mark is gone afterwards, and the other marks are as they were. -/
theorem Chronicle.InStep.ingest_eq {ix : Index} (h : InStep ix) (load : Run → Loaded) (run : Run) :
    ix.ingest load run =
      match ix.begin run with
      | .error e => (.error e, ix)
      | .ok _ =>
        match (load run).bind (Staged.stage ix.hash) with
        | .error e => (.error e, ix)
        | .ok staged => (.ok (), ix.withRun run staged) := by
  rw [Index.ingest]
  cases hbegin : ix.begin run with
  | error e => rfl
  | ok begun =>
    obtain ⟨hres, hmark⟩ := Index.begin_eq_ok hbegin
    obtain rfl := begin_eq hbegin
    have hmarked : InStep { ix with inFlight := run.id :: ix.inFlight } := ⟨h.stores, h.ids⟩
    have hmarks : (run.id :: ix.inFlight).filter (· ≠ run.id) = ix.inFlight := by
      rw [List.filter_cons_of_neg (by simp)]
      exact List.filter_eq_self.2 fun id hid => decide_eq_true fun heq => hmark (heq ▸ hid)
    rcases hmarked.deliver_cases hres (load run) with
      ⟨e, hloaded, hdeliver⟩ | ⟨staged, hloaded, hdeliver⟩
    · dsimp only at hloaded ⊢
      rw [hdeliver, hloaded, Index.abandon, hmarks]
    · dsimp only at hloaded ⊢
      rw [hdeliver, hloaded]
      exact congrArg (fun inFlight => (Except.ok (), { ix.withRun run staged with inFlight })) hmarks

/-- A whole ingestion that fails leaves the index as it was, marks included. -/
theorem Chronicle.InStep.ingest_eq_error {ix index : Index} (h : InStep ix) {load : Run → Loaded}
    {run : Run} {e : Error} (hfail : ix.ingest load run = (.error e, index)) : index = ix := by
  rw [h.ingest_eq] at hfail
  split at hfail
  · exact (congrArg Prod.snd hfail).symm
  · split at hfail
    · exact (congrArg Prod.snd hfail).symm
    · cases congrArg Prod.fst hfail

/-- A whole ingestion that succeeds publishes the report that was loaded. -/
theorem Chronicle.InStep.ingest_eq_ok {ix index : Index} (h : InStep ix) {load : Run → Loaded}
    {run : Run} (hdone : ix.ingest load run = (.ok (), index)) :
    ix.resident.contains run.id = false ∧ ∃ report staged, load run = .ok report ∧
      Staged.stage ix.hash report = .ok staged ∧ index = ix.withRun run staged := by
  rw [h.ingest_eq] at hdone
  split at hdone
  · cases congrArg Prod.fst hdone
  · next hbegin =>
    split at hdone
    · cases congrArg Prod.fst hdone
    · next staged hloaded =>
      obtain ⟨report, hload, hstage⟩ := Outcome.bind_eq_ok_iff.1 hloaded
      exact ⟨(Index.begin_eq_ok hbegin).1, report, staged, hload, hstage,
        (congrArg Prod.snd hdone).symm⟩

/-! ## An ingestion among others -/

namespace Traffic

variable {t t' : Traffic} {hash : NameHash} {shards : Nat} {i : Nat} {run : Run} {e : Error}

/-- The reasons for which an ingestion can fail, and the errors it then ends with. -/
inductive FailsWith (t : Traffic) (i : Nat) (run : Run) : Error → Prop
  | nil : run.isNil = true → FailsWith t i run .nilRun
  | resident : run.id ∈ t.index.residentIds → FailsWith t i run (.runExists run.id)
  | loading : run.id ∉ t.index.residentIds → run.id ∈ t.loads →
      FailsWith t i run (.runLoading run.id)
  | load {e : Error} : t.ingestions[i]? = some ⟨run, .loaded (.error e)⟩ → FailsWith t i run e
  | report {report : Report} {r : TestResult} {s : SubtestResult} :
      t.ingestions[i]? = some ⟨run, .loaded (.ok report)⟩ → r ∈ report.results → s ∈ r.subtests →
      s.IsZero t.index.hash → FailsWith t i run (.zeroSubtestHash s.name)

/-- Nothing has changed but that the ingestion has ended, and that its mark is gone if it had one. -/
structure Untraced (t t' : Traffic) (i : Nat) : Prop where
  hash_eq : t'.index.hash = t.index.hash
  shards_eq : t'.index.shards = t.index.shards
  resident_eq : t'.index.resident = t.index.resident
  mem_inFlight_iff : ∀ id, id ∈ t'.index.inFlight ↔
    id ∈ t.index.inFlight ∧ t.ingestions[i]?.bind Ingestion.load? ≠ some id
  others : ∀ j, j ≠ i → t'.ingestions[j]? = t.ingestions[j]?
  plans_eq : t'.plans = t.plans
  told_eq : t'.told = t.told

/-- An ingestion is refused at its start for one of three reasons. -/
theorem failsWith_of_begin (ht : Orderly hash shards t) (h : t.index.begin run = .error e) :
    FailsWith t i run e := by
  cases hnil : run.isNil with
  | true =>
    rw [Index.begin, hnil] at h
    obtain rfl := Except.error.inj h
    exact .nil hnil
  | false =>
    rw [Index.begin_of_not_nil hnil] at h
    split at h
    · next hres =>
      obtain rfl := Except.error.inj h
      exact .resident (Index.mem_residentIds.2 hres)
    · next hres =>
      split at h
      · next hmark =>
        obtain rfl := Except.error.inj h
        exact .loading (fun hid => hres (Index.mem_residentIds.1 hid))
          ((ht.marked.mem_inFlight_iff _).1 hmark)
      · cases h

/-- An ingestion fails with its load, or with a subtest of its report that has no fingerprint. -/
theorem failsWith_of_loaded {loaded : Loaded} (hi : t.ingestions[i]? = some ⟨run, .loaded loaded⟩)
    (h : loaded.bind (Staged.stage t.index.hash) = .error e) : FailsWith t i run e := by
  cases loaded with
  | error e' =>
    obtain rfl := Except.error.inj h
    exact .load hi
  | ok report =>
    obtain ⟨r, hr, s, hs, hzero, rfl⟩ := Staged.stage_eq_error h
    exact .report hi hr hs hzero

/-- What is new in a list with one more ingestion is that one. -/
theorem eq_last_of_new {ingestions : List Ingestion} {x y : Ingestion}
    (h : (ingestions ++ [x])[i]? = some y) (hnew : ingestions[i]? ≠ some y) :
    i = ingestions.length ∧ x = y := by
  rcases Nat.lt_trichotomy i ingestions.length with hi | rfl | hi
  · exact absurd ((List.getElem?_append_left hi).symm.trans h) hnew
  · exact ⟨rfl, Option.some.inj (List.getElem?_concat_length.symm.trans h)⟩
  · rw [List.getElem?_eq_none (by simpa using Nat.succ_le_of_lt hi)] at h
    cases h

/-- What is new in a list with one ingestion changed is that one. -/
theorem eq_changed_of_new {ingestions : List Ingestion} {j : Nat} {x y z : Ingestion}
    (hx : ingestions[j]? = some x) (h : (ingestions.set j y)[i]? = some z)
    (hnew : ingestions[i]? ≠ some z) : i = j ∧ y = z := by
  by_cases hij : j = i
  · obtain rfl := hij
    have hself := List.getElem?_set_self (a := y) (List.getElem?_eq_some_iff.1 hx).1
    exact ⟨rfl, Option.some.inj (hself.symm.trans h)⟩
  · exact absurd ((List.getElem?_set_ne hij).symm.trans h) hnew

/-- An ingestion that fails in some step does so for one of the reasons, and leaves no trace. -/
theorem failure_of_step (ht : Orderly hash shards t) {s : TrafficStep} (hs : t.step s = some t')
    (hended : t'.ingestions[i]? = some ⟨run, .ended (.error e)⟩)
    (hnew : t.ingestions[i]? ≠ some ⟨run, .ended (.error e)⟩) :
    FailsWith t i run e ∧ Untraced t t' i := by
  cases s with
  | start run' =>
    rw [step] at hs
    split at hs
    · next e' hbegin =>
      obtain rfl := Option.some.inj hs
      obtain ⟨rfl, heq⟩ := eq_last_of_new hended hnew
      obtain ⟨rfl, rfl⟩ : run' = run ∧ e' = e := by simpa using heq
      refine ⟨failsWith_of_begin ht hbegin, ⟨rfl, rfl, rfl, fun id => ?_, fun j hj => ?_, rfl, rfl⟩⟩
      · simp
      · rcases Nat.lt_or_gt_of_ne hj with hj | hj
        · exact List.getElem?_append_left hj
        · rw [List.getElem?_eq_none (Nat.le_of_lt hj),
            List.getElem?_eq_none (by simpa using Nat.succ_le_of_lt hj)]
    · obtain rfl := Option.some.inj hs
      obtain ⟨-, heq⟩ := eq_last_of_new hended hnew
      cases heq
  | arrive j loaded =>
    rw [step] at hs
    split at hs
    · next hj =>
      obtain rfl := Option.some.inj hs
      obtain ⟨-, heq⟩ := eq_changed_of_new hj hended hnew
      cases heq
    · cases hs
  | finish j =>
    rw [step] at hs
    split at hs
    · next run' loaded hj =>
      have hres : t.index.resident.contains run'.id = false :=
        ht.marked.absent _ (List.mem_filterMap.2 ⟨_, List.mem_of_getElem? hj, rfl⟩)
      rcases ht.inStep.deliver_cases hres loaded with
        ⟨e', hloaded, hdeliver⟩ | ⟨staged, -, hdeliver⟩
      · rw [hdeliver] at hs
        obtain rfl := Option.some.inj hs
        obtain ⟨rfl, heq⟩ := eq_changed_of_new hj hended hnew
        obtain ⟨rfl, rfl⟩ : run' = run ∧ e' = e := by simpa using heq
        refine ⟨failsWith_of_loaded hj hloaded,
          ⟨rfl, rfl, rfl, fun id => ?_, fun j hj => List.getElem?_set_ne hj.symm, rfl, rfl⟩⟩
        rw [hj, Index.abandon, List.mem_filter, decide_eq_true_iff]
        exact and_congr_right fun _ => not_congr (eq_comm.trans (Option.some_inj (a := run'.id)).symm)
      · rw [hdeliver] at hs
        obtain rfl := Option.some.inj hs
        obtain ⟨-, heq⟩ := eq_changed_of_new hj hended hnew
        cases heq
    · cases hs
  | drop j =>
    rw [step] at hs
    split at hs
    · next hj =>
      obtain rfl := Option.some.inj hs
      obtain ⟨-, heq⟩ := eq_changed_of_new hj hended hnew
      cases heq
    · next hj =>
      obtain rfl := Option.some.inj hs
      obtain ⟨-, heq⟩ := eq_changed_of_new hj hended hnew
      cases heq
    · cases hs
  | evict fraction =>
    obtain rfl := Option.some.inj hs
    exact absurd ((congrArg (·[i]?) (ingestions_evicted _)).symm.trans hended) hnew
  | evictAny =>
    obtain rfl := Option.some.inj hs
    exact absurd ((congrArg (·[i]?) (ingestions_evicted _)).symm.trans hended) hnew
  | bind columns query =>
    obtain rfl := Option.some.inj hs
    exact absurd hended hnew

/-- Whatever else happens: an ingestion whose load has failed, or whose report has anywhere a subtest
that cannot be told from none, ends with an error. An ingestion that ends with an error does so for one
of the known reasons, and in that step nothing changes but that its own mark goes. And at any time the
index, the plans and the notices are those of the play in which the ingestions that came to nothing
were never asked for. -/
theorem failures_of_play {steps : List TrafficStep} (h : play hash shards steps = some t) :
    (∀ load run e index, t.index.ingest load run = (.error e, index) → index = t.index) ∧
      (∀ i run loaded, t.ingestions[i]? = some ⟨run, .loaded loaded⟩ →
        (∀ report, loaded = .ok report → report.HasZero t.index.hash) → ∃ t' e,
          t.step (.finish i) = some t' ∧ t'.ingestions[i]? = some ⟨run, .ended (.error e)⟩) ∧
      (∀ s t' i run e, t.step s = some t' → t'.ingestions[i]? = some ⟨run, .ended (.error e)⟩ →
        t.ingestions[i]? ≠ some ⟨run, .ended (.error e)⟩ →
          FailsWith t i run e ∧ Untraced t t' i) ∧
      ∃ u, play hash shards (TrafficStep.without t.vainIn 0 steps) = some u ∧ u.index = t.index ∧
        u.ingestions = t.ingestions.filter (fun x => !x.isVain) ∧ u.plans = t.plans ∧
          u.told = t.told := by
  have ht := play_orderly h
  refine ⟨fun load run e index => ht.inStep.ingest_eq_error, fun i run loaded hi hzero => ?_,
    fun s t' i run e => failure_of_step ht, play_without_vain h⟩
  obtain ⟨t', hstep, hingestions⟩ := ht.finish_eq hi
  obtain ⟨e, he⟩ : ∃ e, loaded.bind (Staged.stage t.index.hash) = .error e := by
    cases loaded with
    | error e => exact ⟨e, rfl⟩
    | ok report => exact Staged.exists_stage_error (hzero report rfl)
  refine ⟨t', e, hstep, ?_⟩
  rw [hingestions, List.getElem?_set_self (List.getElem?_eq_some_iff.1 hi).1, he]
  rfl

/-- A run is refused while it is loaded and when it is resident, another's load fails, a third is
dropped, and a fourth waits to be refused for the last subtest of its last test. What is left without
them are the steps of the two that were not in vain. -/
theorem failures_of_refused :
    let hash : NameHash := fun text => if text = "zero" then 0 else text.length.toUInt64
    let run (id : RunId) : Run := { Run.blank with id }
    let report : Report := ⟨[⟨"/a.html", .ok, none, [⟨"one", .pass, none⟩]⟩], .null⟩
    let zero : Report := ⟨[⟨"/a.html", .ok, none, []⟩,
      ⟨"/bb.html", .ok, none, [⟨"one", .pass, none⟩, ⟨"zero", .pass, none⟩]⟩], .null⟩
    let steps : List TrafficStep := [.start (run 1), .start (run 1), .start (run 2),
      .arrive 0 (.ok report), .finish 0, .start (run 1), .arrive 2 (.error .transport), .finish 2,
      .start (run 3), .drop 4, .start (run 4), .arrive 5 (.ok zero)]
    let spared : List TrafficStep := [.start (run 1), .arrive 0 (.ok report), .finish 0,
      .start (run 4), .arrive 1 (.ok zero)]
    ∃ t, play hash 2 steps = some t ∧
      (∃ t' e, t.step (.finish 5) = some t' ∧
        t'.ingestions[5]? = some ⟨run 4, .ended (.error e)⟩ ∧ FailsWith t 5 (run 4) e ∧
          Untraced t t' 5) ∧
      ∃ u, play hash 2 spared = some u ∧ u.index = t.index ∧ u.told = t.told := by
  intro hash run report zero steps spared
  have hshape : (play hash 2 steps).map (fun t => (t.ingestions, t.index.hash)) =
      some ([⟨run 1, .ended (.ok ())⟩, ⟨run 1, .ended (.error (.runLoading 1))⟩,
        ⟨run 2, .ended (.error .transport)⟩, ⟨run 1, .ended (.error (.runExists 1))⟩,
        ⟨run 3, .dropped⟩, ⟨run 4, .loaded (.ok zero)⟩], hash) := rfl
  obtain ⟨t, ht, heq⟩ := Option.map_eq_some_iff.1 hshape
  obtain ⟨hingestions, hhash⟩ := Prod.mk.inj heq
  have hwaits : t.ingestions[5]? = some ⟨run 4, .loaded (.ok zero)⟩ := by rw [hingestions]; rfl
  have hspared : TrafficStep.without t.vainIn 0 steps = spared := by
    unfold vainIn
    rw [hingestions]
    rfl
  obtain ⟨-, hfinish, hfails, u, hu, hindex, -, -, htold⟩ := failures_of_play ht
  have hzero : ∀ r, (Except.ok zero : Loaded) = .ok r → r.HasZero t.index.hash := by
    intro r hr
    obtain rfl : zero = r := Except.ok.inj hr
    rw [hhash]
    exact ⟨_, .tail _ (.head _), ⟨"zero", .pass, none⟩, .tail _ (.head _), by decide, rfl⟩
  obtain ⟨t', e, hstep, hended⟩ := hfinish 5 (run 4) _ hwaits hzero
  have hfailure := hfails _ t' 5 (run 4) e hstep hended (by rw [hwaits]; nofun)
  exact ⟨t, ht, ⟨t', e, hstep, hended, hfailure⟩, u, hspared ▸ hu, hindex, htold⟩

end Traffic

end ResultSearch
