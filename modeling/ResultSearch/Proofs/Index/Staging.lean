import ResultSearch.Index.Staging
import ResultSearch.Proofs.Outcome
import ResultSearch.Proofs.Table

/-!
# What a report says

A report is a list of lines, one for each test result and one for the first of the subtests with
one name in it. Staging is to write the lines into a table, one after the other, under the
fingerprints of their names; so a later line takes the place of an earlier one.

* `stage_eq`: a report that can be staged comes to the table of its lines.
* `testLevel_mem_names`: with a subtest a report names its test.
* `Separates`: a hash that tells some names apart; `ofName_inj` says that fingerprints then do.
* `status_eq_of_unshared`, `get?_stage`: what is staged under the fingerprint of a name is what the
  report says of the name.
-/

namespace ResultSearch

namespace TestName

/-- The names without an empty subtest, which stands for the test itself. -/
def plain (n : TestName) : TestName := ⟨n.test, Fingerprint.subtestName? n.subtest⟩

end TestName

/-! ## The lines of a report -/

namespace SubtestResult

/-- The first of the subtests with one name, for each name. -/
def firsts : List SubtestResult → List SubtestResult
  | [] => []
  | s :: rest => s :: (firsts rest).filter fun x => x.name ≠ s.name

end SubtestResult

namespace TestResult

/-- The lines of a test result: its own, then those of its subtests. -/
def lines (r : TestResult) : List StagedResult :=
  ⟨⟨r.test, none⟩, r.status⟩ ::
    (SubtestResult.firsts r.subtests).map fun s => ⟨⟨r.test, some s.name⟩, s.status⟩

end TestResult

namespace Report

/-- The lines of all test results, in the order of the report. -/
def lines (r : Report) : List StagedResult := r.results.flatMap TestResult.lines

/-- The tests and subtests that the report speaks of. -/
def names (r : Report) : List TestName := r.lines.map fun l => l.name.plain

/-- The status that the report gives to a test or subtest; its last line about it counts. -/
def status (r : Report) (n : TestName) : Status :=
  (Table.find n ((r.lines.map fun l => (l.name.plain, l.status)).reverse)).getD .unknown

end Report

/-! ## Fingerprints of names -/

namespace Fingerprint

/-- The fingerprint of a test or subtest, also of one that is refused. -/
def ofName (hash : NameHash) (n : TestName) : Fingerprint :=
  ⟨hash n.test, ((subtestName? n.subtest).map hash).getD 0⟩

theorem subtestName?_idem (subtest : Option String) :
    subtestName? (subtestName? subtest) = subtestName? subtest := by
  cases subtest with
  | none => rfl
  | some s => by_cases h : s = "" <;> simp [subtestName?, Option.filter, h]

@[simp] theorem ofName_plain (hash : NameHash) (n : TestName) :
    ofName hash n.plain = ofName hash n := by
  rw [ofName, ofName, TestName.plain, subtestName?_idem]

theorem ofName_of_compute {hash : NameHash} {test : String} {subtest : Option String}
    {f : Fingerprint} (h : compute hash test subtest = .ok f) :
    f = ofName hash ⟨test, subtest⟩ := by
  unfold compute at h
  unfold ofName
  split at h
  · next hs => cases h; rw [hs]; rfl
  · next sub hs =>
    split at h
    · cases h
    · cases h; rw [hs]; rfl

/-- A subtest that has a fingerprint is not taken for the test itself. -/
theorem sub_ne_zero_of_compute {hash : NameHash} {test sub : String} {subtest : Option String}
    {f : Fingerprint} (h : compute hash test subtest = .ok f)
    (hs : subtestName? subtest = some sub) : hash sub ≠ 0 := by
  rw [compute, hs] at h
  intro h0
  simp [h0] at h

theorem ofName_of_plain {hash : NameHash} {n : TestName} (h : n.plain = n) :
    ofName hash n = ⟨hash n.test, (n.subtest.map hash).getD 0⟩ := by
  rw [← ofName_plain, ofName, h]
  have : subtestName? n.subtest = n.subtest := congrArg TestName.subtest h
  rw [this]

theorem testLevel_ofName (hash : NameHash) (n : TestName) :
    (ofName hash n).testLevel = ofName hash ⟨n.test, none⟩ := rfl

end Fingerprint

/-! ## Staging -/

namespace Staged

variable {hash : NameHash}

/-- Write a line under the fingerprint of its name. -/
def write (hash : NameHash) (staged : Staged) (l : StagedResult) : Staged :=
  staged.set (Fingerprint.ofName hash l.name) l

/-- A line whose name has a fingerprint. -/
def Sound (hash : NameHash) (l : StagedResult) : Prop :=
  ∀ sub, l.name.plain.subtest = some sub → hash sub ≠ 0

theorem addSubtests_eq {test : String} {subs : List SubtestResult} {seen : List String}
    {staged staged' : Staged} (h : addSubtests hash test seen subs staged = .ok staged') :
    let lines := ((SubtestResult.firsts subs).filter fun s => !seen.contains s.name).map
      fun s => (⟨⟨test, some s.name⟩, s.status⟩ : StagedResult)
    staged' = lines.foldl (write hash) staged ∧ ∀ l ∈ lines, Sound hash l := by
  induction subs generalizing seen staged with
  | nil =>
    cases h
    exact ⟨rfl, by simp [SubtestResult.firsts]⟩
  | cons sub rest ih =>
    rw [addSubtests] at h
    -- What is kept of the rest, whether the name of `sub` was seen before or just now.
    have hrest : (((SubtestResult.firsts rest).filter fun x => x.name ≠ sub.name).filter
        fun s => !seen.contains s.name) =
          (SubtestResult.firsts rest).filter fun s => !(sub.name :: seen).contains s.name := by
      rw [List.filter_filter]
      refine List.filter_congr fun x _ => ?_
      by_cases hx : x.name = sub.name <;> simp [hx]
    split at h
    · next hseen =>
      have hsame :
          (SubtestResult.firsts rest).filter (fun s => !(sub.name :: seen).contains s.name) =
            (SubtestResult.firsts rest).filter fun s => !seen.contains s.name := by
        refine List.filter_congr fun x _ => ?_
        by_cases hx : x.name = sub.name
        · simpa [hx] using hseen
        · simp [hx]
      have := ih h
      simpa only [SubtestResult.firsts, List.filter_cons, hseen, Bool.not_true, Bool.false_eq_true,
        if_false, hrest, hsame] using this
    · next hseen =>
      obtain ⟨f, hf, h⟩ := Outcome.bind_eq_ok_iff.1 h
      obtain ⟨heq, hsound⟩ := ih h
      simp only [SubtestResult.firsts, List.filter_cons, hseen, Bool.not_false, if_true, hrest,
        List.map_cons, List.foldl_cons, List.mem_cons, forall_eq_or_imp]
      rw [Fingerprint.ofName_of_compute hf] at heq
      exact ⟨heq, fun s hs => Fingerprint.sub_ne_zero_of_compute hf hs, hsound⟩

theorem addResult_eq {r : TestResult} {staged staged' : Staged}
    (h : addResult hash staged r = .ok staged') :
    staged' = r.lines.foldl (write hash) staged ∧ ∀ l ∈ r.lines, Sound hash l := by
  obtain ⟨f, hf, h⟩ := Outcome.bind_eq_ok_iff.1 h
  have hsubs := addSubtests_eq h
  simp only [List.contains_nil, Bool.not_false, List.filter_true] at hsubs
  rw [Fingerprint.ofName_of_compute hf] at hsubs
  rw [TestResult.lines, List.foldl_cons]
  refine ⟨hsubs.1, ?_⟩
  rintro l (_ | ⟨_, hl⟩)
  · intro sub hs
    cases hs
  · exact hsubs.2 l hl

/-- A report that can be staged comes to the table of its lines, and all its names have
fingerprints. -/
theorem stage_eq {report : Report} {staged : Staged} (h : stage hash report = .ok staged) :
    staged = Table.ofList (report.lines.map fun l => (Fingerprint.ofName hash l.name, l)) ∧
      ∀ l ∈ report.lines, Sound hash l := by
  have hfold {results : List TestResult} {s s' : Staged}
      (h : results.foldlM (addResult hash) s = .ok s') :
      s' = (results.flatMap TestResult.lines).foldl (write hash) s ∧
        ∀ l ∈ results.flatMap TestResult.lines, Sound hash l := by
    induction results generalizing s with
    | nil =>
      cases h
      exact ⟨rfl, by simp⟩
    | cons r rest ih =>
      rw [List.foldlM_cons] at h
      obtain ⟨t, ht, h⟩ := Outcome.bind_eq_ok_iff.1 h
      obtain ⟨rfl, hsound⟩ := addResult_eq ht
      obtain ⟨rfl, hrest⟩ := ih h
      refine ⟨by rw [List.flatMap_cons, List.foldl_append], fun l hl => ?_⟩
      rw [List.flatMap_cons, List.mem_append] at hl
      exact hl.elim (hsound l) (hrest l)
  obtain ⟨rfl, hsound⟩ := hfold h
  refine ⟨?_, hsound⟩
  rw [Table.ofList, List.foldl_map]
  rfl

/-- What is staged for one shard, as the results of a run. -/
def resultsIn (staged : Staged) (count shard : Nat) : RunResults :=
  .ofList ((staged.forShard count shard).map fun e => (e.1, e.2.status))

theorem get?_resultsIn {staged : Staged} {count shard : Nat} {f : Fingerprint} :
    (staged.resultsIn count shard).statuses.get? f =
      if f.shard count = shard then (staged.get? f).map StagedResult.status else none := by
  have hfilter : Table.find f (staged.forShard count shard) =
      if f.shard count = shard then staged.get? f else none := by
    have := Table.find_filter (q := fun f => f.shard count = shard) (k := f) (l := staged.entries)
    simp only [decide_eq_true_eq] at this
    exact this
  have hnodup : (((staged.forShard count shard).map
      fun e => (e.1, e.2.status)).map Prod.fst).Nodup :=
    Table.nodup_map_filter (fun _ => rfl) staged.nodup
  rw [resultsIn, RunResults.ofList, Table.get?_ofList_of_nodup hnodup, Table.find_map, hfilter]
  split <;> rfl

theorem contains_stage_iff {report : Report} {staged : Staged}
    (h : stage hash report = .ok staged) {f : Fingerprint} :
    staged.contains f = true ↔ ∃ n ∈ report.names, Fingerprint.ofName hash n = f := by
  rw [Table.contains_iff_exists, (stage_eq h).1]
  constructor
  · rintro ⟨l, hl⟩
    rw [Table.get?_ofList] at hl
    obtain ⟨l', hl', he⟩ := List.mem_map.1 (List.mem_reverse.1 (Table.mem_of_find_eq_some hl))
    refine ⟨l'.name.plain, List.mem_map_of_mem hl', ?_⟩
    rw [Fingerprint.ofName_plain]
    exact congrArg Prod.fst he
  · rintro ⟨n, hn, hf⟩
    obtain ⟨l, hl, rfl⟩ := List.mem_map.1 hn
    rw [Fingerprint.ofName_plain] at hf
    refine Option.ne_none_iff_exists'.1 fun hnone => ?_
    rw [Table.get?_ofList] at hnone
    apply Table.find_eq_none_iff.1 hnone
    rw [List.map_reverse, List.mem_reverse, List.map_map]
    exact List.mem_map.2 ⟨l, hl, hf⟩

/-- What is registered with an entry is a name of the report. -/
theorem mem_names_of_mem_entries {report : Report} {staged : Staged}
    (h : stage hash report = .ok staged) {e : Fingerprint × StagedResult}
    (he : e ∈ staged.entries) :
    e.2.name.plain ∈ report.names ∧ e.1 = Fingerprint.ofName hash e.2.name := by
  obtain ⟨f, l⟩ := e
  have hget := Table.get?_eq_some_iff.2 he
  rw [(stage_eq h).1, Table.get?_ofList] at hget
  have := Table.mem_of_find_eq_some hget
  simp only [List.mem_reverse, List.mem_map, Prod.mk.injEq] at this
  obtain ⟨l', hl', rfl, rfl⟩ := this
  exact ⟨List.mem_map_of_mem hl', rfl⟩

end Staged

/-! ## Names -/

namespace Report

theorem plain_of_mem_names {r : Report} {n : TestName} (h : n ∈ r.names) : n.plain = n := by
  obtain ⟨l, -, rfl⟩ := List.mem_map.1 h
  rw [TestName.plain, TestName.plain, Fingerprint.subtestName?_idem]

/-- With a subtest a report names its test. -/
theorem testLevel_mem_names {r : Report} {n : TestName} (h : n ∈ r.names) :
    (⟨n.test, none⟩ : TestName) ∈ r.names := by
  obtain ⟨l, hl, rfl⟩ := List.mem_map.1 h
  obtain ⟨t, ht, hl⟩ := List.mem_flatMap.1 hl
  have htest : l.name.test = t.test := by
    rcases List.mem_cons.1 hl with rfl | hl
    · rfl
    · obtain ⟨s, -, rfl⟩ := List.mem_map.1 hl
      rfl
  refine List.mem_map.2 ⟨⟨⟨t.test, none⟩, t.status⟩, ?_, ?_⟩
  · exact List.mem_flatMap.2 ⟨t, ht, List.mem_cons_self⟩
  · rw [TestName.plain, TestName.plain, htest]
    rfl

/-- The names of a staged report have fingerprints. -/
theorem hash_subtest_ne_zero {hash : NameHash} {r : Report} {staged : Staged}
    (h : Staged.stage hash r = .ok staged) {n : TestName} (hn : n ∈ r.names) {s : String}
    (hs : n.subtest = some s) : hash s ≠ 0 := by
  obtain ⟨l, hl, rfl⟩ := List.mem_map.1 hn
  exact (Staged.stage_eq h).2 l hl s hs

/-- What a report does not name has no status in it. -/
theorem mem_names_of_status_ne_unknown {r : Report} {n : TestName} (h : r.status n ≠ .unknown) :
    n ∈ r.names := by
  cases hfind : Table.find n (r.lines.map fun l => (l.name.plain, l.status)).reverse with
  | none => rw [status, hfind] at h; exact absurd rfl h
  | some st =>
    have hmem := List.mem_reverse.1 (Table.mem_of_find_eq_some hfind)
    obtain ⟨l, hl, he⟩ := List.mem_map.1 hmem
    exact List.mem_map.2 ⟨l, hl, congrArg Prod.fst he⟩

end Report

/-- If the report has no other name with the fingerprint of a name, then what is staged under it is
what the report says of the name. -/
theorem Staged.status_eq_of_unshared {hash : NameHash} {report : Report} {staged : Staged}
    (hstage : stage hash report = .ok staged) {n : TestName}
    (hn : ∀ m ∈ report.names, Fingerprint.ofName hash m = Fingerprint.ofName hash n → m = n) :
    ((staged.get? (Fingerprint.ofName hash n)).map StagedResult.status).getD .unknown =
      report.status n := by
  have hkeys : (report.lines.map fun l => (Fingerprint.ofName hash l.name, l.status)).reverse =
      ((report.lines.map fun l => (l.name.plain, l.status)).reverse).map
        fun p => (Fingerprint.ofName hash p.1, p.2) := by
    rw [List.map_reverse, List.map_map]
    simp only [Function.comp_def, Fingerprint.ofName_plain]
  rw [(stage_eq hstage).1, Table.get?_ofList, ← Table.find_map, List.map_reverse,
    List.map_map, Report.status]
  apply congrArg (Option.getD · Status.unknown)
  refine (congrArg (Table.find _) hkeys).trans (Table.find_map_key ?_)
  intro p hp hf
  obtain ⟨l, hl, rfl⟩ := List.mem_map.1 (List.mem_reverse.1 hp)
  exact hn _ (List.mem_map_of_mem hl) hf

/-! ## Hashes without collisions -/

/-- The hash tells the tests among some names apart, and the subtests among them. -/
structure Separates (hash : NameHash) (names : List TestName) : Prop where
  tests : ∀ n ∈ names, ∀ m ∈ names, hash n.test = hash m.test → n.test = m.test
  subtests : ∀ n ∈ names, ∀ m ∈ names, n.subtest.map hash = m.subtest.map hash →
    n.subtest = m.subtest

namespace Separates

variable {hash : NameHash} {names : List TestName}

instance : Decidable (Separates hash names) :=
  decidable_of_iff
    ((∀ n ∈ names, ∀ m ∈ names, hash n.test = hash m.test → n.test = m.test) ∧
      ∀ n ∈ names, ∀ m ∈ names, n.subtest.map hash = m.subtest.map hash → n.subtest = m.subtest)
    ⟨fun h => ⟨h.1, h.2⟩, fun h => ⟨h.tests, h.subtests⟩⟩

/-- Names that the hash tells apart have different fingerprints, as no subtest hashes to zero. -/
theorem ofName_inj (h : Separates hash names) {n m : TestName} (hn : n ∈ names) (hm : m ∈ names)
    (hn' : n.plain = n) (hm' : m.plain = m) (hn0 : ∀ s, n.subtest = some s → hash s ≠ 0)
    (hm0 : ∀ s, m.subtest = some s → hash s ≠ 0)
    (heq : Fingerprint.ofName hash n = Fingerprint.ofName hash m) : n = m := by
  rw [Fingerprint.ofName_of_plain hn', Fingerprint.ofName_of_plain hm',
    Fingerprint.mk.injEq] at heq
  obtain ⟨htest, hsub⟩ := heq
  obtain ⟨t, s⟩ := n
  obtain ⟨t', s'⟩ := m
  obtain rfl : t = t' := h.tests _ hn _ hm htest
  cases s with
  | none =>
    cases s' with
    | none => rfl
    | some y => exact absurd hsub.symm (hm0 y rfl)
  | some x =>
    cases s' with
    | none => exact absurd hsub (hn0 x rfl)
    | some y => rw [show some x = some y from h.subtests _ hn _ hm (congrArg some hsub)]

/-- A test and a subtest that are known under the hashes of one fingerprint belong together. -/
theorem mem_of_named (h : Separates hash names) {f : Fingerprint} {n : TestName}
    (htest : ∃ m ∈ names, m.test = n.test ∧ hash m.test = f.test)
    (hsub : ∃ m ∈ names, Fingerprint.ofName hash m = f ∧ m.subtest = n.subtest) :
    n ∈ names ∧ f = Fingerprint.ofName hash n := by
  obtain ⟨x, hx, hxn, hxf⟩ := htest
  obtain ⟨y, hy, hyf, hyn⟩ := hsub
  have hyn' : y.test = n.test := by
    rw [← hxn]
    apply h.tests y hy x hx
    rw [hxf, ← hyf]
    rfl
  obtain rfl : y = n := by
    cases y
    cases n
    cases hyn'
    cases hyn
    rfl
  exact ⟨hy, hyf.symm⟩

/-- What is staged under the fingerprint of a name is what the report says of the name. -/
theorem get?_stage (h : Separates hash names) {report : Report} {staged : Staged}
    (hstage : Staged.stage hash report = .ok staged) (hsub : report.names ⊆ names) {n : TestName}
    (hn : n ∈ names) (hn' : n.plain = n) (hn0 : ∀ s, n.subtest = some s → hash s ≠ 0) :
    ((staged.get? (Fingerprint.ofName hash n)).map StagedResult.status).getD .unknown =
      report.status n := by
  refine Staged.status_eq_of_unshared hstage fun m hm heq => ?_
  exact h.ofName_inj (hsub hm) hn (Report.plain_of_mem_names hm) hn'
    (fun s hs => Report.hash_subtest_ne_zero hstage hm hs) hn0 heq

end Separates

end ResultSearch
