import ResultSearch.Proofs.Index.Failures
import ResultSearch.Proofs.Index.Flat

/-!
# What a run holds of its report

A report may have several entries for one test, and an entry several subtests of one name. The two
levels have opposite rules: of the entries the last counts, and so it does among those that list some
subtest; within an entry the first subtest of a name counts. A subtest without a name counts as the
test itself. Which results stand behind this in a shard does not depend on the order in which the
shard has taken them in.

* `Report.LastEntry`, `Report.LastListing`: the entries and subtests that count.
* `Report.status_of_lastEntry`, `status_of_nameless`, `status_of_lastListing`: what a report says.
* `Index.WrittenInSomeOrder`: the shards after a publication in any order.
* `Index.Reflects`: an index holds of a run what a report says, and the names of the report.
* `ingestion_reflects_report`: so it does after an ingestion.
* `harness_status_of_ingestion`: the status of a test itself, whatever names its subtests have.
-/

namespace ResultSearch

/-! ## The entries that count -/

namespace TestResult

/-- The subtest is the first of its name in the entry. -/
def FirstNamed (r : TestResult) (s : SubtestResult) : Prop :=
  ∃ before after, r.subtests = before ++ s :: after ∧ ∀ x ∈ before, x.name ≠ s.name

end TestResult

namespace Report

/-- The entry is the last for its test. -/
def LastEntry (report : Report) (r : TestResult) : Prop :=
  ∃ before after, report.results = before ++ r :: after ∧ ∀ x ∈ after, x.test ≠ r.test

/-- The entry is the last for its test that lists a subtest of this name, and the subtest is the
first of the name in it. -/
def LastListing (report : Report) (r : TestResult) (s : SubtestResult) : Prop :=
  ∃ before after, report.results = before ++ r :: after ∧ r.FirstNamed s ∧
    ∀ x ∈ after, x.test = r.test → ∀ y ∈ x.subtests, y.name ≠ s.name

variable {report : Report} {r : TestResult} {s : SubtestResult}

theorem exists_lastEntry (h : r ∈ report.results) :
    ∃ r', report.LastEntry r' ∧ r'.test = r.test := by
  cases hfind : report.results.reverse.find? (fun x => decide (x.test = r.test)) with
  | none =>
    have := List.find?_eq_none.1 hfind r (List.mem_reverse.2 h)
    simp at this
  | some r' =>
    obtain ⟨htest, before, after, hsplit, hbefore⟩ := List.find?_eq_some_iff_append.1 hfind
    have htest : r'.test = r.test := by simpa using htest
    refine ⟨r', ⟨after.reverse, before.reverse, ?_, fun x hx => ?_⟩, htest⟩
    · rw [← List.reverse_reverse report.results, hsplit]
      simp
    · simpa [htest] using hbefore x (List.mem_reverse.1 hx)

end Report

theorem SubtestResult.mem_of_mem_firsts {s : SubtestResult} {subs : List SubtestResult}
    (h : s ∈ firsts subs) : s ∈ subs := by
  induction subs with
  | nil => exact h
  | cons head rest ih =>
    rcases List.mem_cons.1 h with rfl | h
    · exact List.mem_cons_self
    · exact List.mem_cons_of_mem _ (ih (List.mem_filter.1 h).1)

namespace TestResult

variable {r : TestResult} {s : SubtestResult}

theorem exists_firstNamed (h : s ∈ r.subtests) : ∃ s', r.FirstNamed s' ∧ s'.name = s.name := by
  cases hfind : r.subtests.find? (fun x => decide (x.name = s.name)) with
  | none =>
    have := List.find?_eq_none.1 hfind s h
    simp at this
  | some s' =>
    obtain ⟨hname, before, after, hsplit, hbefore⟩ := List.find?_eq_some_iff_append.1 hfind
    have hname : s'.name = s.name := by simpa using hname
    refine ⟨s', ⟨before, after, hsplit, fun x hx => ?_⟩, hname⟩
    simpa [hname] using hbefore x hx

/-- The line of the first subtest of a name, with only lines of other subtests after it. -/
theorem lines_of_firstNamed (h : r.FirstNamed s) :
    ∃ before after, r.lines = before ++ ⟨⟨r.test, some s.name⟩, s.status⟩ :: after ∧
      ∀ l ∈ after, ∃ name, name ≠ s.name ∧ l.name = ⟨r.test, some name⟩ := by
  obtain ⟨before, after, hsplit, hbefore⟩ := h
  -- The subtests of other names that come before leave the first of this name where it is.
  have hfirsts (subs : List SubtestResult) (hsubs : ∀ x ∈ subs, x.name ≠ s.name) :
      ∃ pre post, SubtestResult.firsts (subs ++ s :: after) = pre ++ s :: post ∧
        ∀ x ∈ post, x.name ≠ s.name := by
    induction subs with
    | nil =>
      refine ⟨[], _, rfl, fun x hx => ?_⟩
      simpa using (List.mem_filter.1 hx).2
    | cons head rest ih =>
      obtain ⟨pre, post, hfirsts, hpost⟩ := ih fun x hx => hsubs x (List.mem_cons_of_mem _ hx)
      have hkept : s.name ≠ head.name := (hsubs head List.mem_cons_self).symm
      refine ⟨head :: pre.filter (fun x => x.name ≠ head.name),
        post.filter (fun x => x.name ≠ head.name), ?_, fun x hx => hpost x (List.mem_filter.1 hx).1⟩
      rw [List.cons_append, SubtestResult.firsts, hfirsts]
      simp [List.filter_append, hkept]
  obtain ⟨pre, post, hfirsts, hpost⟩ := hfirsts before hbefore
  let line (x : SubtestResult) : StagedResult := ⟨⟨r.test, some x.name⟩, x.status⟩
  refine ⟨⟨⟨r.test, none⟩, r.status⟩ :: pre.map line, post.map line, ?_, ?_⟩
  · rw [lines, hsplit, hfirsts]
    simp [line]
  · intro l hl
    obtain ⟨x, hx, rfl⟩ := List.mem_map.1 hl
    exact ⟨x.name, hpost x hx, rfl⟩

/-- A line is about the test itself or about a subtest that the entry lists. -/
theorem name_of_mem_lines {l : StagedResult} (h : l ∈ r.lines) :
    l.name = ⟨r.test, none⟩ ∨ ∃ s ∈ r.subtests, l.name = ⟨r.test, some s.name⟩ := by
  rcases List.mem_cons.1 h with rfl | h
  · exact .inl rfl
  · obtain ⟨s, hs, rfl⟩ := List.mem_map.1 h
    exact .inr ⟨s, SubtestResult.mem_of_mem_firsts hs, rfl⟩

end TestResult

namespace TestName

/-- A name without a subtest's name is that of the test itself. -/
theorem plain_eq_none_iff {n : TestName} {test : String} :
    n.plain = ⟨test, none⟩ ↔ n = ⟨test, none⟩ ∨ n = ⟨test, some ""⟩ := by
  obtain ⟨t, subtest⟩ := n
  cases subtest with
  | none => simp [plain, Fingerprint.subtestName?]
  | some name =>
    by_cases h : name = "" <;> simp [plain, Fingerprint.subtestName?, Option.filter, h]

theorem plain_eq_some_iff {n : TestName} {test name : String} :
    n.plain = ⟨test, some name⟩ ↔ n = ⟨test, some name⟩ ∧ name ≠ "" := by
  obtain ⟨t, subtest⟩ := n
  cases subtest with
  | none => simp [plain, Fingerprint.subtestName?]
  | some x =>
    by_cases h : x = ""
    · subst h
      simp [plain, Fingerprint.subtestName?, Option.filter, eq_comm]
    · simp [plain, Fingerprint.subtestName?, Option.filter, h]
      grind

end TestName

/-! ## What a report says -/

namespace Report

variable {report : Report} {r : TestResult} {s : SubtestResult}

theorem mem_names_iff {n : TestName} : n ∈ report.names ↔ ∃ r ∈ report.results,
    n = ⟨r.test, none⟩ ∨ ∃ s ∈ r.subtests, s.name ≠ "" ∧ n = ⟨r.test, some s.name⟩ := by
  constructor
  · intro h
    obtain ⟨l, hl, rfl⟩ := List.mem_map.1 h
    obtain ⟨r, hr, hl⟩ := List.mem_flatMap.1 hl
    refine ⟨r, hr, ?_⟩
    rcases TestResult.name_of_mem_lines hl with hname | ⟨s, hs, hname⟩
    · exact .inl (TestName.plain_eq_none_iff.2 (.inl hname))
    · by_cases hempty : s.name = ""
      · exact .inl (TestName.plain_eq_none_iff.2 (.inr (by rw [hname, hempty])))
      · exact .inr ⟨s, hs, hempty, TestName.plain_eq_some_iff.2 ⟨hname, hempty⟩⟩
  · rintro ⟨r, hr, rfl | ⟨s, hs, hname, rfl⟩⟩
    · have hline : (⟨⟨r.test, none⟩, r.status⟩ : StagedResult) ∈ report.lines :=
        List.mem_flatMap.2 ⟨r, hr, List.mem_cons_self⟩
      exact List.mem_map.2 ⟨_, hline, rfl⟩
    · obtain ⟨s', hs', heq⟩ := SubtestResult.exists_mem_firsts hs
      have hline : (⟨⟨r.test, some s'.name⟩, s'.status⟩ : StagedResult) ∈ report.lines :=
        List.mem_flatMap.2 ⟨r, hr, List.mem_cons_of_mem _ (List.mem_map_of_mem hs')⟩
      exact List.mem_map.2 ⟨_, hline, TestName.plain_eq_some_iff.2 ⟨by rw [heq], hname⟩⟩

/-- The last line about a name counts. -/
theorem status_of_lines {before after : List StagedResult} {l : StagedResult}
    (h : report.lines = before ++ l :: after)
    (hafter : ∀ x ∈ after, x.name.plain ≠ l.name.plain) :
    report.status l.name.plain = l.status := by
  have hnone : Table.find l.name.plain
      (after.map fun x => (x.name.plain, x.status)).reverse = none := by
    refine Table.find_eq_none_iff.2 fun hmem => ?_
    simp only [List.map_reverse, List.mem_reverse, List.map_map, List.mem_map,
      Function.comp_apply] at hmem
    obtain ⟨x, hx, hname⟩ := hmem
    exact hafter x hx hname
  rw [status, h, List.map_append, List.map_cons, List.reverse_append, List.reverse_cons,
    Table.find_append, Table.find_append, hnone]
  simp [Table.find]

/-- The line of the first subtest of a name in an entry, what comes after it in the entry, and the
entries that follow. -/
theorem lines_of_split {before after : List TestResult} (h : report.results = before ++ r :: after)
    (hs : r.FirstNamed s) :
    ∃ pre post, report.lines =
        pre ++ ⟨⟨r.test, some s.name⟩, s.status⟩ :: (post ++ after.flatMap TestResult.lines) ∧
      ∀ l ∈ post, ∃ name, name ≠ s.name ∧ l.name = ⟨r.test, some name⟩ := by
  obtain ⟨pre, post, hlines, hpost⟩ := TestResult.lines_of_firstNamed hs
  refine ⟨before.flatMap TestResult.lines ++ pre, post, ?_, hpost⟩
  rw [lines, h, List.flatMap_append, List.flatMap_cons, hlines]
  simp

/-- The entries that come after the last one for a test are about other tests. -/
theorem plain_ne_of_after {after : List TestResult} (hafter : ∀ x ∈ after, x.test ≠ r.test)
    {l : StagedResult} (hl : l ∈ after.flatMap TestResult.lines) :
    l.name.plain ≠ ⟨r.test, none⟩ := by
  obtain ⟨x, hx, hl⟩ := List.mem_flatMap.1 hl
  intro hname
  have htest : l.name.test = r.test := congrArg TestName.test hname
  rcases TestResult.name_of_mem_lines hl with heq | ⟨y, -, heq⟩
  · exact hafter x hx (by rw [← htest, heq])
  · exact hafter x hx (by rw [← htest, heq])

/-- The last entry for a test gives its status, if it lists no subtest without a name. -/
theorem status_of_lastEntry (h : report.LastEntry r) (hnames : ∀ s ∈ r.subtests, s.name ≠ "") :
    report.status ⟨r.test, none⟩ = r.status := by
  obtain ⟨before, after, hsplit, hafter⟩ := h
  have hlines : report.lines = before.flatMap TestResult.lines ++ ⟨⟨r.test, none⟩, r.status⟩ ::
      (r.lines.tail ++ after.flatMap TestResult.lines) := by
    rw [lines, hsplit, List.flatMap_append, List.flatMap_cons]
    rfl
  refine status_of_lines (l := ⟨⟨r.test, none⟩, r.status⟩) hlines fun l hl => ?_
  rcases List.mem_append.1 hl with hl | hl
  · obtain ⟨s, hs, rfl⟩ := List.mem_map.1 hl
    have hname := hnames s (SubtestResult.mem_of_mem_firsts hs)
    show TestName.plain _ ≠ ⟨r.test, none⟩
    simp [TestName.plain_eq_none_iff, hname]
  · exact plain_ne_of_after hafter hl

/-- The first subtest without a name in the last entry for a test gives the status of the test. -/
theorem status_of_nameless (h : report.LastEntry r) (hs : r.FirstNamed s) (hname : s.name = "") :
    report.status ⟨r.test, none⟩ = s.status := by
  obtain ⟨before, after, hsplit, hafter⟩ := h
  obtain ⟨pre, post, hlines, hpost⟩ := lines_of_split hsplit hs
  have hplain : (⟨r.test, some s.name⟩ : TestName).plain = ⟨r.test, none⟩ :=
    TestName.plain_eq_none_iff.2 (.inr (by rw [hname]))
  rw [← hplain]
  refine status_of_lines hlines fun l hl => ?_
  rw [hplain]
  rcases List.mem_append.1 hl with hl | hl
  · obtain ⟨name, hne, heq⟩ := hpost l hl
    rw [hname] at hne
    simp [heq, TestName.plain_eq_none_iff, hne]
  · exact plain_ne_of_after hafter hl

/-- The first subtest of a name in the last entry that lists the name gives the status of the
subtest. -/
theorem status_of_lastListing (h : report.LastListing r s) (hname : s.name ≠ "") :
    report.status ⟨r.test, some s.name⟩ = s.status := by
  obtain ⟨before, after, hsplit, hs, hafter⟩ := h
  obtain ⟨pre, post, hlines, hpost⟩ := lines_of_split hsplit hs
  have hplain : (⟨r.test, some s.name⟩ : TestName).plain = ⟨r.test, some s.name⟩ :=
    TestName.plain_eq_some_iff.2 ⟨rfl, hname⟩
  rw [← hplain]
  refine status_of_lines hlines fun l hl heq => ?_
  obtain ⟨heq, -⟩ := TestName.plain_eq_some_iff.1 (heq.trans hplain)
  rcases List.mem_append.1 hl with hl | hl
  · obtain ⟨name, hne, hl⟩ := hpost l hl
    rw [heq] at hl
    exact hne (by simpa using hl.symm)
  · obtain ⟨x, hx, hl⟩ := List.mem_flatMap.1 hl
    rcases TestResult.name_of_mem_lines hl with hl | ⟨y, hy, hl⟩
    · rw [heq] at hl
      simp at hl
    · rw [heq, TestName.mk.injEq, Option.some.injEq] at hl
      exact hafter x hx hl.1.symm y hy hl.2.symm

end Report

/-! ## What the shards hold -/

namespace Index

/-- What the shard of a fingerprint holds of it in a run. -/
def stored? (ix : Index) (id : RunId) (f : Fingerprint) : Option Status :=
  ix.shards[f.shard ix.shardCount]?.bind fun s => (s.store.forRun id).map (·.get f)

/-- The name that the shard of a fingerprint has registered under it. -/
def registered? (ix : Index) (f : Fingerprint) : Option TestName :=
  ix.shards[f.shard ix.shardCount]?.bind fun s => s.registry.get? f

/-- The index holds of a run what a report says and nothing else, and has registered the names. -/
structure Reflects (ix : Index) (id : RunId) (report : Report) : Prop where
  test : ∀ r, report.LastEntry r →
    ix.stored? id (Fingerprint.ofName ix.hash ⟨r.test, none⟩) = some r.status
  subtest : ∀ r s, report.LastListing r s →
    ix.stored? id (Fingerprint.ofName ix.hash ⟨r.test, some s.name⟩) = some s.status
  other : ∀ f, (∀ r ∈ report.results, f ≠ Fingerprint.ofName ix.hash ⟨r.test, none⟩ ∧
      ∀ s ∈ r.subtests, f ≠ Fingerprint.ofName ix.hash ⟨r.test, some s.name⟩) →
    ix.stored? id f = some .unknown
  testNames : ∀ r ∈ report.results,
    ix.registered? (Fingerprint.ofName ix.hash ⟨r.test, none⟩) = some ⟨r.test, none⟩
  subtestNames : ∀ r ∈ report.results, ∀ s ∈ r.subtests,
    ix.registered? (Fingerprint.ofName ix.hash ⟨r.test, some s.name⟩) = some ⟨r.test, some s.name⟩

/-- The second index has come of the first by a publication for which every shard has taken in its
results in some order. -/
structure WrittenInSomeOrder (ix : Index) (id : RunId) (staged : Staged) (ix' : Index) : Prop where
  hash_eq : ix'.hash = ix.hash
  shardCount_eq : ix'.shardCount = ix.shardCount
  shards : ∀ (i : Nat) (s : Shard), ix.shards[i]? = some s → ∃ results s',
    results.Perm (staged.forShard ix.shardCount i) ∧ s.publish id results = (.ok (), s') ∧
      ix'.shards[i]? = some s'

end Index

/-- The results of a shard do not depend on the order in which it has taken them in. -/
theorem Staged.get_ofList_of_perm {staged : Staged} {count i : Nat}
    {results : List (Fingerprint × StagedResult)} (h : results.Perm (staged.forShard count i))
    (f : Fingerprint) :
    (RunResults.ofList (results.map fun e => (e.1, e.2.status))).get f =
      if f.shard count = i then ((staged.get? f).map StagedResult.status).getD .unknown
      else .unknown := by
  have hnodup : (((staged.forShard count i).map
      fun e => (e.1, e.2.status)).map Prod.fst).Nodup :=
    Table.nodup_map_filter (fun _ => rfl) staged.nodup
  have hperm := h.map fun e : Fingerprint × StagedResult => (e.1, e.2.status)
  have hsame : (RunResults.ofList (results.map fun e => (e.1, e.2.status))).statuses.get? f =
      (staged.resultsIn count i).statuses.get? f := by
    rw [resultsIn, RunResults.ofList, RunResults.ofList, Table.get?_ofList_of_nodup hnodup,
      Table.get?_ofList_of_nodup ((hperm.map Prod.fst).nodup_iff.2 hnodup)]
    exact Table.find_congr ((hperm.map Prod.fst).nodup_iff.2 hnodup) hnodup fun v => hperm.mem_iff
  rw [RunResults.get, hsame, get?_resultsIn]
  split <;> rfl

namespace Chronicle

variable {hash : NameHash} {count : Nat} {c : Chronicle} {run : Run} {report : Report}
  {staged : Staged} {ix : Index} {load : Run → Loaded}

namespace Consistent

/-- The names of a report that can be staged have fingerprints, as do those that were published. -/
theorem ofName_inj_of_stage (h : Consistent hash count c)
    (hsep : Separates hash (report.names ++ c.names)) (hstage : Staged.stage hash report = .ok staged)
    {n m : TestName} (hn : n ∈ report.names ++ c.names) (hm : m ∈ report.names ++ c.names)
    (heq : Fingerprint.ofName hash n = Fingerprint.ofName hash m) : n = m := by
  have hpublished : Consistent hash count ⟨{ c.index.withRun .blank staged with inFlight := [] },
    ⟨.blank, report⟩ :: c.published⟩ := h.publish [] hstage
  exact hpublished.ofName_inj hsep hn hm heq

/-- A publication is one in some order. -/
theorem writtenInSomeOrder (h : Consistent hash count c)
    (hres : c.index.resident.contains run.id = false) (staged : Staged) :
    c.index.WrittenInSomeOrder run.id staged (c.index.withRun run staged) := by
  refine ⟨rfl, List.length_mapIdx, fun i s hs =>
    ⟨_, s.withRun run.id (staged.forShard c.index.shardCount i), .refl _, ?_, ?_⟩⟩
  · exact Shard.publish_eq (h.absent s (List.mem_of_getElem? hs) _ hres)
  · rw [Index.withRun, List.getElem?_mapIdx, hs]
    rfl

section Written

variable (h : Consistent hash count c) (hres : c.index.resident.contains run.id = false)
  (hwritten : c.index.WrittenInSomeOrder run.id staged ix)

include h hres hwritten

/-- The shard of a fingerprint after a publication. -/
theorem exists_written (f : Fingerprint) :
    ∃ s results, c.index.shards[f.shard count]? = some s ∧
      results.Perm (staged.forShard count (f.shard count)) ∧
      ix.shards[f.shard ix.shardCount]? = some (s.withRun run.id results) := by
  have hcount : c.index.shardCount = count := h.length_eq
  obtain ⟨s, hs⟩ : ∃ s, c.index.shards[f.shard count]? = some s :=
    ⟨_, List.getElem?_eq_getElem (by rw [h.length_eq]; exact f.shard_lt h.count_pos)⟩
  obtain ⟨results, s', hperm, hpublish, hs'⟩ := hwritten.shards _ s hs
  rw [Shard.publish_eq (h.absent s (List.mem_of_getElem? hs) _ hres)] at hpublish
  obtain rfl : s.withRun run.id results = s' := congrArg Prod.snd hpublish
  rw [hcount] at hperm
  exact ⟨s, results, hs, hperm, by rw [hwritten.shardCount_eq, hcount, hs']⟩

/-- After a publication the run has under each fingerprint what was staged under it. -/
theorem stored_of_written (f : Fingerprint) :
    ix.stored? run.id f = some (((staged.get? f).map StagedResult.status).getD .unknown) := by
  obtain ⟨s, results, -, hperm, hs⟩ := h.exists_written hres hwritten f
  have hrun : (s.withRun run.id results).store.forRun run.id =
      some (RunResults.ofList (results.map fun e => (e.1, e.2.status))) :=
    Shard.forRun_withRun.trans (if_pos rfl)
  simp [Index.stored?, hs, hrun, Staged.get_ofList_of_perm hperm]

variable (hsep : Separates hash (report.names ++ c.names))
  (hstage : Staged.stage hash report = .ok staged)

include hsep hstage

/-- After a publication the names of the report are registered, unless names collide. -/
theorem registered_of_written {n : TestName} (hn : n ∈ report.names) :
    ix.registered? (Fingerprint.ofName hash n) = some n := by
  obtain ⟨s, results, hs, hperm, hs'⟩ := h.exists_written hres hwritten (Fingerprint.ofName hash n)
  obtain ⟨m, hm⟩ := Table.contains_iff_exists.1 <|
    contains_withRun hstage hn s run.id hperm.symm.subset
  obtain ⟨htest, -, hsub⟩ := h.named_withRun hstage hs run.id hperm.subset _ _ hm
  obtain ⟨hmem, heq⟩ := hsep.mem_of_named htest hsub
  obtain rfl : n = m := h.ofName_inj_of_stage hsep hstage (List.mem_append_left _ hn) hmem heq
  rw [Index.registered?, hs']
  exact hm

theorem stored_status_of_written {n : TestName} (hn : n ∈ report.names) :
    ix.stored? run.id (Fingerprint.ofName hash n) = some (report.status n) := by
  have hstatus := Staged.status_eq_of_unshared hstage fun m hm =>
    h.ofName_inj_of_stage hsep hstage (List.mem_append_left _ hm) (List.mem_append_left _ hn)
  rw [h.stored_of_written hres hwritten, hstatus]

theorem reflects_of_written (hnames : ∀ r ∈ report.results, ∀ s ∈ r.subtests, s.name ≠ "") :
    ix.Reflects run.id report := by
  have htest {r : TestResult} (hr : r ∈ report.results) : ⟨r.test, none⟩ ∈ report.names :=
    Report.mem_names_iff.2 ⟨r, hr, .inl rfl⟩
  have hsubtest {r : TestResult} (hr : r ∈ report.results) {s : SubtestResult}
      (hs : s ∈ r.subtests) : ⟨r.test, some s.name⟩ ∈ report.names :=
    Report.mem_names_iff.2 ⟨r, hr, .inr ⟨s, hs, hnames r hr s hs, rfl⟩⟩
  have hhash : ix.hash = hash := hwritten.hash_eq.trans h.hash_eq
  constructor
  case test =>
    intro r hlast
    obtain ⟨before, after, hsplit, -⟩ := id hlast
    have hr : r ∈ report.results := by simp [hsplit]
    rw [hhash, h.stored_status_of_written hres hwritten hsep hstage (htest hr),
      Report.status_of_lastEntry hlast (hnames r hr)]
  case subtest =>
    intro r s hlast
    obtain ⟨before, after, hsplit, ⟨pre, post, hfirst, -⟩, -⟩ := id hlast
    have hr : r ∈ report.results := by simp [hsplit]
    have hs : s ∈ r.subtests := by simp [hfirst]
    rw [hhash, h.stored_status_of_written hres hwritten hsep hstage (hsubtest hr hs),
      Report.status_of_lastListing hlast (hnames r hr s hs)]
  case other =>
    intro f hf
    have hnone : staged.get? f = none := by
      refine Table.contains_eq_false_iff.1 (Bool.eq_false_iff.2 fun hcontains => ?_)
      obtain ⟨n, hn, rfl⟩ := (Staged.contains_stage_iff hstage).1 hcontains
      obtain ⟨r, hr, rfl | ⟨s, hs, -, rfl⟩⟩ := Report.mem_names_iff.1 hn
      · exact (hf r hr).1 (by rw [hhash])
      · exact (hf r hr).2 s hs (by rw [hhash])
    rw [h.stored_of_written hres hwritten, hnone]
    rfl
  case testNames =>
    intro r hr
    rw [hhash]
    exact h.registered_of_written hres hwritten hsep hstage (htest hr)
  case subtestNames =>
    intro r hr s hs
    rw [hhash]
    exact h.registered_of_written hres hwritten hsep hstage (hsubtest hr hs)

end Written

end Consistent

/-! ## An ingestion -/

/-- A report whose subtests have names that do not hash to zero is taken in as any run that is
neither resident nor being loaded. The index then holds of the run what the report says and has
registered its names, in whatever order the shards have taken the results in. -/
theorem ingestion_reflects_report {calls : List IndexCall} {begun : Index}
    (h : replay hash count calls = .ok c) (hbegin : c.index.begin run = .ok begun)
    (hload : load run = .ok report)
    (hnames : ∀ r ∈ report.results, ∀ s ∈ r.subtests, s.name ≠ "" ∧ hash s.name ≠ 0)
    (hsep : Separates hash (report.names ++ c.names)) :
    ∃ ix staged, c.index.ingest load run = (.ok (), ix) ∧ ix.Reflects run.id report ∧
      Staged.stage hash report = .ok staged ∧ c.index.WrittenInSomeOrder run.id staged ix ∧
        ∀ ix', c.index.WrittenInSomeOrder run.id staged ix' → ix'.Reflects run.id report := by
  have hc := replay_consistent h
  obtain ⟨hres, -⟩ := Index.begin_eq_ok hbegin
  obtain ⟨staged, hstage⟩ : ∃ staged, Staged.stage hash report = .ok staged := by
    cases hstage : Staged.stage hash report with
    | ok staged => exact ⟨staged, rfl⟩
    | error e =>
      obtain ⟨r, hr, s, hs, ⟨-, hzero⟩, -⟩ := Staged.stage_eq_error hstage
      exact absurd hzero (hnames r hr s hs).2
  have hreflects ix' (hwritten : c.index.WrittenInSomeOrder run.id staged ix') :
      ix'.Reflects run.id report :=
    hc.reflects_of_written hres hwritten hsep hstage fun r hr s hs => (hnames r hr s hs).1
  have hwritten := hc.writtenInSomeOrder hres staged
  refine ⟨c.index.withRun run staged, staged, ?_, hreflects _ hwritten, hstage, hwritten, hreflects⟩
  have hloaded : (load run).bind (Staged.stage c.index.hash) = .ok staged := by
    rw [hload, hc.hash_eq]
    exact hstage
  rw [hc.inStep.ingest_eq, hbegin, hloaded]

/-- Two of three entries are for one test, and the last of them lists one of its two subtests again.
Other runs with some of the names came before, and one of them went. -/
theorem ingestion_reflects_repeated_entries :
    let first : TestResult :=
      ⟨"/a.html", .ok, none, [⟨"one", .pass, none⟩, ⟨"two", .fail, none⟩, ⟨"one", .fail, none⟩]⟩
    let other : TestResult := ⟨"/b.html", .fail, none, []⟩
    let last : TestResult :=
      ⟨"/a.html", .error, none, [⟨"two", .pass, none⟩, ⟨"two", .fail, none⟩]⟩
    let report : Report := ⟨[first, other, last], .null⟩
    let earlier : Report := ⟨[⟨"/b.html", .ok, none, [⟨"one", .pass, none⟩]⟩], .null⟩
    let run (id : RunId) : Run := { Run.blank with id }
    ∃ c ix, replay Hash.hashText 3 [.ingest (run 2) (.ok earlier), .evictAny,
        .ingest (run 3) (.ok earlier)] = .ok c ∧
      c.index.ingest (fun _ => .ok report) (run 1) = (.ok (), ix) ∧ ix.Reflects 1 report ∧
      ix.stored? 1 (Fingerprint.ofName ix.hash ⟨"/a.html", none⟩) = some .error ∧
      ix.stored? 1 (Fingerprint.ofName ix.hash ⟨"/a.html", some "one"⟩) = some .pass ∧
      ix.stored? 1 (Fingerprint.ofName ix.hash ⟨"/a.html", some "two"⟩) = some .pass := by
  intro first other last report earlier run
  let calls : List IndexCall := [.ingest (run 2) (.ok earlier), .evictAny,
    .ingest (run 3) (.ok earlier)]
  let c := (start Hash.hashText 3).afterAll calls
  have hc : replay Hash.hashText 3 calls = .ok c := replay_eq_ok_iff.2 ⟨by decide, rfl⟩
  have hres : c.index.resident.contains (run 1).id = false := by decide +kernel
  have hmark : (run 1).id ∉ c.index.inFlight := by decide +kernel
  have hbegin : c.index.begin (run 1) = .ok { c.index with inFlight := 1 :: c.index.inFlight } := by
    rw [Index.begin_of_not_nil rfl, if_neg (Bool.eq_false_iff.1 hres), if_neg hmark]
  have hsep : Separates Hash.hashText (report.names ++ c.names) := by decide +kernel
  let load : Run → Loaded := fun _ => .ok report
  have hload : load (run 1) = .ok report := rfl
  obtain ⟨ix, staged, hingest, hreflects, -⟩ :=
    ingestion_reflects_report hc hbegin hload (by decide +kernel) hsep
  refine ⟨c, ix, hc, hingest, hreflects, ?_, ?_, ?_⟩
  · exact hreflects.test last ⟨[first, other], [], rfl, by simp⟩
  · exact hreflects.subtest first ⟨"one", .pass, none⟩
      ⟨[], [other, last], rfl, ⟨[], _, rfl, by simp⟩, by decide⟩
  · exact hreflects.subtest last ⟨"two", .pass, none⟩
      ⟨[first, other], [], rfl, ⟨[], _, rfl, by simp⟩, by simp⟩

/-! ## The status of a test itself -/

/-- After an ingestion the status of a test itself is that of the last entry for it, unless this lists
subtests without a name; then the first of these counts. The subtests that have names never give it,
whether they collide or not. -/
theorem harness_status_of_ingestion {calls : List IndexCall}
    (h : replay hash count calls = .ok c) (hload : load run = .ok report)
    (hingest : c.index.ingest load run = (.ok (), ix))
    (htests : ∀ r ∈ report.results, ∀ x ∈ report.results, hash r.test = hash x.test →
      r.test = x.test) :
    ∀ x ∈ report.results, ∃ r, report.LastEntry r ∧ r.test = x.test ∧
      (((∀ s ∈ r.subtests, s.name ≠ "") ∧
        ix.stored? run.id (Fingerprint.ofName hash ⟨x.test, none⟩) = some r.status) ∨
      ∃ s, r.FirstNamed s ∧ s.name = "" ∧
        ix.stored? run.id (Fingerprint.ofName hash ⟨x.test, none⟩) = some s.status) := by
  intro x hx
  have hc := replay_consistent h
  obtain ⟨hres, report', staged, hload', hstage, rfl⟩ := hc.inStep.ingest_eq_ok hingest
  obtain rfl : report = report' := Except.ok.inj (hload.symm.trans hload')
  rw [hc.hash_eq] at hstage
  -- No subtest that has a name shares the fingerprint of a test.
  have hstatus : ((staged.get? (Fingerprint.ofName hash ⟨x.test, none⟩)).map
      StagedResult.status).getD .unknown = report.status ⟨x.test, none⟩ := by
    refine Staged.status_eq_of_unshared hstage fun m hm heq => ?_
    obtain ⟨htest, hsub⟩ := Fingerprint.mk.inj <|
      (Fingerprint.ofName_of_plain (Report.plain_of_mem_names hm)).symm.trans heq
    obtain ⟨r, hr, rfl | ⟨s, -, -, rfl⟩⟩ := Report.mem_names_iff.1 hm
    · exact congrArg (TestName.mk · none) (htests r hr x hx htest)
    · exact absurd hsub (Report.hash_subtest_ne_zero hstage hm rfl)
  have hstored := hc.stored_of_written hres (hc.writtenInSomeOrder hres staged)
    (Fingerprint.ofName hash ⟨x.test, none⟩)
  rw [hstatus] at hstored
  obtain ⟨r, hlast, htest⟩ := Report.exists_lastEntry hx
  refine ⟨r, hlast, htest, ?_⟩
  rw [hstored, ← htest]
  by_cases hnames : ∀ s ∈ r.subtests, s.name ≠ ""
  · exact .inl ⟨hnames, congrArg some (Report.status_of_lastEntry hlast hnames)⟩
  · push Not at hnames
    obtain ⟨s, hs, hname⟩ := hnames
    obtain ⟨s', hfirst, heq⟩ := TestResult.exists_firstNamed hs
    have hname' : s'.name = "" := heq.trans hname
    exact .inr ⟨s', hfirst, hname', congrArg some (Report.status_of_nameless hlast hfirst hname')⟩

/-- Of two entries for a test the first lists a subtest without a name and the last does not; the entry
for another test lists two. -/
theorem harness_status_of_nameless_subtests :
    let report : Report := ⟨[⟨"/a.html", .ok, none, [⟨"", .fail, none⟩]⟩,
      ⟨"/b.html", .ok, none, [⟨"one", .pass, none⟩, ⟨"", .timeout, none⟩, ⟨"", .fail, none⟩]⟩,
      ⟨"/a.html", .error, none, [⟨"one", .pass, none⟩]⟩], .null⟩
    let run : Run := { Run.blank with id := 1 }
    ∃ c ix, replay Hash.hashText 2 [] = .ok c ∧
      c.index.ingest (fun _ => .ok report) run = (.ok (), ix) ∧
      ∀ x ∈ report.results, ∃ r, report.LastEntry r ∧ r.test = x.test ∧
        (((∀ s ∈ r.subtests, s.name ≠ "") ∧
          ix.stored? 1 (Fingerprint.ofName Hash.hashText ⟨x.test, none⟩) = some r.status) ∨
        ∃ s, r.FirstNamed s ∧ s.name = "" ∧
          ix.stored? 1 (Fingerprint.ofName Hash.hashText ⟨x.test, none⟩) = some s.status) := by
  intro report run
  let c := start Hash.hashText 2
  have hc : replay Hash.hashText 2 [] = .ok c := replay_eq_ok_iff.2 ⟨by decide, rfl⟩
  have hdone : (c.index.ingest (fun _ => .ok report) run).1 = .ok () := by decide +kernel
  obtain ⟨ix, hingest⟩ : ∃ ix, c.index.ingest (fun _ => .ok report) run = (.ok (), ix) :=
    ⟨_, Prod.ext hdone (by dsimp only)⟩
  exact ⟨c, ix, hc, hingest, harness_status_of_ingestion hc rfl hingest (by decide +kernel)⟩

/-- A subtest without a name takes the place of the status that the only entry for its test has. -/
theorem nameless_subtest_replaces_status :
    let report : Report := ⟨[⟨"/a.html", .ok, none, [⟨"", .fail, none⟩]⟩], .null⟩
    let run : Run := { Run.blank with id := 1 }
    ∃ c ix, replay Hash.hashText 1 [] = .ok c ∧
      c.index.ingest (fun _ => .ok report) run = (.ok (), ix) ∧
      ¬ ∃ r ∈ report.results, r.test = "/a.html" ∧
        ix.stored? 1 (Fingerprint.ofName Hash.hashText ⟨"/a.html", none⟩) = some r.status := by
  intro report run
  let c := start Hash.hashText 1
  have hc : replay Hash.hashText 1 [] = .ok c := replay_eq_ok_iff.2 ⟨by decide, rfl⟩
  have hdone : (c.index.ingest (fun _ => .ok report) run).1 = .ok () := by decide +kernel
  have hingest : c.index.ingest (fun _ => .ok report) run =
      (.ok (), (c.index.ingest (fun _ => .ok report) run).2) := Prod.ext hdone (by dsimp only)
  exact ⟨c, _, hc, hingest, by decide +kernel⟩

end Chronicle

end ResultSearch
