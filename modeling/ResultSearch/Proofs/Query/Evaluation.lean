import ResultSearch.Filter
import ResultSearch.Query.Binding
import ResultSearch.Proofs.Outcome
import ResultSearch.Proofs.Table

/-!
# What a bound query says

`BoundQuery.holds` evaluates a bound query where it stands, on the names of a test and its statuses
in the runs; no filter is compiled and no fingerprint looked up. Folding and compiling are measured
against it.

* `holds_all`, `holds_any`, `holds_negate`: folding keeps the meaning.
* `holds_restrictTo`: the restriction adds that the test has a result in one of the runs.
* `compile_isOk`: a query compiles over results of all the runs that it mentions.
* `accepts_eq_holds`: the compiled filter accepts what the query holds of.
* `holds_congr`: only the runs that a query mentions count for it.
-/

namespace ResultSearch

/-- What a query is asked of: a test or a subtest with its statuses. -/
structure Subject where
  name : TestName
  /-- The status in a run; `unknown` if the run has none. -/
  status : RunId → Status
  /-- The statuses in the runs whose agreement a query may ask for. -/
  compared : List Status

namespace Subject

/-- The name of the test contains the pattern, in capitals or not. -/
def testContains (s : Subject) (pattern : String) : Bool :=
  Text.contains (Text.lower s.name.test) (Text.lower pattern)

/-- There is a subtest, and its name contains the pattern. -/
def subtestContains (s : Subject) (pattern : String) : Bool :=
  s.name.subtest.any fun sub => Text.contains (Text.lower sub) (Text.lower pattern)

/-- The name of the test begins with the path. -/
def testBegins (s : Subject) (path : String) : Bool :=
  Text.startsWith (Text.lower s.name.test) (Text.lower path)

/-- Two of the compared statuses differ. -/
def disagrees (s : Subject) : Bool := s.compared.any fun a => s.compared.any fun b => a ≠ b

/-- The subject has the quality that a query asks for. -/
def hasQuality (s : Subject) : Quality → Bool
  | .different => s.disagrees
  | .tentative =>
    Text.contains s.name.test ".tentative." || Text.contains s.name.test "/tentative/"
  | .optional => Text.contains s.name.test ".optional."

/-- The subject under a fingerprint in the results of some runs. -/
def under (results : Table RunId RunResults) (columns : List RunResults) (f : Fingerprint)
    (name : TestName) : Subject where
  name := name
  status id := ((results.get? id).map fun r => r.get f).getD .unknown
  compared := columns.map fun r => r.get f

end Subject

namespace BoundQuery

/-! ## Evaluation -/

mutual

/-- Whether the query holds of a test. -/
def holds (s : Subject) : BoundQuery → Bool
  | .const b => b
  | .testName pattern => s.testContains pattern
  | .subtestName pattern => s.subtestContains pattern
  | .testPath path => s.testBegins path
  | .status run test => test.accepts (s.status run)
  | .and args => holdsAll s args
  | .or args => holdsAny s args
  | .not q => !holds s q
  | .tally comparison count args => comparison.accepts count (holdsCount s args)
  | .link pattern metadata =>
    metadata.anyValue s.name.test fun url => Text.contains (Text.lower url) (Text.lower pattern)
  | .triaged run metadata =>
    s.status run ≠ .unknown && !(metadata.valuesFor s.name.test).isEmpty
  | .label wanted metadata =>
    metadata.anyValue s.name.test fun v => Text.lower v = Text.lower wanted
  | .feature wanted data => WebFeatures.has data s.name.test wanted
  | .quality wanted => s.hasQuality wanted

/-- Whether all the queries hold. -/
def holdsAll (s : Subject) : List BoundQuery → Bool
  | [] => true
  | q :: rest => holds s q && holdsAll s rest

/-- Whether some of the queries hold. -/
def holdsAny (s : Subject) : List BoundQuery → Bool
  | [] => false
  | q :: rest => holds s q || holdsAny s rest

/-- How many of the queries hold. -/
def holdsCount (s : Subject) : List BoundQuery → Nat
  | [] => 0
  | q :: rest => (if holds s q then 1 else 0) + holdsCount s rest

end

attribute [local simp] holds holdsAll holdsAny holdsCount conjuncts disjuncts mentions mentionsAll

variable {s : Subject}

theorem holdsAll_eq_all {args : List BoundQuery} : holdsAll s args = args.all (holds s) := by
  induction args with
  | nil => rfl
  | cons q rest ih => rw [holdsAll, ih, List.all_cons]

theorem holdsAny_eq_any {args : List BoundQuery} : holdsAny s args = args.any (holds s) := by
  induction args with
  | nil => rfl
  | cons q rest ih => rw [holdsAny, ih, List.any_cons]

theorem holdsCount_eq_countP {args : List BoundQuery} :
    holdsCount s args = args.countP (holds s) := by
  induction args with
  | nil => rfl
  | cons q rest ih => rw [holdsCount, ih, List.countP_cons, Nat.add_comm]

/-! ## Folding -/

/-- The operands that are left hold together exactly if all operands did; where none are left for
a `false` among them, some operand fails. -/
theorem any_conjuncts {args : List BoundQuery} :
    ((conjuncts args).any fun qs => qs.all (holds s)) = args.all (holds s) := by
  fun_induction conjuncts args with
  | case1 => rfl
  | case2 rest ih => rw [ih, List.all_cons, holds, Bool.true_and]
  | case3 => simp
  | case4 inner rest ih =>
    rw [List.all_cons, ← ih, holds, holdsAll_eq_all]
    cases conjuncts rest <;> simp
  | case5 q rest _ _ _ ih =>
    rw [List.all_cons, ← ih]
    cases conjuncts rest <;> simp

theorem all_disjuncts {args : List BoundQuery} :
    ((disjuncts args).all fun qs => qs.any (holds s)) = args.any (holds s) := by
  fun_induction disjuncts args with
  | case1 => rfl
  | case2 rest ih => rw [ih, List.any_cons, holds, Bool.false_or]
  | case3 => simp
  | case4 inner rest ih =>
    rw [List.any_cons, ← ih, holds, holdsAny_eq_any]
    cases disjuncts rest <;> simp
  | case5 q rest _ _ _ ih =>
    rw [List.any_cons, ← ih]
    cases disjuncts rest <;> simp

@[simp] theorem holds_all {args : List BoundQuery} : (all args).holds s = args.all (holds s) := by
  rw [← any_conjuncts, all]
  split
  · next h => rw [h, holds]; rfl
  · next h => rw [h, holds]; rfl
  · next q h => simp [h]
  · next qs _ _ h => rw [h, holds, holdsAll_eq_all]; rfl

@[simp] theorem holds_any {args : List BoundQuery} : (any args).holds s = args.any (holds s) := by
  rw [← all_disjuncts, any]
  split
  · next h => rw [h, holds]; rfl
  · next h => rw [h, holds]; rfl
  · next q h => simp [h]
  · next qs _ _ h => rw [h, holds, holdsAny_eq_any]; rfl

@[simp] theorem holds_negate {q : BoundQuery} : (negate q).holds s = !q.holds s := by
  rw [negate.eq_def]
  split
  · rw [holds, holds]
  · rw [holds, Bool.not_not]
  · rw [holds]

@[simp] theorem holds_present {id : RunId} :
    (present id).holds s = decide (s.status id ≠ .unknown) := by
  rw [present, holds_negate, holds, StatusTest.accepts, decide_not]

/-- The restriction asks for a result in one of the runs, besides the query. -/
theorem holds_restrictTo {ids : List RunId} {q : BoundQuery} :
    (restrictTo ids q).holds s = ((ids.any fun id => s.status id ≠ .unknown) && q.holds s) := by
  have hany : (any (ids.map present)).holds s = ids.any fun id => s.status id ≠ .unknown := by
    rw [holds_any, List.any_map]
    exact congrArg ids.any (funext fun id => holds_present)
  unfold restrictTo
  split
  · next args => rw [holds_all, List.all_cons, hany, holds, holdsAll_eq_all]
  · rw [holds_all, List.all_cons, List.all_cons, List.all_nil, Bool.and_true, hany]

/-! ## The runs that count -/

theorem mem_mentionsAll {id : RunId} {args : List BoundQuery} :
    id ∈ mentionsAll args ↔ ∃ q ∈ args, id ∈ q.mentions := by
  induction args with
  | nil => simp
  | cons q rest ih => simp [ih]

theorem mem_insertId {id x : RunId} {ids : List RunId} :
    x ∈ insertId id ids ↔ x = id ∨ x ∈ ids := by
  induction ids with
  | nil => simp [insertId]
  | cons y rest ih =>
    rw [insertId]
    split
    · next h => subst h; simp
    · split
      · simp
      · simp only [List.mem_cons, ih]
        grind

/-- The runs that a query speaks of are those that its leaves mention. -/
theorem mem_runIds {id : RunId} {q : BoundQuery} : id ∈ q.runIds ↔ id ∈ q.mentions := by
  have h (ids acc : List RunId) :
      id ∈ ids.foldl (fun acc x => insertId x acc) acc ↔ id ∈ ids ∨ id ∈ acc := by
    induction ids generalizing acc with
    | nil => simp
    | cons x rest ih =>
      rw [List.foldl_cons, ih, mem_insertId, List.mem_cons]
      grind
  rw [runIds, h]
  simp

theorem mentionsAll_append {xs ys : List BoundQuery} :
    mentionsAll (xs ++ ys) = mentionsAll xs ++ mentionsAll ys := by
  induction xs with
  | nil => rfl
  | cons q rest ih => rw [List.cons_append, mentionsAll, ih, mentionsAll, List.append_assoc]

theorem mentionsAll_conjuncts {args qs : List BoundQuery} (h : conjuncts args = some qs) :
    mentionsAll qs = mentionsAll args := by
  fun_induction conjuncts args generalizing qs with
  | case1 => cases h; rfl
  | case2 rest ih => rw [ih h, mentionsAll, mentions, List.nil_append]
  | case3 => cases h
  | case4 inner rest ih =>
    obtain ⟨ps, hp, rfl⟩ := Option.map_eq_some_iff.1 h
    rw [mentionsAll_append, ih hp, mentionsAll, mentions]
  | case5 q rest _ _ _ ih =>
    obtain ⟨ps, hp, rfl⟩ := Option.map_eq_some_iff.1 h
    rw [mentionsAll, ih hp, mentionsAll]

theorem mentionsAll_disjuncts {args qs : List BoundQuery} (h : disjuncts args = some qs) :
    mentionsAll qs = mentionsAll args := by
  fun_induction disjuncts args generalizing qs with
  | case1 => cases h; rfl
  | case2 rest ih => rw [ih h, mentionsAll, mentions, List.nil_append]
  | case3 => cases h
  | case4 inner rest ih =>
    obtain ⟨ps, hp, rfl⟩ := Option.map_eq_some_iff.1 h
    rw [mentionsAll_append, ih hp, mentionsAll, mentions]
  | case5 q rest _ _ _ ih =>
    obtain ⟨ps, hp, rfl⟩ := Option.map_eq_some_iff.1 h
    rw [mentionsAll, ih hp, mentionsAll]

/-- Folding mentions no run that the operands do not. -/
theorem mentions_all_subset {args : List BoundQuery} : (all args).mentions ⊆ mentionsAll args := by
  unfold all
  split
  · simp
  · simp
  · next q h => rw [← mentionsAll_conjuncts h]; simp
  · next qs _ _ h => rw [← mentionsAll_conjuncts h, mentions]; exact List.Subset.refl _

theorem mentions_any_subset {args : List BoundQuery} : (any args).mentions ⊆ mentionsAll args := by
  unfold any
  split
  · simp
  · simp
  · next q h => rw [← mentionsAll_disjuncts h]; simp
  · next qs _ _ h => rw [← mentionsAll_disjuncts h, mentions]; exact List.Subset.refl _

theorem mentions_negate {q : BoundQuery} : (negate q).mentions = q.mentions := by
  rw [negate.eq_def]
  split <;> simp

/-- The restriction speaks of its runs and of those of the query, and of no others. -/
theorem mentions_restrictTo_subset {ids : List RunId} {q : BoundQuery} :
    (restrictTo ids q).mentions ⊆ ids ++ q.mentions := by
  have hany : (any (ids.map present)).mentions ⊆ ids := by
    intro id hid
    obtain ⟨x, hx, hid⟩ := mem_mentionsAll.1 (mentions_any_subset hid)
    obtain ⟨y, hy, rfl⟩ := List.mem_map.1 hx
    rw [present, mentions_negate, mentions, List.mem_singleton] at hid
    rwa [hid]
  have hcons {args : List BoundQuery} (hargs : mentionsAll args ⊆ q.mentions) :
      (all (any (ids.map present) :: args)).mentions ⊆ ids ++ q.mentions := by
    apply List.Subset.trans mentions_all_subset
    rw [mentionsAll]
    exact List.append_subset.2 ⟨List.Subset.trans hany (List.subset_append_left _ _),
      List.Subset.trans hargs (List.subset_append_right _ _)⟩
  unfold restrictTo
  split
  · exact hcons (by rw [mentions]; exact List.Subset.refl _)
  · exact hcons (by simp)

theorem runIds_all_subset {args : List BoundQuery} :
    (all args).runIds ⊆ args.flatMap runIds := by
  intro id hid
  obtain ⟨x, hx, hid⟩ := mem_mentionsAll.1 (mentions_all_subset (mem_runIds.1 hid))
  exact List.mem_flatMap.2 ⟨x, hx, mem_runIds.2 hid⟩

theorem runIds_any_subset {args : List BoundQuery} :
    (any args).runIds ⊆ args.flatMap runIds := by
  intro id hid
  obtain ⟨x, hx, hid⟩ := mem_mentionsAll.1 (mentions_any_subset (mem_runIds.1 hid))
  exact List.mem_flatMap.2 ⟨x, hx, mem_runIds.2 hid⟩

theorem runIds_negate {q : BoundQuery} : (negate q).runIds = q.runIds := by
  rw [runIds, mentions_negate, runIds]

theorem runIds_restrictTo_subset (q : BoundQuery) (ids : List RunId) :
    (q.restrictTo ids).runIds ⊆ ids ++ q.runIds := by
  intro id hid
  have hmem := mentions_restrictTo_subset (mem_runIds.1 hid)
  simpa [mem_runIds] using hmem

mutual

/-- A query does not hear of the statuses in runs that it does not mention. -/
theorem holds_congr {s t : Subject} (hname : s.name = t.name)
    (hcompared : s.compared = t.compared) :
    (q : BoundQuery) → (∀ id ∈ q.mentions, s.status id = t.status id) → q.holds s = q.holds t
  | .const _, _ => by rw [holds, holds]
  | .testName _, _ => by rw [holds, holds, Subject.testContains, Subject.testContains, hname]
  | .subtestName _, _ => by
    rw [holds, holds, Subject.subtestContains, Subject.subtestContains, hname]
  | .testPath _, _ => by rw [holds, holds, Subject.testBegins, Subject.testBegins, hname]
  | .status id _, h => by rw [holds, holds, h id (by simp)]
  | .and args, h => by rw [holds, holds, (holdsEach_congr hname hcompared args h).1]
  | .or args, h => by rw [holds, holds, (holdsEach_congr hname hcompared args h).2.1]
  | .not q, h => by rw [holds, holds, holds_congr hname hcompared q h]
  | .tally _ _ args, h => by rw [holds, holds, (holdsEach_congr hname hcompared args h).2.2]
  | .link _ _, _ => by rw [holds, holds, hname]
  | .triaged id _, h => by rw [holds, holds, h id (by simp), hname]
  | .label _ _, _ => by rw [holds, holds, hname]
  | .feature _ _, _ => by rw [holds, holds, hname]
  | .quality wanted, _ => by
    rw [holds, holds]
    cases wanted <;> simp [Subject.hasQuality, Subject.disagrees, hname, hcompared]

theorem holdsEach_congr {s t : Subject} (hname : s.name = t.name)
    (hcompared : s.compared = t.compared) :
    (args : List BoundQuery) → (∀ id ∈ mentionsAll args, s.status id = t.status id) →
      holdsAll s args = holdsAll t args ∧ holdsAny s args = holdsAny t args ∧
        holdsCount s args = holdsCount t args
  | [], _ => ⟨rfl, rfl, rfl⟩
  | q :: rest, h => by
    have hq := holds_congr hname hcompared q fun id hid =>
      h id (by rw [mentionsAll]; exact List.mem_append_left _ hid)
    obtain ⟨hall, hany, hcount⟩ := holdsEach_congr hname hcompared rest fun id hid =>
      h id (by rw [mentionsAll]; exact List.mem_append_right _ hid)
    refine ⟨?_, ?_, ?_⟩
    · rw [holdsAll, holdsAll, hq, hall]
    · rw [holdsAny, holdsAny, hq, hany]
    · rw [holdsCount, holdsCount, hq, hcount]

end

end BoundQuery

namespace Filter

attribute [local simp] compile compileEach accepts acceptsAll acceptsAny acceptsCount

variable {results : Table RunId RunResults} {columns : List RunResults}

/-! ## Compiling -/

theorem get?_of_resultsOf {id : RunId} {r : RunResults} (h : resultsOf results id = .ok r) :
    results.get? id = some r := by
  unfold resultsOf at h
  split at h
  · next r' hr => rw [hr, Except.ok.inj h]
  · cases h

theorem resultsOf_isOk {id : RunId} (h : (results.get? id).isSome) :
    ∃ r, resultsOf results id = .ok r := by
  obtain ⟨r, hr⟩ := Option.isSome_iff_exists.1 h
  exact ⟨r, by rw [resultsOf, hr]⟩

mutual

/-- A query compiles once all the runs that it mentions have results. -/
theorem compile_isOk : (q : BoundQuery) → (∀ id ∈ q.mentions, (results.get? id).isSome) →
    ∃ filter, compile results columns q = .ok filter
  | .const _, _ => ⟨_, rfl⟩
  | .testName _, _ => ⟨_, rfl⟩
  | .subtestName _, _ => ⟨_, rfl⟩
  | .testPath _, _ => ⟨_, rfl⟩
  | .status id test, h => by
    obtain ⟨r, hr⟩ := resultsOf_isOk (h id (by simp [BoundQuery.mentions]))
    exact ⟨.status r test, by rw [compile, hr]; rfl⟩
  | .and args, h => by
    obtain ⟨filters, hf⟩ := compileEach_isOk args h
    exact ⟨.and filters, by rw [compile, hf]; rfl⟩
  | .or args, h => by
    obtain ⟨filters, hf⟩ := compileEach_isOk args h
    exact ⟨.or filters, by rw [compile, hf]; rfl⟩
  | .not q, h => by
    obtain ⟨filter, hf⟩ := compile_isOk q h
    exact ⟨.not filter, by rw [compile, hf]; rfl⟩
  | .tally comparison count args, h => by
    obtain ⟨filters, hf⟩ := compileEach_isOk args h
    exact ⟨.tally comparison count filters, by rw [compile, hf]; rfl⟩
  | .link _ _, _ => ⟨_, rfl⟩
  | .triaged id metadata, h => by
    obtain ⟨r, hr⟩ := resultsOf_isOk (h id (by simp [BoundQuery.mentions]))
    exact ⟨.triaged r metadata, by rw [compile, hr]; rfl⟩
  | .label _ _, _ => ⟨_, rfl⟩
  | .feature _ _, _ => ⟨_, rfl⟩
  | .quality .different, _ => ⟨_, rfl⟩
  | .quality .tentative, _ => ⟨_, rfl⟩
  | .quality .optional, _ => ⟨_, rfl⟩

theorem compileEach_isOk : (args : List BoundQuery) →
    (∀ id ∈ BoundQuery.mentionsAll args, (results.get? id).isSome) →
    ∃ filters, compileEach results columns args = .ok filters
  | [], _ => ⟨_, rfl⟩
  | q :: rest, h => by
    obtain ⟨filter, hf⟩ := compile_isOk q fun id hid =>
      h id (by rw [BoundQuery.mentionsAll]; exact List.mem_append_left _ hid)
    obtain ⟨filters, hfs⟩ := compileEach_isOk rest fun id hid =>
      h id (by rw [BoundQuery.mentionsAll]; exact List.mem_append_right _ hid)
    exact ⟨filter :: filters, by rw [compileEach, hf, hfs]; rfl⟩

end

/-- Looking at the first run and asking for another status is looking for two statuses that
differ. -/
theorem disagree_eq {f : Fingerprint} {name : TestName} :
    disagree f columns = (Subject.under results columns f name).disagrees := by
  rw [Subject.disagrees, Subject.under, Bool.eq_iff_iff]
  cases columns with
  | nil => simp [disagree]
  | cons first rest =>
    simp only [disagree, List.any_map, List.any_eq_true, List.mem_cons, Function.comp_apply,
      decide_eq_true_eq]
    constructor
    · rintro ⟨r, hr, hne⟩
      exact ⟨r, .inr hr, first, .inl rfl, hne⟩
    · rintro ⟨a, ha, b, hb, hne⟩
      -- Of two statuses that differ one is not that of the first run.
      by_cases h : a.get f = first.get f
      · rcases hb with rfl | hb
        · exact absurd h hne
        · exact ⟨b, hb, fun e => hne (h.trans e.symm)⟩
      · rcases ha with rfl | ha
        · exact absurd rfl h
        · exact ⟨a, ha, h⟩

theorem status_under {id : RunId} {r : RunResults} (h : resultsOf results id = .ok r)
    {f : Fingerprint} {name : TestName} :
    (Subject.under results columns f name).status id = r.get f := by
  show ((results.get? id).map fun r => r.get f).getD .unknown = r.get f
  rw [get?_of_resultsOf h]
  rfl

mutual

/-- The filter of a query accepts a fingerprint exactly if the query holds of what is stored under
it. -/
theorem accepts_eq_holds (f : Fingerprint) (name : TestName) : (q : BoundQuery) →
    {filter : Filter} → compile results columns q = .ok filter →
    accepts f name filter = q.holds (Subject.under results columns f name)
  | .const _, _, h => by cases h; rfl
  | .testName _, _, h => by cases h; rfl
  | .subtestName _, _, h => by cases h; rfl
  | .testPath _, _, h => by cases h; rfl
  | .status id test, _, h => by
    obtain ⟨r, hr, rfl⟩ := Outcome.map_eq_ok_iff.1 h
    rw [accepts, BoundQuery.holds, status_under hr]
  | .and args, _, h => by
    obtain ⟨filters, hf, rfl⟩ := Outcome.map_eq_ok_iff.1 h
    rw [accepts, BoundQuery.holds, (acceptsEach_eq_holds f name args hf).1]
  | .or args, _, h => by
    obtain ⟨filters, hf, rfl⟩ := Outcome.map_eq_ok_iff.1 h
    rw [accepts, BoundQuery.holds, (acceptsEach_eq_holds f name args hf).2.1]
  | .not q, _, h => by
    obtain ⟨filter, hf, rfl⟩ := Outcome.map_eq_ok_iff.1 h
    rw [accepts, BoundQuery.holds, accepts_eq_holds f name q hf]
  | .tally _ _ args, _, h => by
    obtain ⟨filters, hf, rfl⟩ := Outcome.map_eq_ok_iff.1 h
    rw [accepts, BoundQuery.holds, (acceptsEach_eq_holds f name args hf).2.2]
  | .link _ _, _, h => by cases h; rfl
  | .triaged id _, _, h => by
    obtain ⟨r, hr, rfl⟩ := Outcome.map_eq_ok_iff.1 h
    rw [accepts, BoundQuery.holds, status_under hr]
    rfl
  | .label _ _, _, h => by cases h; rfl
  | .feature _ _, _, h => by cases h; rfl
  | .quality .different, _, h => by
    cases h
    exact disagree_eq
  | .quality .tentative, _, h => by cases h; rfl
  | .quality .optional, _, h => by cases h; rfl

theorem acceptsEach_eq_holds (f : Fingerprint) (name : TestName) : (args : List BoundQuery) →
    {filters : List Filter} → compileEach results columns args = .ok filters →
    acceptsAll f name filters = BoundQuery.holdsAll (Subject.under results columns f name) args ∧
    acceptsAny f name filters = BoundQuery.holdsAny (Subject.under results columns f name) args ∧
    acceptsCount f name filters = BoundQuery.holdsCount (Subject.under results columns f name) args
  | [], _, h => by cases h; exact ⟨rfl, rfl, rfl⟩
  | q :: rest, _, h => by
    obtain ⟨filter, hf, h⟩ := Outcome.bind_eq_ok_iff.1 h
    obtain ⟨filters, hfs, h⟩ := Outcome.bind_eq_ok_iff.1 h
    cases h
    have hq := accepts_eq_holds f name q hf
    obtain ⟨hall, hany, hcount⟩ := acceptsEach_eq_holds f name rest hfs
    refine ⟨?_, ?_, ?_⟩
    · rw [acceptsAll, BoundQuery.holdsAll, hq, hall]
    · rw [acceptsAny, BoundQuery.holdsAny, hq, hany]
    · rw [acceptsCount, BoundQuery.holdsCount, hq, hcount]

end

end Filter

end ResultSearch
