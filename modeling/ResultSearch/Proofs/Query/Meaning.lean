import ResultSearch.Proofs.Metadata
import ResultSearch.Proofs.Query.Binding
import ResultSearch.Proofs.Query.Evaluation

/-!
# What a query means

`Query.holds` says of a query when it holds of a test over a list of runs, run by run and entry by
entry, without binding anything. Binding keeps this meaning for the whole language.

* `holds_bind`: the bound query holds exactly if the query does.
* `mem_mentions_bind`: a bound query mentions only runs that it was bound to.
* `accepts_bind_eq_holds`: over results of all the runs the bound query compiles, and its filter
  accepts exactly what the query holds of.
-/

namespace ResultSearch

namespace Query

/-! ## Meaning -/

/-- Whether each of some conditions holds in some single run; one condition alone looks at all the
runs at once. -/
def eachSomewhere (conditions : List (List Run → Bool)) (runs : List Run) : Bool :=
  match conditions with
  | [p] => p runs
  | ps => ps.all fun p => runs.any fun r => p [r]

/-- Whether some conditions hold one after the other in consecutive runs. -/
def inSequence (conditions : List (List Run → Bool)) (runs : List Run) : Bool :=
  !conditions.isEmpty && (List.range runs.length).any fun i =>
    conditions.zipIdx.all fun (p, j) => runs[i + j]?.any fun r => p [r]

/-- The run is one of the product, or no product is asked for. -/
def ofProduct (product : Option Product) (r : Run) : Bool := product.all fun p => p.matchesRun r

mutual

/-- Whether the query holds of a test over some runs. -/
def holds (b : Binder) (s : Subject) : Query → List Run → Bool
  | .const v, _ => v
  | .testName pattern, _ => s.testContains pattern
  | .subtestName pattern, _ => s.subtestContains pattern
  | .testPath path, _ => s.testBegins path
  | .status product test, runs =>
    runs.any fun r => ofProduct product r && test.accepts (s.status r.id)
  | .not q, runs => !holds b s q runs
  | .or args, runs => (conditions b s args).any fun p => p runs
  | .and args, runs => (conditions b s args).all fun p => p runs
  | .someRun args, runs => eachSomewhere (conditions b s args) runs
  | .everyRun args, runs => (conditions b s args).all fun p => runs.all fun r => p [r]
  | .noRun args, runs => !eachSomewhere (conditions b s args) runs
  | .consecutive args, runs => inSequence (conditions b s args) runs
  | .tally comparison count q, runs =>
    comparison.accepts count (runs.countP fun r => holds b s q [r])
  | .link pattern, runs =>
    (Metadata.about b.table s.name.test).any fun l =>
      (l.product.all fun p => runs.any p.matchesRun) &&
        l.url.any fun url => url ≠ "" && Text.contains (Text.lower url) (Text.lower pattern)
  | .triaged product, runs => runs.any fun r =>
    ofProduct product r && s.status r.id ≠ .unknown &&
      (Metadata.about b.table s.name.test).any fun l =>
        (if product.isSome then l.product.any fun p => p.matchesRun r else l.product.isNone) &&
          l.url.any fun url => url ≠ ""
  | .label wanted, _ =>
    (Metadata.about b.table s.name.test).any fun l =>
      l.product.isNone && l.label.any fun v => v ≠ "" && Text.lower v = Text.lower wanted
  | .feature wanted, _ =>
    (Table.get? b.webFeatures s.name.test).any fun features => features.contains wanted
  | .quality wanted, _ => s.hasQuality wanted

/-- What each query says of a list of runs. -/
def conditions (b : Binder) (s : Subject) : List Query → List (List Run → Bool)
  | [] => []
  | q :: rest => (fun runs => holds b s q runs) :: conditions b s rest

end

end Query

namespace Binder

attribute [local simp] bind bindEach bindInSome bindInEvery bindAlong Query.holds Query.conditions

variable {b : Binder} {s : Subject}

/-! ## Leaves -/

theorem holds_bindStatus {product : Option Product} {test : StatusTest} {runs : List Run} :
    (bindStatus product test runs).holds s = (Query.status product test).holds b s runs := by
  rw [bindStatus_eq_any, BoundQuery.holds_any, List.any_map, List.any_filter]
  rfl

theorem holds_linkValues (table : MetadataTable) (scope : LinkScope) {q : String → Bool} :
    (Metadata.linkValues table scope).anyValue s.name.test q =
      (Metadata.about table s.name.test).any fun l =>
        scope.admits l && l.url.any fun url => url ≠ "" && q url := by
  rw [Metadata.linkValues, Metadata.anyValue_collect]
  refine congrArg _ (funext fun l => ?_)
  cases scope.admits l with
  | false => rfl
  | true => cases hu : l.url <;> simp [MetadataLink.link?, hu, Option.any_filter]

theorem holds_bindLink {pattern : String} {runs : List Run} :
    (b.bind (.link pattern) runs).holds s = (Query.link pattern).holds b s runs := by
  rw [bind, BoundQuery.holds, holds_linkValues, Query.holds]
  refine List.any_congr rfl fun l => ?_
  cases hp : l.product <;> simp [LinkScope.admits, hp]

theorem holds_bindLabel {wanted : String} {runs : List Run} :
    (b.bind (.label wanted) runs).holds s = (Query.label wanted).holds b s runs := by
  rw [bind, BoundQuery.holds, Metadata.labelValues, Metadata.anyValue_collect, Query.holds]
  refine List.any_congr rfl fun l => ?_
  cases hp : l.product <;> cases hl : l.label <;>
    simp [LinkScope.admits, MetadataLink.mark?, hp, hl, Option.any_filter]

theorem holds_bindFeature {wanted : String} {runs : List Run} :
    (b.bind (.feature wanted) runs).holds s = (Query.feature wanted).holds b s runs := by
  rw [bind, BoundQuery.holds, WebFeatures.has, Query.holds]
  cases Table.get? b.webFeatures s.name.test <;> rfl

theorem admits_triageScope {product : Option Product} {r : Run} {l : MetadataLink} :
    (triageScope product r).admits l =
      if product.isSome then l.product.any fun p => p.matchesRun r else l.product.isNone := by
  cases product <;> simp [triageScope, LinkScope.admits]

theorem holds_bindTriaged {product : Option Product} {runs : List Run} :
    (b.bindTriaged product runs).holds s = (Query.triaged product).holds b s runs := by
  rw [bindTriaged, BoundQuery.holds_any, List.any_filterMap, List.any_filter, Query.holds]
  refine congrArg _ (funext fun r => ?_)
  have hvalues : (!((Metadata.linkValues b.table (triageScope product r)).valuesFor
      s.name.test).isEmpty) = (Metadata.about b.table s.name.test).any fun l =>
        (if product.isSome then l.product.any fun p => p.matchesRun r else l.product.isNone) &&
          l.url.any fun url => url ≠ "" := by
    have hany := holds_linkValues (s := s) b.table (triageScope product r)
      (q := fun _ => true)
    simp only [Bool.and_true, admits_triageScope] at hany
    rw [← hany, PathValues.anyValue]
    cases (Metadata.linkValues b.table (triageScope product r)).valuesFor s.name.test <;> rfl
  rw [← hvalues, Query.ofProduct, Bool.and_assoc]
  refine congrArg _ ?_
  dsimp only
  cases hempty : (Metadata.linkValues b.table (triageScope product r)).isEmpty with
  | true =>
    -- Nothing is said of any test, so nothing of this one.
    simp [PathValues.valuesFor_of_isEmpty hempty]
  | false => rfl

/-! ## Consecutive runs -/

theorem inSequence_iff {conditions : List (List Run → Bool)} {runs : List Run} :
    Query.inSequence conditions runs = true ↔ conditions ≠ [] ∧ ∃ i : Nat, ∀ (j : Nat) p,
      conditions[j]? = some p → ∃ r, runs[i + j]? = some r ∧ p [r] = true := by
  simp only [Query.inSequence, Bool.and_eq_true, Bool.not_eq_true', List.isEmpty_eq_false_iff,
    List.any_eq_true, List.mem_range, List.all_eq_true, Prod.forall, List.mem_zipIdx_iff_getElem?,
    Option.any_eq_true]
  refine and_congr_right fun hne => ⟨?_, ?_⟩
  · rintro ⟨i, -, h⟩
    exact ⟨i, fun j p hp => h p j hp⟩
  · rintro ⟨i, h⟩
    refine ⟨i, ?_, fun p j hp => h j p hp⟩
    -- The first condition needs a run at the offset itself.
    obtain ⟨p, rest, rfl⟩ := List.exists_cons_of_ne_nil hne
    obtain ⟨r, hr, -⟩ := h 0 p rfl
    exact (List.getElem?_eq_some_iff.1 hr).1

theorem holds_bindAlong_iff {args : List Query} {runs : List Run} :
    (BoundQuery.all (b.bindAlong args runs)).holds s = true ↔ ∀ (j : Nat) q r,
      args[j]? = some q → runs[j]? = some r → (b.bind q [r]).holds s = true := by
  simp only [BoundQuery.holds_all, bindAlong_eq_zipWith, List.all_eq_true, List.mem_iff_getElem?,
    List.getElem?_zipWith_eq_some]
  constructor
  · intro h j q r hq hr
    exact h _ ⟨j, q, r, hq, hr, rfl⟩
  · rintro h _ ⟨j, q, r, hq, hr, rfl⟩
    exact h j q r hq hr

/-- The windows of consecutive runs are the offsets at which every argument finds a run. -/
theorem holds_bindConsecutive {args : List Query} {runs : List Run}
    (ih : Query.conditions b s args = args.map fun q rs => (b.bind q rs).holds s) :
    (b.bind (.consecutive args) runs).holds s = (Query.consecutive args).holds b s runs := by
  rw [bind, Query.holds, ih, Bool.eq_iff_iff, inSequence_iff]
  simp only [ne_eq, List.map_eq_nil_iff, List.getElem?_map, Option.map_eq_some_iff]
  by_cases hne : args = []
  · simp [hne, BoundQuery.holds]
  have hpos := List.length_pos_iff.2 hne
  -- Where all arguments find their runs the last one does, so the window ends within the runs.
  have hwithin {i : Nat} (h : ∀ (j : Nat) p,
      (∃ q, args[j]? = some q ∧ (fun rs => (b.bind q rs).holds s) = p) →
        ∃ r, runs[i + j]? = some r ∧ p [r] = true) : i + args.length ≤ runs.length := by
    have hlast : args.length - 1 < args.length := by omega
    obtain ⟨r, hr, -⟩ := h (args.length - 1) _ ⟨_, List.getElem?_eq_getElem hlast, rfl⟩
    have := (List.getElem?_eq_some_iff.1 hr).1
    omega
  by_cases hlong : runs.length < args.length
  · rw [if_pos (by simp [hlong])]
    simp only [BoundQuery.holds, Bool.false_eq_true, false_iff, not_and, not_exists]
    intro _ i h
    have := hwithin h
    omega
  rw [if_neg (by simp [hne, hlong]), BoundQuery.holds_any, List.any_map, List.any_eq_true]
  simp only [List.mem_range, Function.comp_apply, holds_bindAlong_iff, List.getElem?_drop]
  refine ⟨?_, ?_⟩
  · rintro ⟨i, hi, h⟩
    refine ⟨hne, i, ?_⟩
    rintro j _ ⟨q, hq, rfl⟩
    have hj := (List.getElem?_eq_some_iff.1 hq).1
    have hij : i + j < runs.length := by omega
    exact ⟨_, List.getElem?_eq_getElem hij, h j q _ hq (List.getElem?_eq_getElem hij)⟩
  · rintro ⟨-, i, h⟩
    refine ⟨i, ?_, fun j q r hq hr => ?_⟩
    · have := hwithin h
      omega
    · obtain ⟨r', hr', hp⟩ := h j _ ⟨q, hq, rfl⟩
      rw [hr] at hr'
      cases hr'
      exact hp

/-! ## Binding keeps the meaning -/

theorem holds_bindSomeRun {args : List Query} {runs : List Run}
    (ih : Query.conditions b s args = args.map fun q rs => (b.bind q rs).holds s) :
    (b.bindSomeRun args runs).holds s =
      Query.eachSomewhere (Query.conditions b s args) runs := by
  rw [ih]
  match args with
  | [q] =>
    rw [bindSomeRun_singleton]
    rfl
  | [] => rfl
  | q :: q' :: rest =>
    rw [bindSomeRun_of_length_ne_one (by simp), BoundQuery.holds_all, bindInSome_eq_map,
      List.all_map]
    show _ = ((q :: q' :: rest).map fun q rs => (b.bind q rs).holds s).all fun p =>
      runs.any fun r => p [r]
    rw [List.all_map]
    refine List.all_congr rfl fun x => ?_
    rw [Function.comp_apply, Function.comp_apply, BoundQuery.holds_any, List.any_map]
    rfl

theorem holds_bindEveryRun {args : List Query} {runs : List Run}
    (ih : Query.conditions b s args = args.map fun q rs => (b.bind q rs).holds s) :
    (b.bind (.everyRun args) runs).holds s = (Query.everyRun args).holds b s runs := by
  rw [bind, BoundQuery.holds_all, bindInEvery_eq_map, Query.holds, ih, List.all_map, List.all_map]
  refine List.all_congr rfl fun x => ?_
  rw [Function.comp_apply, Function.comp_apply, BoundQuery.holds_all, List.all_map]
  rfl

mutual

/-- A bound query holds exactly if the query holds over the runs that it was bound to. -/
theorem holds_bind : (q : Query) → (runs : List Run) →
    (b.bind q runs).holds s = q.holds b s runs
  | .const _, _ => rfl
  | .testName _, _ => rfl
  | .subtestName _, _ => rfl
  | .testPath _, _ => rfl
  | .status _ _, _ => holds_bindStatus
  | .not q, runs => by rw [bind, BoundQuery.holds_negate, holds_bind q, Query.holds]
  | .or args, runs => by
    rw [bind, BoundQuery.holds_any, bindEach_eq_map, Query.holds, conditions_eq args,
      List.any_map, List.any_map]
    rfl
  | .and args, runs => by
    rw [bind, BoundQuery.holds_all, bindEach_eq_map, Query.holds, conditions_eq args,
      List.all_map, List.all_map]
    rfl
  | .someRun args, runs => by
    rw [bind, Query.holds, holds_bindSomeRun (conditions_eq args)]
  | .everyRun args, _ => holds_bindEveryRun (conditions_eq args)
  | .noRun args, runs => by
    rw [bind, Query.holds, BoundQuery.holds_negate, holds_bindSomeRun (conditions_eq args)]
  | .consecutive args, _ => holds_bindConsecutive (conditions_eq args)
  | .tally comparison count q, runs => by
    rw [bind, BoundQuery.holds, BoundQuery.holdsCount_eq_countP, List.countP_map, Query.holds]
    exact congrArg (comparison.accepts count)
      (congrArg (List.countP · runs) (funext fun r => holds_bind q [r]))
  | .link pattern, runs => holds_bindLink
  | .triaged _, _ => holds_bindTriaged
  | .label _, _ => holds_bindLabel
  | .feature _, _ => holds_bindFeature
  | .quality _, _ => rfl

theorem conditions_eq : (args : List Query) →
    Query.conditions b s args = args.map fun q runs => (b.bind q runs).holds s
  | [] => rfl
  | q :: rest => by
    rw [Query.conditions, conditions_eq rest, List.map_cons]
    exact congrArg (· :: _) (funext fun runs => (holds_bind q runs).symm)

end

/-! ## The runs of a bound query -/

theorem inherited_mentions_subset (ids : List RunId) :
    BoundQuery.Inherited ids fun x => x.mentions ⊆ ids where
  leaf _ _ h := h
  negate x h := by rwa [BoundQuery.mentions_negate]
  all args h := by
    intro id hid
    obtain ⟨x, hx, hid⟩ := BoundQuery.mem_mentionsAll.1 (BoundQuery.mentions_all_subset hid)
    exact h x hx hid
  any args h := by
    intro id hid
    obtain ⟨x, hx, hid⟩ := BoundQuery.mem_mentionsAll.1 (BoundQuery.mentions_any_subset hid)
    exact h x hx hid
  tally _ _ args h := by
    intro id hid
    rw [BoundQuery.mentions] at hid
    obtain ⟨x, hx, hid⟩ := BoundQuery.mem_mentionsAll.1 hid
    exact h x hx hid

/-- A bound query mentions only runs that it was bound to. -/
theorem mem_mentions_bind {id : RunId} (q : Query) (runs : List Run)
    (h : id ∈ (b.bind q runs).mentions) : id ∈ runs.map Run.id :=
  (inherited_mentions_subset (runs.map Run.id)).bind q runs (fun _ => List.mem_map_of_mem) h

theorem runIds_bind_subset (b : Binder) (q : Query) (runs : List Run) :
    (b.bind q runs).runIds ⊆ runs.map Run.id :=
  fun _ hid => mem_mentions_bind q runs (BoundQuery.mem_runIds.1 hid)

/-- Over results of all the runs a bound query compiles, and its filter accepts a fingerprint
exactly if the query holds of what is stored under it. -/
theorem accepts_bind_eq_holds (b : Binder) (q : Query) (runs : List Run)
    (results : Table RunId RunResults) (columns : List RunResults)
    (h : ∀ r ∈ runs, (results.get? r.id).isSome) :
    ∃ filter, Filter.compile results columns (b.bind q runs) = .ok filter ∧
      ∀ f name, filter.accepts f name = q.holds b (.under results columns f name) runs := by
  have hmentions : ∀ id ∈ (b.bind q runs).mentions, (results.get? id).isSome := by
    intro id hid
    obtain ⟨r, hr, rfl⟩ := List.mem_map.1 (mem_mentions_bind q runs hid)
    exact h r hr
  obtain ⟨filter, hfilter⟩ :
      ∃ filter, Filter.compile results columns (b.bind q runs) = .ok filter :=
    Filter.compile_isOk _ hmentions
  refine ⟨filter, hfilter, fun f name => ?_⟩
  rw [Filter.accepts_eq_holds f name _ hfilter, holds_bind]

/-- A run of a browser of which nothing else is known. -/
private def browserRun (id : RunId) (browser : String) : Run :=
  { Run.blank with id, browserName := browser }

/-- A test that passes in the first run and fails in the second, where a bug is filed for it. -/
theorem accepts_pass_then_triaged :
    let runs := [browserRun 1 "chrome", browserRun 2 "safari"]
    let results := Table.ofList
      [(1, .ofList [(⟨7, 0⟩, .pass)]), (2, RunResults.ofList [(⟨7, 0⟩, .fail)])]
    let binder : Binder := ⟨some (Table.ofList
      [("/A/*", [⟨some (.ofBrowser "safari"), some "http://bugs/1", none, none⟩])]), none⟩
    let query : Query := .consecutive
      [.status (some (.ofBrowser "chrome")) (.is .pass), .triaged (some (.ofBrowser "safari"))]
    (∀ r ∈ runs, (results.get? r.id).isSome) ∧
      ∃ filter, Filter.compile results [] (binder.bind query runs) = .ok filter ∧
        filter.accepts ⟨7, 0⟩ ⟨"/a/b.html", none⟩ = true := by
  intro runs results binder query
  have hruns : ∀ r ∈ runs, (results.get? r.id).isSome := by decide
  obtain ⟨filter, hfilter, haccepts⟩ := accepts_bind_eq_holds binder query runs results [] hruns
  refine ⟨hruns, filter, hfilter, ?_⟩
  rw [haccepts]
  decide +kernel

end Binder

end ResultSearch
