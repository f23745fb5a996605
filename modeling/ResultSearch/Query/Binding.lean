import ResultSearch.Query.Bound

/-!
# Binding queries to runs

Binding turns a query into a bound query over a list of runs. Leaves about a product become leaves
about the runs that the product selects; the combinators over runs become conjunctions and
disjunctions of the argument bound to single runs or to windows of consecutive runs; leaves about
metadata take the part of the metadata that the runs may see. A metadata table that cannot be had
counts as empty.
-/

namespace ResultSearch

/-- The metadata that binding consults; `none` stands for data that could not be had. -/
structure Binder where
  metadata : Option MetadataTable
  features : Option WebFeatures

namespace Binder

/-- A binder without any metadata. -/
def empty : Binder := ⟨some Table.empty, some Table.empty⟩

/-- The metadata, empty if it could not be had. -/
def table (b : Binder) : MetadataTable := b.metadata.getD Table.empty

/-- The web features, empty if they could not be had. -/
def webFeatures (b : Binder) : WebFeatures := b.features.getD Table.empty

/-- A demand on the status in some run of the product. -/
def bindStatus (product : Option Product) (test : StatusTest) (runs : List Run) : BoundQuery :=
  match (runs.filter fun r => product.all fun p => p.matchesRun r).map fun r =>
      BoundQuery.status r.id test with
  | [] => .const false
  | [q] => q
  | qs => .or qs

/-- Which links count as triage of a run: those about the product if there is one, else those about
the test in general. -/
def triageScope (product : Option Product) (run : Run) : LinkScope :=
  match product with
  | some _ => .runs [run]
  | none => .testLevel

/-- Links of the test for some run of the product that has a result. -/
def bindTriaged (b : Binder) (product : Option Product) (runs : List Run) : BoundQuery :=
  .any <| (runs.filter fun r => product.all fun p => p.matchesRun r).filterMap fun r =>
    let values := Metadata.linkValues b.table (triageScope product r)
    if values.isEmpty then none else some (.triaged r.id values)

mutual

/-- Bind a query to runs. -/
def bind (b : Binder) : Query → List Run → BoundQuery
  | .const v, _ => .const v
  | .testName pattern, _ => .testName pattern
  | .subtestName pattern, _ => .subtestName pattern
  | .testPath path, _ => .testPath path
  | .status product test, runs => bindStatus product test runs
  | .not q, runs => .negate (bind b q runs)
  | .or args, runs => .any (bindEach b args runs)
  | .and args, runs => .all (bindEach b args runs)
  | .someRun args, runs => bindSomeRun b args runs
  | .everyRun args, runs => .all (bindInEvery b args runs)
  | .noRun args, runs => .negate (bindSomeRun b args runs)
  | .consecutive args, runs =>
    if args.isEmpty || decide (runs.length < args.length) then .const false
    else
      .any ((List.range (runs.length + 1 - args.length)).map fun i =>
        .all (bindAlong b args (runs.drop i)))
  | .tally comparison count q, runs => .tally comparison count (runs.map fun r => bind b q [r])
  | .link pattern, runs => .link pattern (Metadata.linkValues b.table (.testLevelAndRuns runs))
  | .triaged product, runs => bindTriaged b product runs
  | .label label, _ => .label label (Metadata.labelValues b.table)
  | .feature feature, _ => .feature feature b.webFeatures
  | .quality quality, _ => .quality quality

/-- Each query bound to all the runs. -/
def bindEach (b : Binder) : List Query → List Run → List BoundQuery
  | [], _ => []
  | q :: rest, runs => bind b q runs :: bindEach b rest runs

/-- Each query, to hold in some single run; one query alone is bound to all the runs at once. -/
def bindSomeRun (b : Binder) : List Query → List Run → BoundQuery
  | [], _ => .all []
  | [q], runs => bind b q runs
  | q :: q' :: rest, runs =>
    .all (.any (runs.map fun r => bind b q [r]) :: .any (runs.map fun r => bind b q' [r]) ::
      bindInSome b rest runs)

/-- For each query, that it holds in some single run. -/
def bindInSome (b : Binder) : List Query → List Run → List BoundQuery
  | [], _ => []
  | q :: rest, runs => .any (runs.map fun r => bind b q [r]) :: bindInSome b rest runs

/-- For each query, that it holds in every single run. -/
def bindInEvery (b : Binder) : List Query → List Run → List BoundQuery
  | [], _ => []
  | q :: rest, runs => .all (runs.map fun r => bind b q [r]) :: bindInEvery b rest runs

/-- The queries bound to one run each, as far as both go. -/
def bindAlong (b : Binder) : List Query → List Run → List BoundQuery
  | [], _ => []
  | _ :: _, [] => []
  | q :: rest, r :: runs => bind b q [r] :: bindAlong b rest runs

end

end Binder

namespace BoundQuery

/-- The run has some result. -/
def present (id : RunId) : BoundQuery := negate (.status id (.is .unknown))

/-- The query, restricted to tests that have a result in one of the runs. -/
def restrictTo (ids : List RunId) (q : BoundQuery) : BoundQuery :=
  let somewhere := any (ids.map present)
  match q with
  | .and args => all (somewhere :: args)
  | q => all [somewhere, q]

end BoundQuery

end ResultSearch
