import ResultSearch.Index.Basic
import ResultSearch.Plan
import ResultSearch.Query.Binding
import ResultSearch.Query.Request

/-!
# Searching the index

A bound query becomes a plan once all the runs that it is about are resident; the plan answers rows
over any columns among those runs.

* `bind`: the plan of a query over some runs.
* `execute`: the rows of a plan as the registries are now.
* `search`: a request from its text to its rows.
-/

namespace ResultSearch.Index

/-- The results of runs in one shard. -/
def gather (s : Shard) (ids : List RunId) : Except Error (Table RunId RunResults) := do
  let pairs ← ids.mapM fun id =>
    match s.store.forRun id with
    | some r => .ok (id, r)
    | none => .error (.unknownRun id)
  return Table.ofList pairs

/-- The part of a plan for one shard. -/
def bindShard (columns referenced : List RunId) (q : BoundQuery) (s : Shard) :
    Except Error ShardFilter := do
  let results ← gather s (columns ++ referenced)
  let filter ← Filter.compile results (columns.filterMap results.get?) q
  return ⟨results, filter⟩

/-- The plan of a query over some runs. All of them, and all that the query speaks of, have to be
resident. -/
def bind (ix : Index) (columns : List RunId) (query : Option BoundQuery) : Except Error Plan :=
  if columns.isEmpty then .error .noRuns
  else
    match query with
    | none => .error .noQuery
    | some q =>
      let referenced := q.runIds
      match (columns ++ referenced).find? fun id => !ix.resident.contains id with
      | some missing => .error (.unknownRun missing)
      | none => do return ⟨columns, ← ix.shards.mapM (bindShard columns referenced q)⟩

/-- The names of the tests, shard by shard. -/
def registries (ix : Index) : List Registry := ix.shards.map Shard.registry

/-- The rows of a plan unless something stops it. -/
def executeWith (ix : Index) (p : Plan) (columns : List RunId) (options : RowOptions)
    (check : StopCheck) : Except Error (List Row) :=
  p.executeWith ix.registries columns options check

/-- The rows of a plan. -/
def execute (ix : Index) (p : Plan) (columns : List RunId) (options : RowOptions) :
    Except Error (List Row) :=
  p.execute ix.registries columns options

/-- The plan of a request over resident runs. Unless it is taken as it is, the query finds only tests
that have a result in one of the runs. -/
def plan (ix : Index) (binder : Binder) (request : Request) (asIs : Bool) : Except Error Plan := do
  let runs ← ix.runs request.runIds
  let bound := binder.bind request.query runs
  let prepared := if asIs then bound else bound.restrictTo request.runIds
  ix.bind request.runIds (some prepared)

end ResultSearch.Index
