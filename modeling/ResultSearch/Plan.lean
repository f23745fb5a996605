import ResultSearch.Aggregation
import ResultSearch.Cancel
import ResultSearch.Filter
import ResultSearch.Run

/-!
# Plans

A query bound to an index: one filter for each shard, with the results of the runs it needs. A plan
has its own hold on those results, so evicting a run after binding changes nothing for it. The names
of the tests it does not hold: it scans the registry of its shard as it is when the plan is executed.

* `execute`: the rows of the plan, by test name.
* `executeWith`: the same, unless the search is told to stop.
-/

namespace ResultSearch

/-- The part of a plan for one shard. -/
structure ShardFilter where
  results : Table RunId RunResults
  filter : Filter

/-- A bound query over some runs. -/
structure Plan where
  runIds : List RunId
  shards : List ShardFilter

/-- At which position of which shard a scan asks whether it may go on, and what it is told. -/
abbrev StopCheck := (shard position : Nat) → Except Cancellation Unit

namespace StopCheck

/-- Nothing stops the scan. -/
def never : StopCheck := fun _ _ => .ok ()

end StopCheck

namespace Plan

/-- A scan asks at every position that is a multiple of this. -/
def stride : Nat := 1024

/-- Scan fingerprints from a position on. -/
def scanFrom (filter : Filter) (columns : List RunResults) (options : RowOptions)
    (check : Nat → Except Cancellation Unit) :
    (position : Nat) → List (Fingerprint × TestName) → Aggregation → Except Error Aggregation
  | _, [], a => .ok a
  | position, (f, name) :: rest, a =>
    match if position % stride = 0 then check position else .ok () with
    | .error cause => .error (.cancelled cause)
    | .ok () =>
      scanFrom filter columns options check (position + 1) rest
        (if filter.accepts f name then a.add columns options f name else a)

/-- The rows of one shard. -/
def scan (shard : ShardFilter) (registry : Registry) (columns : List RunId) (options : RowOptions)
    (check : Nat → Except Cancellation Unit) : Except Error (List Row) := do
  let columns ← columns.mapM (Filter.resultsOf shard.results)
  let a ← scanFrom shard.filter columns options check 0 registry.entries .empty
  return a.finish options

/-- The rows of each shard from a number on, one after the other. -/
def scanFromShard (columns : List RunId) (options : RowOptions) (check : StopCheck) :
    (shard : Nat) → List (ShardFilter × Registry) → Except Error (List Row)
  | _, [] => .ok []
  | number, (shard, registry) :: rest => do
    let rows ← scan shard registry columns options (check number)
    return rows ++ (← scanFromShard columns options check (number + 1) rest)

/-- Rows by test name. -/
def sortRows (rows : List Row) : List Row := rows.mergeSort fun a b => decide (a.test ≤ b.test)

/-- The rows of a plan over the registries of the shards, with one summary for each column. -/
def executeWith (p : Plan) (registries : List Registry) (columns : List RunId)
    (options : RowOptions) (check : StopCheck) : Except Error (List Row) := do
  let rows ← scanFromShard columns options check 0 (p.shards.zip registries)
  return sortRows rows

/-- The rows of a plan if nothing stops it. -/
def execute (p : Plan) (registries : List Registry) (columns : List RunId) (options : RowOptions) :
    Except Error (List Row) :=
  p.executeWith registries columns options .never

end Plan

end ResultSearch
