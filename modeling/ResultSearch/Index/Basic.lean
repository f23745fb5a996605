import ResultSearch.Index.Staging
import ResultSearch.Run

/-!
# The index

Runs with their results, split over shards by the hash of the test's name. An ingestion begins by
marking its run as being loaded; once the report is there its results are written to every shard and
the run becomes resident, or the mark is taken away again. So a run is resident as a whole or not at
all, and it is loaded once at a time.

* `create`: an empty index.
* `begin`, `deliver`, `abandon`: the start of an ingestion and its two ends.
* `residentRuns`: the resident runs, newest first.
-/

namespace ResultSearch

/-- The names and results of the tests of one shard. -/
structure Shard where
  registry : Registry
  store : ResultStore
  deriving DecidableEq

namespace Shard

/-- A shard that has seen no run. -/
def empty : Shard := ⟨.empty, .empty⟩

instance : Inhabited Shard := ⟨empty⟩

/-- Write the results of a run; the names stay even if the store refuses the run. -/
def publish (s : Shard) (id : RunId) (results : List (Fingerprint × StagedResult)) :
    Except Error Unit × Shard :=
  let registry := results.foldl (fun r e => r.insert e.1 e.2.name.test e.2.name.subtest) s.registry
  match s.store.add id (RunResults.ofList (results.map fun e => (e.1, e.2.status))) with
  | .ok store => (.ok (), ⟨registry, store⟩)
  | .error e => (.error e, { s with registry })

/-- Remove the results of runs, up to the first that is not there. -/
def purge (s : Shard) : List RunId → Except Error Unit × Shard
  | [] => (.ok (), s)
  | id :: rest =>
    match s.store.remove id with
    | .ok (_, store) => { s with store }.purge rest
    | .error e => (.error e, s)

end Shard

/-- Runs in memory. -/
structure Index where
  hash : NameHash
  shards : List Shard
  resident : Table RunId Run
  /-- The runs that are being loaded. -/
  inFlight : List RunId

namespace Index

/-- An index of some shards. -/
def create (hash : NameHash) (shards : Nat) : Except Error Index :=
  if shards = 0 then .error .someShardsRequired
  else .ok ⟨hash, List.replicate shards .empty, Table.empty, []⟩

/-- The number of shards. -/
def shardCount (ix : Index) : Nat := ix.shards.length

/-- The number of resident runs. -/
def size (ix : Index) : Nat := ix.resident.size

/-- Whether no run is resident. -/
def isEmpty (ix : Index) : Bool := ix.resident.isEmpty

/-- The number of fingerprints that have ever been published. -/
def fingerprintCount (ix : Index) : Nat := ix.shards.foldl (fun n s => n + s.registry.size) 0

/-! ## Resident runs -/

/-- The resident run with an id, or the error that there is none. -/
def run (ix : Index) (id : RunId) : Except Error Run :=
  match ix.resident.get? id with
  | some r => .ok r
  | none => .error (.unknownRun id)

/-- The runs with some ids, or the first that is not resident. -/
def runs (ix : Index) (ids : List RunId) : Except Error (List Run) := ids.mapM ix.run

/-- The runs that are resident, and the ids of those that are not. -/
def splitResident (ix : Index) (ids : List RunId) : List Run × List RunId :=
  (ids.filterMap ix.resident.get?, ids.filter fun id => !ix.resident.contains id)

/-- All resident runs from the newest to the oldest. -/
def residentRuns (ix : Index) : List Run := Run.newestFirst ix.resident.values

/-- The numbers of tests and runs of one shard, in words. -/
def describeShard (s : Shard) : String :=
  "Shard \x7b tests: " ++ toString s.registry.size ++ ", runs: " ++ toString s.store.size ++ " \x7d"

/-- The numbers of tests and runs, in words. -/
def describe (ix : Index) : String :=
  "ShardedIndex \x7b shards: [" ++ ", ".intercalate (ix.shards.map describeShard) ++ "], runs: " ++
    toString ix.size ++ ", .. \x7d"

/-! ## Ingestion -/

/-- Mark a run as being loaded. -/
def begin (ix : Index) (r : Run) : Except Error Index :=
  if r.isNil then .error .nilRun
  else if ix.resident.contains r.id then .error (.runExists r.id)
  else if ix.inFlight.contains r.id then .error (.runLoading r.id)
  else .ok { ix with inFlight := r.id :: ix.inFlight }

/-- Take the mark of a run away. -/
def abandon (ix : Index) (id : RunId) : Index :=
  { ix with inFlight := ix.inFlight.filter (· ≠ id) }

/-- Write the results of a run to the shards from a number on, up to the first shard that refuses. -/
def publish (id : RunId) (staged : Staged) (count : Nat) :
    (number : Nat) → List Shard → Except Error Unit × List Shard
  | _, [] => (.ok (), [])
  | number, s :: rest =>
    match s.publish id (staged.forShard count number) with
    | (.error e, s) => (.error e, s :: rest)
    | (.ok (), s) =>
      let (outcome, rest) := publish id staged count (number + 1) rest
      (outcome, s :: rest)

/-- Publish the results of a run and make it resident. -/
def store (ix : Index) (r : Run) (staged : Staged) : Except Error Unit × Index :=
  if ix.resident.contains r.id then (.error (.runExists r.id), ix)
  else
    match publish r.id staged ix.shardCount 0 ix.shards with
    | (.error e, shards) => (.error e, { ix with shards })
    | (.ok (), shards) => (.ok (), { ix with shards, resident := ix.resident.set r.id r })

/-- End an ingestion with what loading the report came to. -/
def deliver (ix : Index) (r : Run) (loaded : Loaded) : Except Error Unit × Index :=
  match loaded with
  | .error e => (.error e, ix.abandon r.id)
  | .ok report =>
    match Staged.stage ix.hash report with
    | .error e => (.error e, ix.abandon r.id)
    | .ok staged =>
      let (outcome, ix) := ix.store r staged
      (outcome, ix.abandon r.id)

/-- A whole ingestion with nothing in between. -/
def ingest (ix : Index) (load : Run → Loaded) (r : Run) : Except Error Unit × Index :=
  match ix.begin r with
  | .error e => (.error e, ix)
  | .ok begun => begun.deliver r (load r)

end Index

/-- What an index tells those who listen to it. -/
inductive IndexEvent where
  | ingested (run : RunId)
  /-- From the oldest to the newest. -/
  | evicted (runs : List RunId)
  deriving DecidableEq

end ResultSearch
