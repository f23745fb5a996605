import ResultSearch.Index.Basic

/-!
# Backfilling

A fresh index is filled once with as many of the newest runs as the memory allows. Filling goes on
run by run as long as its flag is up; an eviction or the stop of the monitor takes the flag down, and
then no further run is begun.

* `runBudget`: how many runs fit.
* `next`: the run to begin now.
-/

namespace ResultSearch

/-- The average number of bytes that one run takes. -/
def bytesPerRun : Nat := 65000000

/-- How many runs of a size fit into some bytes; none if they had no size. -/
def runBudget (maxBytes bytesPerRun : Nat) : Nat :=
  if bytesPerRun = 0 then 0 else maxBytes / bytesPerRun

/-- What filling came to. -/
structure BackfillSummary where
  fetched : Nat
  ingested : Nat
  failed : Nat
  /-- Runs were left over when the flag went down. -/
  halted : Bool
  deriving DecidableEq

/-- Filling that is under way. -/
structure Backfill where
  summary : BackfillSummary
  /-- The runs that have not been begun. -/
  pending : List Run
  flag : Bool
  deriving DecidableEq

namespace Backfill

/-- Begin to fill with runs, those that started last first. -/
def ofRuns (runs : List Run) : Backfill :=
  ⟨⟨runs.length, 0, 0, false⟩, Run.latestStartFirst runs, true⟩

/-- Take the flag down. -/
def halt (b : Backfill) : Backfill := { b with flag := false }

/-- The run to begin now, if filling goes on. -/
def next (b : Backfill) : Option Run × Backfill :=
  match b.pending with
  | [] => (none, b)
  | r :: rest =>
    if b.flag then (some r, { b with pending := rest })
    else (none, { b with summary := { b.summary with halted := true } })

/-- Count what became of the run that was begun last. -/
def record (b : Backfill) (outcome : Except Error Unit) : Backfill :=
  match outcome with
  | .ok () => { b with summary := { b.summary with ingested := b.summary.ingested + 1 } }
  | .error _ => { b with summary := { b.summary with failed := b.summary.failed + 1 } }

end Backfill

end ResultSearch
