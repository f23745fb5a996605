import ResultSearch.Registry
import ResultSearch.Report
import ResultSearch.Results

/-!
# Staging reports

Before anything of a run is shown, its whole report is taken apart into fingerprints with their
names and statuses. Of two entries of one test the later counts, and so it does for a subtest that
both list; of two subtests of one name within an entry the first counts.

* `stage`: the results of a report, or the first subtest that has no fingerprint.
-/

namespace ResultSearch

/-- What a report says of one fingerprint. -/
structure StagedResult where
  name : TestName
  status : Status
  deriving DecidableEq

/-- The results of a report by fingerprint. -/
abbrev Staged := Table Fingerprint StagedResult

namespace Staged

/-- Stage the subtests of a test, those with a name already `seen` excepted. -/
def addSubtests (hash : NameHash) (test : String) :
    (seen : List String) → List SubtestResult → Staged → Except Error Staged
  | _, [], staged => .ok staged
  | seen, sub :: rest, staged =>
    if seen.contains sub.name then addSubtests hash test seen rest staged
    else do
      let f ← Fingerprint.compute hash test (some sub.name)
      addSubtests hash test (sub.name :: seen) rest
        (staged.set f ⟨⟨test, some sub.name⟩, sub.status⟩)

/-- Stage one entry of a report. -/
def addResult (hash : NameHash) (staged : Staged) (r : TestResult) : Except Error Staged := do
  let f ← Fingerprint.compute hash r.test none
  addSubtests hash r.test [] r.subtests (staged.set f ⟨⟨r.test, none⟩, r.status⟩)

/-- The results of a whole report. -/
def stage (hash : NameHash) (report : Report) : Except Error Staged :=
  report.results.foldlM (addResult hash) Table.empty

/-- The part of the results for one of `count` shards. -/
def forShard (staged : Staged) (count shard : Nat) : List (Fingerprint × StagedResult) :=
  staged.entries.filter fun e => e.1.shard count = shard

end Staged

end ResultSearch
