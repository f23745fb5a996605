import ResultSearch.Diff

/-!
# Rows

What a search answers for one test.
-/

namespace ResultSearch

/-- How many results of a test a run has, and how many of them pass. -/
structure RunSummary where
  passes : UInt32
  total : UInt32
  deriving DecidableEq

namespace RunSummary

/-- A summary before anything is counted. -/
def zero : RunSummary := ⟨0, 0⟩

/-- Count one more result. -/
def count (s : RunSummary) (passes : Bool) : RunSummary :=
  ⟨if passes then s.passes + 1 else s.passes, s.total + 1⟩

end RunSummary

/-- What a search answers for one test. -/
structure Row where
  test : String
  /-- One entry for each queried run, in their order. -/
  perRun : List RunSummary
  /-- The entry at `k` counts the results that pass in exactly `k` runs. -/
  interop : Option (List UInt32)
  subtests : List String
  diff : Option RowDiff
  deriving DecidableEq

/-- What a row should hold. -/
structure RowOptions where
  /-- The names of the subtests that were found. -/
  includeSubtests : Bool
  /-- How many results pass in how many runs. -/
  interop : Bool
  /-- The status `OK` of a test itself counts nothing. -/
  ignoreHarness : Bool
  /-- The changes from the first to the second of two runs. -/
  includeDiff : Bool
  diffFilter : DiffFilter
  deriving DecidableEq

namespace RowOptions

/-- The summaries alone, with all results counted. -/
def standard : RowOptions := ⟨false, false, false, false, .standard⟩

instance : Inhabited RowOptions := ⟨standard⟩

end RowOptions

end ResultSearch
