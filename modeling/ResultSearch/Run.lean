import ResultSearch.Error
import ResultSearch.Time.Timestamp

/-!
# Test runs

The record of one uploaded run.
-/

namespace ResultSearch

/-- What is known of a run besides its results. -/
structure Run where
  id : RunId
  browserName : String
  browserVersion : String
  osName : String
  osVersion : String
  /-- The first ten characters of `fullRevisionHash`. -/
  revision : String
  fullRevisionHash : String
  resultsUrl : String
  /-- Where the run's report is. -/
  rawResultsUrl : String
  labels : List String
  createdAt : Timestamp
  timeStart : Timestamp
  timeEnd : Timestamp
  deriving DecidableEq

namespace Run

/-- A run of which nothing is known. -/
def blank : Run := ⟨0, "", "", "", "", "", "", "", "", [], default, default, default⟩

instance : Inhabited Run := ⟨blank⟩

/-- Whether the run has no identity. -/
def isNil (r : Run) : Bool := r.id = 0

/-- Whether the run carries a label. -/
def hasLabel (r : Run) (label : String) : Bool := r.labels.contains label

/-- Whether `a` is older than `b`: it started earlier, or at the same time with a smaller id. -/
def older (a b : Run) : Bool :=
  a.timeStart.before b.timeStart || (a.timeStart == b.timeStart && decide (a.id < b.id))

/-- Runs from the oldest to the newest. -/
def oldestFirst (runs : List Run) : List Run := runs.mergeSort fun a b => !b.older a

/-- Runs from the newest to the oldest. -/
def newestFirst (runs : List Run) : List Run := runs.mergeSort fun a b => !a.older b

/-- Runs by descending start, those that started together in the order they had. -/
def latestStartFirst (runs : List Run) : List Run :=
  runs.mergeSort fun a b => !a.timeStart.before b.timeStart

end Run

end ResultSearch
