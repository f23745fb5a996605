import ResultSearch.Status
import ResultSearch.Json.Basic
import ResultSearch.Error

/-!
# Reports

What a run uploads: its test results in order, each with the results of its subtests.
-/

namespace ResultSearch

/-- The result of one subtest. -/
structure SubtestResult where
  name : String
  status : Status
  message : Option String
  deriving DecidableEq

/-- The result of one test. -/
structure TestResult where
  test : String
  status : Status
  message : Option String
  subtests : List SubtestResult
  deriving DecidableEq

/-- The report of one run; `info` is kept as it came. -/
structure Report where
  results : List TestResult
  info : Json

instance : Inhabited Report := ⟨⟨[], .null⟩⟩

/-- What loading the report of a run comes to. -/
abbrev Loaded := Except Error Report

namespace Report

/-- The failure to load the report of a run that nobody registered. -/
def notRegistered (id : RunId) : Error := .load id "no report registered"

/-- The failure to load the report of a run that names no place for it. -/
def noPlace (id : RunId) : Error := .load id "run has no raw_results_url"

end Report

end ResultSearch
