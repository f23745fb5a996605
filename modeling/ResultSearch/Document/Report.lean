import ResultSearch.Json.Record
import ResultSearch.Report

/-!
# Reports as documents

A report is a record of results and of anything the producer tells of the run. All fields may be left
out, and a status that is not known counts as none.
-/

namespace ResultSearch

/-- A member that is written only if it has a value. -/
def Json.memberOf {α : Type} (name : String) (write : α → Json) : Option α → List (String × Json)
  | none => []
  | some a => [(name, write a)]

namespace Status

/-- Read the name of a status, `unknown` if no status has that name. -/
def ofJson? (j : Json) : Option Status := j.string?.map ofReport

/-- Write a status by its name. -/
def toJson (s : Status) : Json := .str s.name

end Status

namespace SubtestResult

/-- Read the result of a subtest. -/
def ofJson? (j : Json) : Option SubtestResult := do
  let [name, status, message] ← j.record? ["name", "status", "message"] | none
  return {
    name := ← Json.orDefault "" Json.string? name
    status := ← Json.orDefault .unknown Status.ofJson? status
    message := ← Json.orDefault none (Json.optional? Json.string?) message }

/-- Write the result of a subtest. -/
def toJson (s : SubtestResult) : Json :=
  .obj ([("name", .str s.name), ("status", s.status.toJson)] ++
    Json.memberOf "message" .str s.message)

end SubtestResult

namespace TestResult

/-- Read the result of a test with its subtests. -/
def ofJson? (j : Json) : Option TestResult := do
  let [test, status, message, subtests] ← j.record? ["test", "status", "message", "subtests"]
    | none
  return {
    test := ← Json.orDefault "" Json.string? test
    status := ← Json.orDefault .unknown Status.ofJson? status
    message := ← Json.orDefault none (Json.optional? Json.string?) message
    subtests := ← Json.orDefault [] (Json.listOf? SubtestResult.ofJson?) subtests }

/-- Write the result of a test with its subtests. -/
def toJson (t : TestResult) : Json :=
  .obj ([("test", .str t.test), ("status", t.status.toJson)] ++
    Json.memberOf "message" .str t.message ++
    [("subtests", .arr (t.subtests.map SubtestResult.toJson))])

end TestResult

namespace Report

/-- Read a report. What it tells of the run is kept as it is. -/
def ofJson? (j : Json) : Option Report := do
  let [results, info] ← j.record? ["results", "run_info"] | none
  return {
    results := ← Json.orDefault [] (Json.listOf? TestResult.ofJson?) results
    info := ← Json.orDefault .null Json.settle? info }

/-- Write a report. -/
def toJson (r : Report) : Json :=
  .obj [("results", .arr (r.results.map TestResult.toJson)), ("run_info", r.info)]

end Report

end ResultSearch
