import ResultSearch.Json.Record
import ResultSearch.Product
import ResultSearch.Time.Rfc3339

/-!
# Runs as documents

A run is a record whose fields may all be left out. Timestamps are texts, and so are product specs.
-/

namespace ResultSearch

namespace Timestamp

/-- Read a point in time from its text. -/
def ofJson? (j : Json) : Option Timestamp := j.string?.bind parse?

/-- Write a point in time as its text. -/
def toJson (t : Timestamp) : Json := .str t.write

end Timestamp

namespace Product

/-- Read a product from its spec. -/
def ofJson? (j : Json) : Option Product := j.string?.bind fun s => ofChars? s.toList

/-- Write a product as its spec. -/
def toJson (p : Product) : Json := .str p.text

end Product

namespace Run

/-- The names of the fields in their order. -/
def fieldNames : List String :=
  ["id", "browser_name", "browser_version", "os_name", "os_version", "revision",
    "full_revision_hash", "results_url", "raw_results_url", "labels", "created_at", "time_start",
    "time_end"]

/-- Read a run; what is left out is as in the blank run. -/
def ofJson? (j : Json) : Option Run := do
  let [id, browserName, browserVersion, osName, osVersion, revision, fullRevisionHash, resultsUrl,
    rawResultsUrl, labels, createdAt, timeStart, timeEnd] ← j.record? fieldNames | none
  return {
    id := ← Json.orDefault 0 Json.int64? id
    browserName := ← Json.orDefault "" Json.string? browserName
    browserVersion := ← Json.orDefault "" Json.string? browserVersion
    osName := ← Json.orDefault "" Json.string? osName
    osVersion := ← Json.orDefault "" Json.string? osVersion
    revision := ← Json.orDefault "" Json.string? revision
    fullRevisionHash := ← Json.orDefault "" Json.string? fullRevisionHash
    resultsUrl := ← Json.orDefault "" Json.string? resultsUrl
    rawResultsUrl := ← Json.orDefault "" Json.string? rawResultsUrl
    labels := ← Json.orDefault [] (Json.listOf? Json.string?) labels
    createdAt := ← Json.orDefault default Timestamp.ofJson? createdAt
    timeStart := ← Json.orDefault default Timestamp.ofJson? timeStart
    timeEnd := ← Json.orDefault default Timestamp.ofJson? timeEnd }

/-- Write a run with all its fields. -/
def toJson (r : Run) : Json :=
  .obj [
    ("id", .int r.id),
    ("browser_name", .str r.browserName),
    ("browser_version", .str r.browserVersion),
    ("os_name", .str r.osName),
    ("os_version", .str r.osVersion),
    ("revision", .str r.revision),
    ("full_revision_hash", .str r.fullRevisionHash),
    ("results_url", .str r.resultsUrl),
    ("raw_results_url", .str r.rawResultsUrl),
    ("labels", .arr (r.labels.map .str)),
    ("created_at", r.createdAt.toJson),
    ("time_start", r.timeStart.toJson),
    ("time_end", r.timeEnd.toJson)]

/-- Read a listing of runs. -/
def listOfJson? : Json → Option (List Run) := Json.listOf? ofJson?

/-- Write a listing of runs. -/
def listToJson (runs : List Run) : Json := .arr (runs.map toJson)

end Run

end ResultSearch
