import ResultSearch.Document.Report
import ResultSearch.Query.Basic
import ResultSearch.Row

/-!
# Rows and their options as documents

Options may leave out any field. A row has to give its test, its summaries and its subtests, though it
is written without subtests if there are none.
-/

namespace ResultSearch

namespace DiffFilter

/-- Read which changes count; what is left out is as in the standard filter. -/
def ofJson? (j : Json) : Option DiffFilter := do
  let [added, deleted, changed, unchanged] ←
    j.record? ["added", "deleted", "changed", "unchanged"] | none
  return {
    added := ← Json.orDefault standard.added Json.bool? added
    deleted := ← Json.orDefault standard.deleted Json.bool? deleted
    changed := ← Json.orDefault standard.changed Json.bool? changed
    unchanged := ← Json.orDefault standard.unchanged Json.bool? unchanged }

/-- Write which changes count. -/
def toJson (f : DiffFilter) : Json :=
  .obj [("added", .bool f.added), ("deleted", .bool f.deleted), ("changed", .bool f.changed),
    ("unchanged", .bool f.unchanged)]

end DiffFilter

namespace RowOptions

/-- Read the options of rows; what is left out is not wanted. -/
def ofJson? (j : Json) : Option RowOptions := do
  let [includeSubtests, interop, ignoreHarness, includeDiff, diffFilter] ←
    j.record? ["include_subtests", "interop_format", "ignore_harness_result", "include_diff",
      "diff_filter"] | none
  return {
    includeSubtests := ← Json.orDefault false Json.bool? includeSubtests
    interop := ← Json.orDefault false Json.bool? interop
    ignoreHarness := ← Json.orDefault false Json.bool? ignoreHarness
    includeDiff := ← Json.orDefault false Json.bool? includeDiff
    diffFilter := ← Json.orDefault .standard DiffFilter.ofJson? diffFilter }

/-- Write the options of rows. -/
def toJson (o : RowOptions) : Json :=
  .obj [("include_subtests", .bool o.includeSubtests), ("interop_format", .bool o.interop),
    ("ignore_harness_result", .bool o.ignoreHarness), ("include_diff", .bool o.includeDiff),
    ("diff_filter", o.diffFilter.toJson)]

end RowOptions

/-- An unsigned integer of 32 bits. -/
def Json.word32? (j : Json) : Option UInt32 :=
  (j.intIn? 0 0xFFFFFFFF).map fun n => UInt32.ofNat n.toNat

/-- A signed integer of 32 bits. -/
def Json.int32? (j : Json) : Option Int32 := (j.intIn? (-0x80000000) 0x7FFFFFFF).map Int32.ofInt

namespace RunSummary

/-- Read the summary of a run, of which no field may be left out. -/
def ofJson? (j : Json) : Option RunSummary := do
  let [passes, total] ← j.fullRecord? ["passes", "total"] | none
  return {
    passes := ← Json.required Json.word32? passes
    total := ← Json.required Json.word32? total }

/-- Write the summary of a run. -/
def toJson (s : RunSummary) : Json :=
  .obj [("passes", .int s.passes.toNat), ("total", .int s.total.toNat)]

end RunSummary

namespace RowDiff

/-- Read a difference, a list of three numbers. -/
def ofJson? (j : Json) : Option RowDiff := do
  let [newlyPassing, regressions, totalDelta] ← j.listOf? Json.int32? | none
  return ⟨newlyPassing, regressions, totalDelta⟩

/-- Write a difference as a list of three numbers. -/
def toJson (d : RowDiff) : Json :=
  .arr [.int d.newlyPassing.toInt, .int d.regressions.toInt, .int d.totalDelta.toInt]

end RowDiff

namespace Row

/-- Read a row, which has to list its subtests. -/
def ofJson? (j : Json) : Option Row := do
  let [test, perRun, interop, subtests, diff] ←
    j.fullRecord? ["test", "legacy_status", "interop", "subtests", "diff"] | none
  return {
    test := ← Json.required Json.string? test
    perRun := ← Json.required (Json.listOf? RunSummary.ofJson?) perRun
    interop := ← Json.orDefault none (Json.optional? (Json.listOf? Json.word32?)) interop
    subtests := ← Json.required (Json.listOf? Json.string?) subtests
    diff := ← Json.orDefault none (Json.optional? RowDiff.ofJson?) diff }

/-- Write a row, without its subtests if there are none. -/
def toJson (r : Row) : Json :=
  .obj ([("test", .str r.test), ("legacy_status", .arr (r.perRun.map RunSummary.toJson))] ++
    Json.memberOf "interop" (fun h => .arr (h.map fun n => .int n.toNat)) r.interop ++
    (if r.subtests.isEmpty then [] else [("subtests", .arr (r.subtests.map .str))]) ++
    Json.memberOf "diff" RowDiff.toJson r.diff)

end Row

namespace Quality

/-- Read the name of a quality. -/
def ofJson? : Json → Option Quality := Json.variant? named?

/-- Write a quality by its name. -/
def toJson (q : Quality) : Json := .str q.name

end Quality

end ResultSearch
