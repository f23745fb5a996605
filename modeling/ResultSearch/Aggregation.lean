import ResultSearch.Registry
import ResultSearch.Results
import ResultSearch.Row

/-!
# Gathering matches into rows

The matches of a search are gathered by test, one row for each. A test is known by its hash, and a
row takes the name that comes with its first match.
-/

namespace ResultSearch

/-- The rows that some matches come to, under the hashes of their tests. -/
structure Aggregation where
  rows : Table UInt64 Row

namespace Aggregation

/-- No rows, for no matches. -/
def empty : Aggregation := ⟨Table.empty⟩

/-- A row without matches. -/
def blankRow (test : String) (columns : Nat) : Row :=
  ⟨test, List.replicate columns .zero, none, [], none⟩

/-- Whether a status counts in the summary of its run. -/
def counts (options : RowOptions) (f : Fingerprint) (s : Status) : Bool :=
  s ≠ .unknown && !(options.ignoreHarness && !f.isSubtest && s = .ok)

/-- Count a status in the summary of its run. -/
def countStatus (options : RowOptions) (f : Fingerprint) (summary : RunSummary) (s : Status) :
    RunSummary :=
  if counts options f s then summary.count s.passes else summary

/-- In how many runs a match passes, of those where it counts. -/
def passing (options : RowOptions) (f : Fingerprint) (statuses : List Status) : Nat :=
  statuses.countP fun s => counts options f s && s.passes

/-- One more at a place of a histogram. -/
def bump (histogram : List UInt32) (place : Nat) : List UInt32 := histogram.modify place (· + 1)

/-- A row with one more match. -/
def addToRow (columns : List RunResults) (options : RowOptions) (f : Fingerprint) (name : TestName)
    (row : Row) : Row :=
  let statuses := columns.map fun results => results.get f
  { row with
    perRun := List.zipWith (countStatus options f) row.perRun statuses
    interop :=
      if options.interop then
        some (bump (row.interop.getD (List.replicate (columns.length + 1) 0))
          (passing options f statuses))
      else row.interop
    subtests :=
      match name.subtest with
      | some subtest => if options.includeSubtests then row.subtests ++ [subtest] else row.subtests
      | none => row.subtests
    diff :=
      match statuses with
      | [before, after] =>
        if options.includeDiff then
          some ((row.diff.getD .zero).append before after options.diffFilter)
        else row.diff
      | _ => row.diff }

/-- Gather one more match. -/
def add (columns : List RunResults) (options : RowOptions) (a : Aggregation) (f : Fingerprint)
    (name : TestName) : Aggregation :=
  let row := (a.rows.get? f.test).getD (blankRow name.test columns.length)
  ⟨a.rows.set f.test (addToRow columns options f name row)⟩

/-- A row as it is answered: its subtests in order, and no difference that comes to nothing unless
such are wanted. -/
def finishRow (options : RowOptions) (row : Row) : Row :=
  { row with
    subtests := row.subtests.mergeSort fun a b => decide (a ≤ b)
    diff := row.diff.filter fun d => options.diffFilter.unchanged || !d.isEmpty }

/-- The rows, in no particular order. -/
def finish (options : RowOptions) (a : Aggregation) : List Row :=
  a.rows.values.map (finishRow options)

end Aggregation

end ResultSearch
