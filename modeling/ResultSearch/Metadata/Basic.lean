import ResultSearch.Metadata.PathValues
import ResultSearch.Product

/-!
# Test metadata

What is known of tests beyond their results: links to bug reports, labels, and web features. Links
and labels come in a table by path; a link may be about one product only. Web features are known by
the test's exact name.
-/

namespace ResultSearch

/-- One entry of the metadata of a path. -/
structure MetadataLink where
  /-- The product it is about; `none` for the test in general. -/
  product : Option Product
  url : Option String
  label : Option String
  subtest : Option String
  deriving DecidableEq

/-- The metadata of paths, in the order of the paths. -/
abbrev MetadataTable := Table String (List MetadataLink)

/-- The web features of tests; the features of a test are a set. -/
abbrev WebFeatures := Table String (List String)

namespace MetadataLink

/-- The url, if there is one that is not empty. -/
def link? (l : MetadataLink) : Option String := l.url.filter (· ≠ "")

/-- The label, if there is one that is not empty. -/
def mark? (l : MetadataLink) : Option String := l.label.filter (· ≠ "")

end MetadataLink

/-- Which entries count: those about tests in general, those about the product of some run, or
both. -/
inductive LinkScope where
  | testLevel
  | runs (runs : List Run)
  | testLevelAndRuns (runs : List Run)

namespace LinkScope

/-- Whether an entry counts. -/
def admits : LinkScope → MetadataLink → Bool
  | testLevel, l => l.product.isNone
  | runs rs, l => l.product.any fun p => rs.any p.matchesRun
  | testLevelAndRuns rs, l =>
    match l.product with
    | none => true
    | some p => rs.any p.matchesRun

end LinkScope

namespace Metadata

/-- Attach to every path what its entries yield. -/
def collect (table : MetadataTable) (yields : MetadataLink → Option String) : PathValues :=
  PathValues.ofList <| table.entries.flatMap fun e => e.2.filterMap fun l => (yields l).map fun v =>
    (e.1, v)

/-- The links of the entries that count. -/
def linkValues (table : MetadataTable) (scope : LinkScope) : PathValues :=
  collect table fun l => if scope.admits l then l.link? else none

/-- The labels of the entries about tests in general. -/
def labelValues (table : MetadataTable) : PathValues :=
  collect table fun l => if LinkScope.testLevel.admits l then l.mark? else none

end Metadata

namespace WebFeatures

/-- Whether a test has a feature; both names count as they are. -/
def has (data : WebFeatures) (test feature : String) : Bool :=
  ((Table.get? data test).getD []).contains feature

/-- Add a feature to a test. -/
def add (data : WebFeatures) (test feature : String) : WebFeatures :=
  let features := (Table.get? data test).getD []
  if features.contains feature then data else Table.set data test (features ++ [feature])

/-- The features of tests from the tests of features. -/
def invert (manifest : List (String × List String)) : WebFeatures :=
  manifest.foldl (fun data m => m.2.foldl (fun data test => add data test m.1) data) Table.empty

end WebFeatures

end ResultSearch
