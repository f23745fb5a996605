import ResultSearch.Product
import ResultSearch.Status

/-!
# Queries

What a user asks of the results: a tree whose leaves speak of test names, of statuses in the runs of
a product, and of metadata. A query says nothing of particular runs; binding it to a list of runs
gives a bound query.
-/

namespace ResultSearch

/-- What `is:` may ask for. -/
inductive Quality where
  /-- The results differ between the runs. -/
  | different
  /-- The test is a tentative one. -/
  | tentative
  /-- The test is an optional one. -/
  | optional
  deriving DecidableEq

namespace Quality

/-- The name of a quality. -/
def name : Quality → String
  | different => "different"
  | tentative => "tentative"
  | optional => "optional"

/-- The quality with exactly this name. -/
def named? (name : String) : Option Quality :=
  [different, tentative, optional].find? fun q => q.name = name

/-- The quality that a query names, or the error that there is none. -/
def parse (name : String) : Except QueryError Quality :=
  match named? name with
  | some q => .ok q
  | none => .error (.unknownQuality name)

end Quality

namespace Status

/-- The status that a query names, or the error that there is none. -/
def parse (name : String) : Except QueryError Status :=
  match ofQuery? name with
  | some s => .ok s
  | none => .error (.invalidStatus name)

end Status

/-- A demand on a status. -/
inductive StatusTest where
  | is (status : Status)
  | isNot (status : Status)
  deriving DecidableEq

namespace StatusTest

/-- Whether a status is as demanded. -/
def accepts : StatusTest → Status → Bool
  | is s, t => t = s
  | isNot s, t => t ≠ s

end StatusTest

/-- A demand on a number. -/
inductive Comparison where
  | exactly
  | moreThan
  | lessThan
  deriving DecidableEq

namespace Comparison

/-- Whether `n` stands in this relation to `count`. -/
def accepts (c : Comparison) (count n : Nat) : Bool :=
  match c with
  | exactly => n = count
  | moreThan => count < n
  | lessThan => n < count

end Comparison

/-- A query over runs that are not chosen yet. -/
inductive Query where
  | const (value : Bool)
  /-- The test's name contains the pattern. -/
  | testName (pattern : String)
  /-- The subtest's name contains the pattern. -/
  | subtestName (pattern : String)
  /-- The test's name begins with the path. -/
  | testPath (path : String)
  /-- Some run of the product, or some run at all, meets the demand. -/
  | status (product : Option Product) (test : StatusTest)
  | not (arg : Query)
  | or (args : List Query)
  | and (args : List Query)
  /-- Each argument holds in some single run. -/
  | someRun (args : List Query)
  /-- Each argument holds in every single run. -/
  | everyRun (args : List Query)
  /-- No argument holds in any run. -/
  | noRun (args : List Query)
  /-- The arguments hold one after the other in consecutive runs. -/
  | consecutive (args : List Query)
  /-- The number of runs in which the argument holds compares as demanded. -/
  | tally (comparison : Comparison) (count : Nat) (arg : Query)
  /-- The test has a link that contains the pattern. -/
  | link (pattern : String)
  /-- The test has a link about the product, or one about no product. -/
  | triaged (product : Option Product)
  | label (label : String)
  | feature (feature : String)
  | quality (quality : Quality)

instance : Inhabited Query := ⟨.const true⟩

end ResultSearch
