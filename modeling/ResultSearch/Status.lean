import ResultSearch.Text.LowerCase

/-!
# Test statuses

The outcome of a test or subtest in a run. Codes and names are part of the data format.
-/

namespace ResultSearch

/-- The outcome of one test or subtest in one run; `unknown` when the run has none. -/
inductive Status where
  | unknown | pass | ok | error | timeout | notRun | fail | crash | skip | assert
  deriving DecidableEq

namespace Status

instance : Inhabited Status := ⟨unknown⟩

/-- All statuses in the order of their codes. -/
def all : List Status := [unknown, pass, ok, error, timeout, notRun, fail, crash, skip, assert]

/-- The name of a status in reports. -/
def name : Status → String
  | unknown => "UNKNOWN"
  | pass => "PASS"
  | ok => "OK"
  | error => "ERROR"
  | timeout => "TIMEOUT"
  | notRun => "NOTRUN"
  | fail => "FAIL"
  | crash => "CRASH"
  | skip => "SKIP"
  | assert => "ASSERT"

/-- The code of a status, its place among all of them. -/
def code : Status → Nat
  | unknown => 0
  | pass => 1
  | ok => 2
  | error => 3
  | timeout => 4
  | notRun => 5
  | fail => 6
  | crash => 7
  | skip => 8
  | assert => 9

/-- The status with a code; `unknown` for a code that no status has. -/
def ofCode (code : Nat) : Status := all.getD code unknown

/-- The status with exactly this name. -/
def named? (name : String) : Option Status := all.find? fun s => s.name = name

/-- The status that a report names; `unknown` for a name that no status has. -/
def ofReport (name : String) : Status := (named? name).getD unknown

/-- The status that a query names, in capitals or not. -/
def ofQuery? (name : String) : Option Status := named? (Text.upperAscii name)

/-- A test passes, or a harness completes. -/
def passes (s : Status) : Bool := s = pass || s = ok

theorem ofReport_name (s : Status) : ofReport s.name = s := by cases s <;> decide +kernel

end Status

end ResultSearch
