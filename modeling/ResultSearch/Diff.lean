import ResultSearch.Error
import ResultSearch.Status

/-!
# Differences between two runs

How the outcomes of a test changed from one run to another, counted over its subtests, as far as a
filter selects the changes.
-/

namespace ResultSearch

/-- Which changes count. -/
structure DiffFilter where
  /-- The result is in the second run only. -/
  added : Bool
  /-- The result is in the first run only. -/
  deleted : Bool
  /-- The result is in both, and passes in one of them. -/
  changed : Bool
  /-- Differences that come to nothing are kept. -/
  unchanged : Bool
  deriving DecidableEq

namespace DiffFilter

/-- All changes, and no difference that comes to nothing. -/
def standard : DiffFilter := ⟨true, true, true, false⟩

/-- No change counts. -/
def nothing : DiffFilter := ⟨false, false, false, false⟩

/-- The filter with one more letter. -/
def select (f : DiffFilter) (letter : Char) : Except QueryError DiffFilter :=
  if letter = 'A' then .ok { f with added := true }
  else if letter = 'D' then .ok { f with deleted := true }
  else if letter = 'C' then .ok { f with changed := true }
  else if letter = 'U' then .ok { f with unchanged := true }
  else .error (.invalidDiffFilter letter)

/-- The filter that selects the letters `A`, `D`, `C`, `U` of a text; the empty text stands for the
standard filter. -/
def parse (letters : String) : Except QueryError DiffFilter :=
  if letters = "" then .ok standard else letters.toList.foldlM select nothing

end DiffFilter

/-- The changes of a test from one run to another. -/
structure RowDiff where
  newlyPassing : Int32
  regressions : Int32
  /-- By how much the number of results changed through deletion. -/
  totalDelta : Int32
  deriving DecidableEq

namespace RowDiff

/-- A difference before anything is counted. -/
def zero : RowDiff := ⟨0, 0, 0⟩

/-- Whether the difference comes to nothing. -/
def isEmpty (d : RowDiff) : Bool := d = zero

/-- Count a result that went from one status to another. -/
def append (d : RowDiff) (before after : Status) (filter : DiffFilter) : RowDiff :=
  if before = .unknown then
    if after = .unknown ∨ filter.added = false then d
    else if after.passes then { d with newlyPassing := d.newlyPassing + 1 }
    else { d with regressions := d.regressions + 1 }
  else if after = .unknown then
    if filter.deleted then { d with totalDelta := d.totalDelta - 1 } else d
  else if before.passes = after.passes ∨ filter.changed = false then d
  else if before.passes then { d with regressions := d.regressions + 1 }
  else { d with newlyPassing := d.newlyPassing + 1 }

end RowDiff

end ResultSearch
