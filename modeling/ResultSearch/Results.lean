import ResultSearch.Fingerprint
import ResultSearch.Status
import ResultSearch.Table

/-!
# Results of runs

The statuses of one run by fingerprint, and the runs that a store holds.
-/

namespace ResultSearch

/-- The statuses of one run; a fingerprint that is not listed is `unknown`. -/
structure RunResults where
  statuses : Table Fingerprint Status
  deriving DecidableEq

namespace RunResults

/-- No fingerprint has a status. -/
def empty : RunResults := ⟨Table.empty⟩

instance : Inhabited RunResults := ⟨empty⟩

/-- Give a fingerprint its status in the run. -/
def insert (r : RunResults) (f : Fingerprint) (s : Status) : RunResults := ⟨r.statuses.set f s⟩

/-- The status of a fingerprint in the run. -/
def get (r : RunResults) (f : Fingerprint) : Status := (r.statuses.get? f).getD .unknown

/-- How many fingerprints have a status. -/
def size (r : RunResults) : Nat := r.statuses.size

/-- Whether no fingerprint has a status. -/
def isEmpty (r : RunResults) : Bool := r.statuses.isEmpty

/-- The results of a list of pairs; the last status of a fingerprint counts. -/
def ofList (l : List (Fingerprint × Status)) : RunResults := ⟨Table.ofList l⟩

end RunResults

/-- The results of the runs that are held, each run once. -/
structure ResultStore where
  runs : Table RunId RunResults
  deriving DecidableEq

namespace ResultStore

/-- No run is held. -/
def empty : ResultStore := ⟨Table.empty⟩

instance : Inhabited ResultStore := ⟨empty⟩

/-- The results of a run, if it is held. -/
def forRun (s : ResultStore) (id : RunId) : Option RunResults := s.runs.get? id

/-- Whether a run is held. -/
def contains (s : ResultStore) (id : RunId) : Bool := s.runs.contains id

/-- How many runs are held. -/
def size (s : ResultStore) : Nat := s.runs.size

/-- Whether no run is held. -/
def isEmpty (s : ResultStore) : Bool := s.runs.isEmpty

/-- Hold the results of a run that is not held yet. -/
def add (s : ResultStore) (id : RunId) (results : RunResults) : Except Error ResultStore :=
  if s.contains id then .error (.runExists id) else .ok ⟨s.runs.set id results⟩

/-- Let a run go, giving back its results. -/
def remove (s : ResultStore) (id : RunId) : Except Error (RunResults × ResultStore) :=
  match s.forRun id with
  | some results => .ok (results, ⟨s.runs.erase id⟩)
  | none => .error (.unknownRun id)

end ResultStore

end ResultSearch
