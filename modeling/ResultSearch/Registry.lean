import ResultSearch.Fingerprint
import ResultSearch.Table

/-!
# Names of fingerprints

A registry resolves fingerprints to names. It only grows: the first name of a fingerprint stays,
and a fingerprint stays after every run that brought it has gone. A subtest takes the name of its
test from the test's own entry if there is one.

* `insert_of_contains`: a known fingerprint changes nothing.
-/

namespace ResultSearch

/-- The names behind a fingerprint. -/
structure TestName where
  test : String
  subtest : Option String
  deriving DecidableEq

instance : Inhabited TestName := ⟨⟨"", none⟩⟩

/-- The names of the fingerprints of one shard. -/
structure Registry where
  names : Table Fingerprint TestName
  deriving DecidableEq

namespace Registry

/-- No fingerprint is known. -/
def empty : Registry := ⟨Table.empty⟩

instance : Inhabited Registry := ⟨empty⟩

/-- The names of a fingerprint, if it is known. -/
def get? (r : Registry) (f : Fingerprint) : Option TestName := r.names.get? f

/-- How many fingerprints are known. -/
def size (r : Registry) : Nat := r.names.size

/-- Whether no fingerprint is known. -/
def isEmpty (r : Registry) : Bool := r.names.isEmpty

/-- Record the names of a fingerprint that is not known yet. -/
def insert (r : Registry) (f : Fingerprint) (test : String) (subtest : Option String) : Registry :=
  if r.names.contains f then r
  else
    let shared := match r.names.get? f.testLevel with
      | some parent => parent.test
      | none => test
    ⟨r.names.set f ⟨shared, Fingerprint.subtestName? subtest⟩⟩

/-- The names of a fingerprint, or the error that it is not known. -/
def resolve (r : Registry) (f : Fingerprint) : Except Error TestName :=
  match r.get? f with
  | some name => .ok name
  | none => .error (.testNotFound f.text)

/-- All fingerprints with their names. -/
def entries (r : Registry) : List (Fingerprint × TestName) := r.names.entries

theorem insert_of_contains {r : Registry} {f : Fingerprint} {test : String}
    {subtest : Option String} (h : r.names.contains f = true) : r.insert f test subtest = r := by
  simp [insert, h]

end Registry

end ResultSearch
