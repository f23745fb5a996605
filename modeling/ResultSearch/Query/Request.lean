import ResultSearch.Query.Fragment
import ResultSearch.Json.Parser
import ResultSearch.Json.Record

/-!
# Search requests

A request names the runs to search and gives the query; without a query it asks for all tests.
-/

namespace ResultSearch

/-- A request to search some runs. -/
structure Request where
  runIds : List RunId
  query : Query

namespace Request

/-- A request as it is written, before its query is looked at. -/
def fields? (j : Json) : Option (List RunId × Option Json) := do
  let fields ← j.record? ["run_ids", "query"]
  let ids ← Json.orDefault [] (Json.listOf? Json.int64?) (fields.getD 0 none)
  let query ← Json.orDefault none (Json.optional? Json.settle?) (fields.getD 1 none)
  return (ids, query)

/-- The request that a value spells. A request without runs is refused before its query is read. -/
def ofJson (j : Json) : Except Error Request :=
  match fields? j with
  | none => .error .document
  | some ([], _) => .error (.query .missingRunIds)
  | some (ids, none) => .ok ⟨ids, .const true⟩
  | some (ids, some fragment) =>
    match Fragment.parse fragment with
    | .ok q => .ok ⟨ids, q⟩
    | .error e => .error (.query e)

/-- The request that a text spells. -/
def parse (body : String) : Except Error Request :=
  match Json.parse body with
  | some j => ofJson j
  | none => .error .document

/-- Refuse a request for more than `most` runs. -/
def checkLimit (r : Request) (most : Nat) : Except QueryError Unit :=
  if most < r.runIds.length then .error (.tooManyRuns r.runIds.length most) else .ok ()

/-- The request that a text spells, if it asks for at most `most` runs. -/
def parseWithin (most : Nat) (body : String) : Except Error Request := do
  let r ← parse body
  match r.checkLimit most with
  | .ok () => .ok r
  | .error e => .error (.query e)

end Request

end ResultSearch
