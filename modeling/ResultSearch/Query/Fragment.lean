import ResultSearch.Query.Basic
import ResultSearch.Json.Basic

/-!
# Queries in JSON

A query is written as a fragment: an object that has no tag. Twenty shapes are known, each by the
key it needs, and a fragment means what the first shape says that accepts it; so a fragment with the
keys of several shapes is no error. A fragment that no shape accepts means nothing, whatever the
reason for which the shapes refuse it.

* `parse`: the query that a value spells.
* `shapes`: the shapes in their order.
-/

namespace ResultSearch

namespace Fragment

/-- The value of a key, with what it means as a fragment and as a list of fragments. -/
structure Part where
  value : Json
  query : Except QueryError Query
  queries : Except QueryError (List Query)

/-- The members of a fragment. -/
abbrev Parts := List (String × Part)

/-- The part under a key; of a repeated key the last counts. -/
def part? (parts : Parts) (key : String) : Option Part :=
  (parts.reverse.find? fun p => p.1 = key).map Prod.snd

/-! ## Fields -/

/-- A text that has to be there. -/
def text (parts : Parts) (key : String) : Except QueryError String :=
  match (part? parts key).map Part.value with
  | some (.str s) => .ok s
  | _ => .error .unknownFragment

/-- A text that may be left out; it is empty then. -/
def textOrEmpty (parts : Parts) (key : String) : Except QueryError String :=
  match (part? parts key).map Part.value with
  | none => .ok ""
  | some .null => .ok ""
  | some (.str s) => .ok s
  | some _ => .error .unknownFragment

/-- The product of a status demand, under either of its names; none if both are empty. -/
def product (parts : Parts) : Except QueryError (Option Product) := do
  let first ← textOrEmpty parts "product"
  let spec ← if first = "" then textOrEmpty parts "browser_name" else pure first
  if spec = "" then pure none else some <$> Product.parse spec

/-- The number of runs of a shape that counts. -/
def count (parts : Parts) (key : String) : Except QueryError Nat :=
  match (part? parts key).bind fun p => p.value.nat64? with
  | some n => .ok n
  | none => .error .unknownFragment

/-- The fragment under a key. -/
def nested (parts : Parts) (key : String) : Except QueryError Query :=
  match part? parts key with
  | some p => p.query
  | none => .error .unknownFragment

/-- The fragments in the list under a key, of which there is at least one. -/
def nestedList (parts : Parts) (key : String) : Except QueryError (List Query) :=
  match part? parts key with
  | some p => p.queries
  | none => .error .unknownFragment

/-! ## Shapes -/

/-- A status that is demanded. -/
def statusIs (parts : Parts) : Except QueryError Query := do
  let status ← Status.parse (← text parts "status")
  return .status (← product parts) (.is status)

/-- A status that is ruled out, written under another `not`. -/
def statusIsNot (parts : Parts) : Except QueryError Query := do
  let name ← match (part? parts "status").map Part.value with
    | some (.obj members) =>
      match Json.member? members "not" with
      | some (.str s) => pure s
      | _ => throw .unknownFragment
    | _ => throw .unknownFragment
  let status ← Status.parse name
  return .status (← product parts) (.isNot status)

/-- A number of runs under the key of the comparison, and the query to be met under `where`. -/
def tally (comparison : Comparison) (key : String) (parts : Parts) : Except QueryError Query := do
  let count ← count parts key
  return .tally comparison count (← nested parts "where")

/-- A product that the links are to be about; the empty text stands for none. -/
def triaged (parts : Parts) : Except QueryError Query := do
  let spec ← text parts "triaged"
  if spec = "" then return .triaged none else return .triaged (some (← Product.parse spec))

/-- A shape: the key it needs, and what it makes of the members. -/
abbrev Shape := String × (Parts → Except QueryError Query)

/-- The shapes, from the first one tried to the last; two of them need the same key. -/
def shapes : List Shape := [
  ("pattern", fun ps => .testName <$> text ps "pattern"),
  ("subtest", fun ps => .subtestName <$> text ps "subtest"),
  ("path", fun ps => .testPath <$> text ps "path"),
  ("status", statusIs),
  ("status", statusIsNot),
  ("not", fun ps => .not <$> nested ps "not"),
  ("or", fun ps => .or <$> nestedList ps "or"),
  ("and", fun ps => .and <$> nestedList ps "and"),
  ("exists", fun ps => .someRun <$> nestedList ps "exists"),
  ("all", fun ps => .everyRun <$> nestedList ps "all"),
  ("none", fun ps => .noRun <$> nestedList ps "none"),
  ("sequential", fun ps => .consecutive <$> nestedList ps "sequential"),
  ("count", tally .exactly "count"),
  ("lessThan", tally .lessThan "lessThan"),
  ("moreThan", tally .moreThan "moreThan"),
  ("link", fun ps => .link <$> text ps "link"),
  ("is", fun ps => do return .quality (← Quality.parse (← text ps "is"))),
  ("triaged", triaged),
  ("label", fun ps => .label <$> text ps "label"),
  ("feature", fun ps => .feature <$> text ps "feature")]

/-- The first of the shapes whose key is there and that accepts the members. -/
def choose (parts : Parts) : List Shape → Except QueryError Query
  | [] => .error .unknownFragment
  | shape :: rest =>
    if (part? parts shape.1).isSome then
      match shape.2 parts with
      | .ok q => .ok q
      | .error _ => choose parts rest
    else choose parts rest

/-! ## Values -/

mutual

/-- What a value means as a fragment, and as a list of fragments. -/
def read : Json → Except QueryError Query × Except QueryError (List Query)
  | .obj members => (choose (readMembers members) shapes, .error .unknownFragment)
  | .arr [] => (.error .unknownFragment, .error .unknownFragment)
  | .arr (j :: rest) => (.error .unknownFragment, do return (← (read j).1) :: (← readItems rest))
  | _ => (.error .unknownFragment, .error .unknownFragment)

/-- Every value as a fragment, or the first refusal. -/
def readItems : List Json → Except QueryError (List Query)
  | [] => .ok []
  | j :: rest => do return (← (read j).1) :: (← readItems rest)

/-- Every member with both meanings of its value. -/
def readMembers : List (String × Json) → Parts
  | [] => []
  | (key, j) :: rest => (key, ⟨j, (read j).1, (read j).2⟩) :: readMembers rest

end

/-- The query that a value spells. -/
def parse (j : Json) : Except QueryError Query := (read j).1

end Fragment

end ResultSearch
