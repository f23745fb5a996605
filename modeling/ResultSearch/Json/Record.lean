import ResultSearch.Json.Basic

/-!
# Records in JSON documents

A record is written as an object with its fields as members, or as an array of its fields in their
order. Unknown members are ignored and never looked at; a field given twice is an error, and so are
more elements than there are fields.

* `record?`: the values given for the fields, `none` for the fields left out.
* `fullRecord?`: the same, but an array has to give every field.
-/

namespace ResultSearch.Json

/-- The one value given for a field, if any; fails if there are two. -/
def single? (members : List (String × Json)) (name : String) : Option (Option Json) :=
  match members.filter fun m => m.1 = name with
  | [] => some none
  | [m] => some (some m.2)
  | _ => none

/-- The values given for the fields of a record. -/
def record? (names : List String) : Json → Option (List (Option Json))
  | .obj members => names.mapM (single? members)
  | .arr items =>
    if items.length ≤ names.length then
      some (items.map some ++ List.replicate (names.length - items.length) none)
    else none
  | _ => none

/-- Like `record?`; an array must be complete. -/
def fullRecord? (names : List String) : Json → Option (List (Option Json))
  | .arr items => if items.length = names.length then some (items.map some) else none
  | j => record? names j

/-- Read a field that may be left out. -/
def orDefault {α : Type} (default : α) (read : Json → Option α) : Option Json → Option α
  | none => some default
  | some j => read j

/-- Read a field that has to be given. -/
def required {α : Type} (read : Json → Option α) : Option Json → Option α
  | none => none
  | some j => read j

/-- Read a mapping: the keys in order, each with its last value. All values are read. -/
def mapping? {α : Type} (read : Json → Option α) : Json → Option (List (String × α))
  | .obj members => members.mapM fun m => (read m.2).map fun v => (m.1, v)
  | _ => none

/-- Read one of a set of names: the name itself, or an object with the name as its only key and
`null` under it. -/
def variant? {α : Type} (named : String → Option α) : Json → Option α
  | .str s => named s
  | .obj [(s, .null)] => named s
  | _ => none

end ResultSearch.Json
