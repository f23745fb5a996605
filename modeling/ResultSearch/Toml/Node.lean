import ResultSearch.Toml.Value

/-!
# TOML tables in the making

A document names its tables in any order, so a table grows while the document is read. Each table
remembers how it came about: only through the name of a table inside it, through a dotted key, or by a
heading of its own. No table is defined twice, and dotted keys do not reach into a table that has a
heading.

* `putKey`: a key and its value.
* `openTable`, `openElement`: a heading of a table, or of an element of an array of tables.
-/

namespace ResultSearch

/-- How a table came about. -/
inductive TableOrigin where
  /-- A heading names a table inside it. -/
  | implied
  /-- A dotted key leads through it. -/
  | dotted
  /-- It has a heading. -/
  | headed
  deriving DecidableEq

/-- A value of a document that is being read. -/
inductive TomlNode where
  | value (value : Toml)
  | table (origin : TableOrigin) (entries : List (String × TomlNode))
  /-- An array of tables, the last one first. -/
  | tables (elements : List (List (String × TomlNode)))

namespace TomlNode

/-- The entries of a table. -/
abbrev Entries := List (String × TomlNode)

/-- The node under a key. -/
def find? (entries : Entries) (key : String) : Option TomlNode :=
  (entries.find? fun e => e.1 = key).map Prod.snd

/-- Give a key a value; a new key comes last. -/
def set (entries : Entries) (key : String) (node : TomlNode) : Entries :=
  if (find? entries key).isSome then
    entries.map fun e => if e.1 = key then (key, node) else e
  else entries ++ [(key, node)]

/-- Put a value under a key in a table that a dotted key with the parts `path` leads to from a table
of the given origin. -/
def putDotted (origin : TableOrigin) (entries : Entries) (path : List String) (value : Toml) :
    Option Entries :=
  match path with
  | [] => none
  | [key] =>
    if (find? entries key).isSome ∨ origin ≠ .dotted then none
    else some (set entries key (.value value))
  | key :: rest =>
    match find? entries key with
    | none => do return set entries key (.table .dotted (← putDotted .dotted [] rest value))
    | some (.table .headed _) => none
    | some (.table origin inner) => do
      return set entries key (.table origin (← putDotted origin inner rest value))
    | some (.tables (last :: before)) => do
      return set entries key (.tables ((← putDotted .headed last rest value) :: before))
    | some _ => none

/-- Put a value under a key in the table that is open. -/
def putKey (entries : Entries) (path : List String) (value : Toml) : Option Entries :=
  match path with
  | [key] => if (find? entries key).isSome then none else some (set entries key (.value value))
  | path => putDotted .headed entries path value

/-- Change the table that a heading's path leads to; tables on the way come about if need be, and the
way through an array of tables goes through its last element. -/
def atPath (entries : Entries) (path : List String) (change : Entries → Option Entries) :
    Option Entries :=
  match path with
  | [] => change entries
  | key :: rest =>
    match find? entries key with
    | none => do return set entries key (.table .implied (← atPath [] rest change))
    | some (.table origin inner) => do
      return set entries key (.table origin (← atPath inner rest change))
    | some (.tables (last :: before)) => do
      return set entries key (.tables ((← atPath last rest change) :: before))
    | some (.tables []) => none
    | some (.value _) => none

/-- Open the table of a heading, which must not have been defined. -/
def openTable (entries : Entries) (path : List String) : Option Entries :=
  match path.getLast? with
  | none => none
  | some key =>
    atPath entries path.dropLast fun parent =>
      match find? parent key with
      | none => some (set parent key (.table .headed []))
      | some (.table .implied inner) => some (set parent key (.table .headed inner))
      | some _ => none

/-- Open a new element of the array of tables of a heading. -/
def openElement (entries : Entries) (path : List String) : Option Entries :=
  match path.getLast? with
  | none => none
  | some key =>
    atPath entries path.dropLast fun parent =>
      match find? parent key with
      | none => some (set parent key (.tables [[]]))
      | some (.tables elements) => some (set parent key (.tables ([] :: elements)))
      | some _ => none

mutual

/-- The value of a finished node. -/
def finish : TomlNode → Toml
  | .value v => v
  | .table _ entries => .table (finishEntries entries)
  | .tables elements => .arr (finishElements elements).reverse

/-- The values of finished entries. -/
def finishEntries : List (String × TomlNode) → List (String × Toml)
  | [] => []
  | (key, node) :: rest => (key, finish node) :: finishEntries rest

/-- The values of finished elements, in the order in which they are kept. -/
def finishElements : List (List (String × TomlNode)) → List Toml
  | [] => []
  | entries :: rest => .table (finishEntries entries) :: finishElements rest

end

end TomlNode

end ResultSearch
