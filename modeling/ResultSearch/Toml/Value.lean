/-!
# TOML values

The values of a TOML document. A date or time is known to be one, but which one it is plays no part.

* `record?`: the fields of a record, as a reader of settings wants them.
-/

namespace ResultSearch

/-- A value of a document. -/
inductive Toml where
  | str (value : String)
  | int (value : Int)
  | float (bits : UInt64)
  | bool (value : Bool)
  | moment
  | arr (items : List Toml)
  | table (entries : List (String × Toml))

namespace Toml

instance : Inhabited Toml := ⟨.table []⟩

/-- The value of a key. -/
def field? (entries : List (String × Toml)) (key : String) : Option Toml :=
  (entries.find? fun e => e.1 = key).map Prod.snd

/-- The values given for the fields of a record: by name in a table, by place in an array. A date or
time is a record in its own right and gives none of them. -/
def record? (names : List String) : Toml → Option (List (Option Toml))
  | .table entries => some (names.map (field? entries))
  | .arr items => some ((List.range names.length).map fun i => items[i]?)
  | .moment => some (names.map fun _ => none)
  | _ => none

/-- Read a field that may be left out. -/
def orDefault {α : Type} (default : α) (read : Toml → Option α) : Option Toml → Option α
  | none => some default
  | some v => read v

/-- A text. -/
def string? : Toml → Option String
  | .str s => some s
  | _ => none

/-- An integer that is not negative. -/
def nat? : Toml → Option Nat
  | .int n => if 0 ≤ n then some n.toNat else none
  | _ => none

/-- A floating-point number; an integer will do. -/
def float? : Toml → Option Float
  | .float bits => some (Float.ofBits bits)
  | .int n => some (Float.ofInt n)
  | _ => none

/-- Whether a value is an array or a table with nothing in it. -/
def isHollow : Toml → Bool
  | .arr items => items.isEmpty
  | .table entries => entries.isEmpty
  | _ => false

/-- One of a set of names: the name itself, or a table with the name as its only key and nothing
under it. -/
def variant? {α : Type} (named : String → Option α) : Toml → Option α
  | .str s => named s
  | .table [(s, v)] => if v.isHollow then named s else none
  | _ => none

end Toml

end ResultSearch
