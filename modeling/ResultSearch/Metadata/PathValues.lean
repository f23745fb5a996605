import ResultSearch.Table
import ResultSearch.Text.LowerCase
import ResultSearch.Text.Split
import ResultSearch.Json.Basic

/-!
# Values attached to paths

Paths name tests without regard to case. A path that ends in a star covers every test that begins
with the rest; any other path covers the one test it names. The values of a test are those of its
own path first, then those of the stars that cover it, from the shortest to the longest.
-/

namespace ResultSearch

/-- Values by path: those of whole paths, and those of paths that end in a star, without the star
and in order. All paths are in small letters. -/
structure PathValues where
  exact : Table String (List String)
  stars : Table String (List String)
  deriving DecidableEq

namespace PathValues

/-- No path has a value. -/
def empty : PathValues := ⟨Table.empty, Table.empty⟩

instance : Inhabited PathValues := ⟨empty⟩

/-- The path without its star, if it ends in one. -/
def unstar? (path : String) : Option String :=
  (Text.dropLast? '*' path.toList).map String.ofList

/-- Attach a value to a path, after the values it has. -/
def insert (p : PathValues) (path value : String) : PathValues :=
  let path := Text.lower path
  match unstar? path with
  | some stem =>
    { p with stars := p.stars.setSorted Json.keyBefore stem ((p.stars.get? stem).getD [] ++ [value]) }
  | none => { p with exact := p.exact.set path ((p.exact.get? path).getD [] ++ [value]) }

/-- The values of a list of paths and values, attached one after the other. -/
def ofList (l : List (String × String)) : PathValues := l.foldl (fun p e => p.insert e.1 e.2) empty

/-- Every value attached to a test. -/
def valuesFor (p : PathValues) (test : String) : List String :=
  let test := Text.lower test
  (p.exact.get? test).getD [] ++
    (p.stars.entries.filter fun e => Text.startsWith test e.1).flatMap Prod.snd

/-- Whether some value attached to a test is as demanded. -/
def anyValue (p : PathValues) (test : String) (q : String → Bool) : Bool := (p.valuesFor test).any q

/-- Whether no path has a value. -/
def isEmpty (p : PathValues) : Bool := p.exact.isEmpty && p.stars.isEmpty

/-- The number of different paths. -/
def size (p : PathValues) : Nat := p.exact.size + p.stars.size

end PathValues

end ResultSearch
