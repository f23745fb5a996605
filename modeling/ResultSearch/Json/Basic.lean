/-!
# JSON values

The values of JSON texts. Numbers without fraction or exponent that fit 64 bits are integers, all
others are binary floating-point numbers, kept as their bits. An object keeps its members as they
are written, repetitions included, because a record that gives one of its fields twice is an error
while in a mapping the last one counts.

A text can be well formed and still have parts without a value: a string that spells no text, a
number beyond the floating-point range, arrays and objects nested too deeply. Such a part is
`unreadable`. It matters only to a reader who asks for it.

* `settle?`: the value of a document, every object with its keys once and in order; `none` if some
  part is unreadable.
-/

namespace ResultSearch

/-- A part of a document; one that no reader can make a value of is `unreadable`. -/
inductive Json where
  | null
  | bool (value : Bool)
  | int (value : Int)
  | float (bits : UInt64)
  | str (value : String)
  | arr (items : List Json)
  | obj (members : List (String × Json))
  | unreadable

instance : Inhabited Json := ⟨.null⟩

namespace Json

/-- The order of texts by code points, which is also the order of their UTF-8 bytes. -/
def keyBefore (a b : String) : Bool := decide (a < b)

/-- Put a member in its place among members with sorted keys; a key that is there gets the value. -/
def putMember (key : String) (value : Json) : List (String × Json) → List (String × Json)
  | [] => [(key, value)]
  | (k, v) :: rest =>
    if k = key then (key, value) :: rest
    else if keyBefore key k then (key, value) :: (k, v) :: rest
    else (k, v) :: putMember key value rest

/-- Members sorted by key, each key once with its last value. -/
def sortMembers (members : List (String × Json)) : List (String × Json) :=
  members.foldl (fun acc m => putMember m.1 m.2 acc) []

mutual

/-- The value with the members of every object sorted, each key once with its last value; `none` if
some part has no value. -/
def settle? : Json → Option Json
  | .unreadable => none
  | .arr items => (settleItems? items).map .arr
  | .obj members => (settleMembers? members).map fun ms => .obj (sortMembers ms)
  | .null => some .null
  | .bool b => some (.bool b)
  | .int n => some (.int n)
  | .float bits => some (.float bits)
  | .str s => some (.str s)

/-- The values of all items, if each of them has one. -/
def settleItems? : List Json → Option (List Json)
  | [] => some []
  | j :: rest => do return (← settle? j) :: (← settleItems? rest)

/-- The values of all members, if each of them has one. -/
def settleMembers? : List (String × Json) → Option (List (String × Json))
  | [] => some []
  | (k, j) :: rest => do return (k, ← settle? j) :: (← settleMembers? rest)

end

/-- The value of a key; of a repeated key the last value counts. -/
def member? (members : List (String × Json)) (key : String) : Option Json :=
  (members.reverse.find? fun m => m.1 = key).map Prod.snd

/-- The member of an object under a key. -/
def field? (j : Json) (key : String) : Option Json :=
  match j with
  | .obj members => member? members key
  | _ => none

/-- The greatest integer of 64 bits without a sign. -/
def maxUnsigned : Int := 0xFFFFFFFFFFFFFFFF

/-- The greatest integer of 64 bits with a sign. -/
def maxSigned : Int := 0x7FFFFFFFFFFFFFFF

/-- The least integer of 64 bits with a sign. -/
def minSigned : Int := -0x8000000000000000

/-- A text. -/
def string? : Json → Option String
  | .str s => some s
  | _ => none

/-- A truth value. -/
def bool? : Json → Option Bool
  | .bool b => some b
  | _ => none

/-- An integer between two bounds. -/
def intIn? (lo hi : Int) : Json → Option Int
  | .int n => if lo ≤ n ∧ n ≤ hi then some n else none
  | _ => none

/-- A signed integer of 64 bits. -/
def int64? (j : Json) : Option Int := j.intIn? minSigned maxSigned

/-- An unsigned integer of 64 bits. -/
def nat64? (j : Json) : Option Nat := (j.intIn? 0 maxUnsigned).map Int.toNat

/-- A list of values of one kind. -/
def listOf? {α : Type} (read : Json → Option α) : Json → Option (List α)
  | .arr items => items.mapM read
  | _ => none

/-- A value or `null`. -/
def optional? {α : Type} (read : Json → Option α) : Json → Option (Option α)
  | .null => some none
  | j => (read j).map some

end Json

end ResultSearch
