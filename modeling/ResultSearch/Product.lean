import ResultSearch.Run
import ResultSearch.Text.LowerCase
import ResultSearch.Text.Split

/-!
# Product specs

A product spec selects runs by browser and, optionally, version, labels and revision:

    name[-version[-os[-osversion]]][label,...][@revision]

The browser's name is one word of ASCII letters, digits and underscores, in small letters. A version
is dotted and begins with a digit, and a word may follow it. Labels are a set. A revision is ten to
forty hexadecimal digits, of which ten count; none, an empty one and `latest` stand for any.
-/

namespace ResultSearch

/-- A selection of runs. -/
structure Product where
  browser : String
  version : Option String
  os : Option String
  osVersion : Option String
  /-- In order and without repetition. -/
  labels : List String
  /-- Ten characters; `none` for any revision. -/
  revision : Option String
  deriving DecidableEq

namespace Product

/-- The word for any revision. -/
def latest : String := "latest"

/-- All runs of a browser. -/
def ofBrowser (name : String) : Product := ⟨Text.lowerAscii name, none, none, none, [], none⟩

/-- The revision of the spec, or the word for any. -/
def revisionWord (p : Product) : String := p.revision.getD latest

/-! ## Matching -/

/-- Whether the dotted components of `wanted` are the first ones of `actual`. -/
def versionMatches (wanted actual : String) : Bool :=
  Text.startsWith (actual ++ ".") (wanted ++ ".")

/-- Whether the spec selects a run. The operating system plays no part. -/
def matchesRun (p : Product) (r : Run) : Bool :=
  decide (r.browserName = p.browser) &&
    (p.revision.all fun rev => decide (rev = r.revision)) &&
    p.labels.all r.hasLabel &&
    (p.version.all fun v => versionMatches v r.browserVersion)

/-! ## Reading -/

/-- A letter or a digit. -/
def isAsciiWordChar (c : Char) : Bool := c.isAlphanum

/-- Whether a text may name a browser. -/
def isBrowserName (cs : List Char) : Bool :=
  !cs.isEmpty && cs.all fun c => isAsciiWordChar c || c = '_'

/-- A dotted number, and perhaps one more word. -/
def isVersion (cs : List Char) : Bool :=
  match Text.split ' ' cs with
  | number :: words =>
    decide (words.length ≤ 1) &&
      (match number.head? with
        | some c => c.isDigit
        | none => false) &&
      (Text.split '.' number).all fun part => !part.isEmpty && part.all isAsciiWordChar
  | [] => false

/-- A hexadecimal digit, in capitals or not. -/
def isHexDigit (c : Char) : Bool :=
  c.isDigit || (decide ('a' ≤ c) && decide (c ≤ 'f')) || (decide ('A' ≤ c) && decide (c ≤ 'F'))

/-- The revision that a text names: `some none` for any. -/
def readRevision (cs : List Char) : Option (Option String) :=
  if cs.isEmpty ∨ cs = latest.toList then some none
  else if 10 ≤ cs.length ∧ cs.length ≤ 40 ∧ cs.all isHexDigit then
    some (some (String.ofList (cs.take 10)))
  else none

/-- Put a label into its place among others. -/
def insertLabel (label : String) : List String → List String
  | [] => [label]
  | l :: rest =>
    if l = label then l :: rest
    else if label < l then label :: l :: rest
    else l :: insertLabel label rest

/-- The labels between the brackets. -/
def readLabels (cs : List Char) : List String :=
  (((Text.split ',' cs).filter fun l => !l.isEmpty).map String.ofList).foldl
    (fun acc l => insertLabel l acc) []

/-- A version that may be left out. -/
def readVersion : Option (List Char) → Option (Option String)
  | none => some none
  | some cs => if isVersion cs then some (some (String.ofList cs)) else none

/-- The name part of a spec and its revision. -/
def readHead (cs : List Char) : Option (List Char × Option String) :=
  match Text.split '@' cs with
  | [name] => some (name, none)
  | [name, sha] => (readRevision sha).map fun rev => (name, rev)
  | _ => none

/-- The name part without its labels, and the labels. -/
def readBrackets (cs : List Char) : Option (List Char × List String) :=
  match Text.cutAt '[' cs with
  | none => some (cs, [])
  | some (name, rest) =>
    match Text.dropLast? ']' rest with
    | none => none
    | some inner =>
      if inner.contains '[' || inner.contains ']' then none else some (name, readLabels inner)

/-- The spec that a text spells, if any. -/
def ofChars? (cs : List Char) : Option Product := do
  let (cs, revision) ← readHead cs
  let (cs, labels) ← readBrackets cs
  let pieces := Text.split '-' cs
  if 4 < pieces.length then none
  else
    let browser := (pieces.headD []).map Char.toLower
    if isBrowserName browser then
      let version ← readVersion pieces[1]?
      let osVersion ← readVersion pieces[3]?
      return ⟨String.ofList browser, version, pieces[2]?.map String.ofList, osVersion, labels,
        revision⟩
    else none

/-- The spec that a text spells. -/
def parse (spec : String) : Except QueryError Product :=
  match ofChars? spec.toList with
  | some p => .ok p
  | none => .error (.invalidProduct spec)

/-! ## Writing -/

/-- The spec as characters. -/
def toChars (p : Product) : List Char :=
  Text.join '-' (p.browser.toList ::
    ([p.version, p.os, p.osVersion].filterMap id).map String.toList) ++
  (if p.labels.isEmpty then [] else '[' :: Text.join ',' (p.labels.map String.toList) ++ [']']) ++
  (match p.revision with
    | none => []
    | some rev => '@' :: rev.toList)

/-- The spec as text. -/
def text (p : Product) : String := String.ofList p.toChars

end Product

end ResultSearch
