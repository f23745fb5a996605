import ResultSearch.Toml.Node
import ResultSearch.Toml.Text

/-!
# Reading TOML documents

A document is a sequence of lines: headings, which open a table, and keys with their values, which go
into the table that is open.

* `parse`: the table of a document.
-/

namespace ResultSearch.Toml

mutual

/-- One value; at most `depth` arrays and tables may be open in it. -/
def value : (fuel depth : Nat) → List Char → Option (Toml × List Char)
  | 0, _, _ => none
  | _, _, [] => none
  | fuel + 1, depth, c :: rest =>
    if c = '\x22' ∨ c = '\x27' then do
      let (s, rest) ← string (c :: rest)
      return (.str s, rest)
    else if c = '[' then
      if depth = 0 then none
      else do
        let (items, rest) ← items fuel (depth - 1) rest
        return (.arr items, rest)
    else if c = '\x7b' then
      if depth = 0 then none
      else
        match skipSpace rest with
        | '\x7d' :: rest => some (.table [], rest)
        | rest => do
          let (entries, rest) ← pairs fuel (depth - 1) [] rest
          return (.table (TomlNode.finishEntries entries), rest)
    else
      match c :: rest with
      | 't' :: 'r' :: 'u' :: 'e' :: rest => some (.bool true, rest)
      | 'f' :: 'a' :: 'l' :: 's' :: 'e' :: rest => some (.bool false, rest)
      | cs => scalar cs

/-- The values of an array up to its closing bracket; a comma may come last. -/
def items : (fuel depth : Nat) → List Char → Option (List Toml × List Char)
  | 0, _, _ => none
  | fuel + 1, depth, cs =>
    match gap fuel cs with
    | ']' :: rest => some ([], rest)
    | cs => do
      let (v, cs) ← value fuel depth cs
      match gap fuel cs with
      | ',' :: rest => do
        let (vs, rest) ← items fuel depth rest
        return (v :: vs, rest)
      | ']' :: rest => return ([v], rest)
      | _ => none

/-- The pairs of a table on one line, of which there is at least one, up to its closing brace. -/
def pairs : (fuel depth : Nat) → TomlNode.Entries → List Char →
    Option (TomlNode.Entries × List Char)
  | 0, _, _, _ => none
  | fuel + 1, depth, entries, cs => do
    let (path, cs) ← key cs
    let (v, cs) ← value fuel depth (skipSpace (← sign '=' cs))
    let entries ← TomlNode.putKey entries path v
    match skipSpace cs with
    | ',' :: rest => pairs fuel depth entries rest
    | '\x7d' :: rest => return (entries, rest)
    | _ => none

/-- Spaces, line ends and comments, each comment with the end of its line. -/
def gap : (fuel : Nat) → List Char → List Char
  | 0, cs => cs
  | fuel + 1, cs =>
    match skipLines cs with
    | '#' :: rest =>
      match lineEnd? (skipComment rest) with
      | some rest => gap fuel rest
      | none => '#' :: rest
    | cs => cs

end

/-- What follows the rest of a line, on which there may be a comment. -/
def restOfLine (cs : List Char) : Option (List Char) :=
  let cs := match skipSpace cs with
    | '#' :: rest => skipComment rest
    | cs => cs
  match cs with
  | [] => some []
  | cs => lineEnd? cs

/-- Lines of a document, with a table open. -/
def lines : (fuel : Nat) → (opened : List String) → TomlNode.Entries → List Char →
    Option TomlNode.Entries
  | 0, _, _, _ => none
  | fuel + 1, opened, entries, cs =>
    match skipSpace cs with
    | [] => some entries
    | '[' :: '[' :: rest => do
      let (path, rest) ← key rest
      let rest ← restOfLine (← sign ']' (← sign ']' rest))
      lines fuel path (← TomlNode.openElement entries path) rest
    | '[' :: rest => do
      let (path, rest) ← key rest
      let rest ← restOfLine (← sign ']' rest)
      lines fuel path (← TomlNode.openTable entries path) rest
    | c :: rest =>
      if c = '#' ∨ c = '\n' ∨ c = '\r' then do
        lines fuel opened entries (← restOfLine (c :: rest))
      else do
        let (path, rest) ← key (c :: rest)
        let rest := skipSpace (← sign '=' rest)
        let (v, rest) ← value (2 * rest.length + 2) (nesting - 1) rest
        let rest ← restOfLine rest
        lines fuel opened (← TomlNode.atPath entries opened fun t => TomlNode.putKey t path v) rest

/-- The table of a document, which may begin with a byte order mark. -/
def parse (s : String) : Option Toml :=
  let cs := match s.toList with
    | '\ufeff' :: rest => rest
    | cs => cs
  (lines (cs.length + 1) [] [] cs).map fun entries => .table (TomlNode.finishEntries entries)

end ResultSearch.Toml
