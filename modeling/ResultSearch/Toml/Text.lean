import ResultSearch.Toml.Number

/-!
# TOML strings, keys and comments

Strings between double quotes have escapes and strings between single quotes do not; three quotes
enclose a text of several lines, whose line ends are all read as line feeds. Control characters have
to be escaped, the tab excepted.
-/

namespace ResultSearch.Toml

/-- Whether a character may stand for itself in strings and comments. -/
def isPlain (c : Char) : Bool :=
  c = '\t' || (decide (0x20 ≤ c.toNat) && c.toNat != 0x7F)

/-- White space within a line: blank and tab. -/
def isSpace (c : Char) : Bool := c = ' ' || c = '\t'

/-- The characters after white space. -/
def skipSpace (cs : List Char) : List Char := cs.dropWhile isSpace

/-- What follows the end of a line, if the line ends here. -/
def lineEnd? : List Char → Option (List Char)
  | '\n' :: rest => some rest
  | '\r' :: '\n' :: rest => some rest
  | _ => none

/-- What follows a comment. -/
def skipComment (cs : List Char) : List Char := cs.dropWhile isPlain

/-- Spaces and line ends. -/
def skipLines : List Char → List Char
  | [] => []
  | '\r' :: '\n' :: rest => skipLines rest
  | c :: rest => if isSpace c || c = '\n' then skipLines rest else c :: rest

/-- A character given by so many hexadecimal digits. -/
def codePoint (width : Nat) (cs : List Char) : Option (Char × List Char) := do
  let front := cs.take width
  if front.length = width then
    let n := ofDigits 16 (← front.mapM (digit? 16))
    if h : n.isValidChar then return (Char.ofNatAux n h, cs.drop width) else none
  else none

/-- What stands after a backslash. -/
def escaped : List Char → Option (Char × List Char)
  | [] => none
  | c :: rest =>
    if c = 'b' then some ('\x08', rest)
    else if c = 't' then some ('\t', rest)
    else if c = 'n' then some ('\n', rest)
    else if c = 'f' then some ('\x0c', rest)
    else if c = 'r' then some ('\r', rest)
    else if c = '\x22' then some ('\x22', rest)
    else if c = '\x5c' then some ('\x5c', rest)
    else if c = 'u' then codePoint 4 rest
    else if c = 'U' then codePoint 8 rest
    else none

/-- The rest of a string on one line, up to its closing quote; `fuel` bounds its length. -/
def lineBody (quote : Char) (escapes : Bool) : (fuel : Nat) → List Char →
    Option (List Char × List Char)
  | 0, _ => none
  | _, [] => none
  | fuel + 1, c :: rest =>
    if c = quote then some ([], rest)
    else if escapes && c = '\x5c' then do
      let (e, rest) ← escaped rest
      let (cs, rest) ← lineBody quote escapes fuel rest
      return (e :: cs, rest)
    else if isPlain c then do
      let (cs, rest) ← lineBody quote escapes fuel rest
      return (c :: cs, rest)
    else none

/-- The end of a text of several lines, if it ends here: three quotes, before which there may be up
to two more that belong to the text. -/
def closing? (quote : Char) (cs : List Char) : Option (List Char × List Char) :=
  let quotes := min 5 (cs.takeWhile (· = quote)).length
  if 3 ≤ quotes then some (List.replicate (quotes - 3) quote, cs.drop quotes) else none

/-- The rest of a text of several lines, up to its closing quotes. -/
def blockBody (quote : Char) (escapes : Bool) : (fuel : Nat) → List Char →
    Option (List Char × List Char)
  | 0, _ => none
  | fuel + 1, cs =>
    match closing? quote cs with
    | some r => some r
    | none =>
      match lineEnd? cs with
      | some rest => do
        let (cs, rest) ← blockBody quote escapes fuel rest
        return ('\n' :: cs, rest)
      | none =>
        match cs with
        | [] => none
        | c :: rest =>
          if escapes && c = '\x5c' then
            match lineEnd? (skipSpace rest) with
            | some rest => blockBody quote escapes fuel (skipLines rest)
            | none => do
              let (e, rest) ← escaped rest
              let (cs, rest) ← blockBody quote escapes fuel rest
              return (e :: cs, rest)
          else if isPlain c then do
            let (cs, rest) ← blockBody quote escapes fuel rest
            return (c :: cs, rest)
          else none

/-- A string after its opening quote. -/
def quotedLine (quote : Char) (cs : List Char) : Option (String × List Char) := do
  let (text, rest) ← lineBody quote (quote = '\x22') (cs.length + 1) cs
  return (String.ofList text, rest)

/-- A text of several lines after its opening quotes; a line end right there is no part of it. -/
def quotedBlock (quote : Char) (cs : List Char) : Option (String × List Char) := do
  let cs := (lineEnd? cs).getD cs
  let (text, rest) ← blockBody quote (quote = '\x22') (cs.length + 1) cs
  return (String.ofList text, rest)

/-- A string of any kind, which begins with a quote. -/
def string : List Char → Option (String × List Char)
  | '\x22' :: '\x22' :: '\x22' :: rest => quotedBlock '\x22' rest
  | '\x27' :: '\x27' :: '\x27' :: rest => quotedBlock '\x27' rest
  | '\x22' :: rest => quotedLine '\x22' rest
  | '\x27' :: rest => quotedLine '\x27' rest
  | _ => none

/-! ## Keys -/

/-- Whether a character may stand in a key without quotes. -/
def isBare (c : Char) : Bool := c.isAlphanum || c = '_' || c = '-'

/-- One part of a key. -/
def keyPart (cs : List Char) : Option (String × List Char) :=
  match cs with
  | '\x22' :: rest => quotedLine '\x22' rest
  | '\x27' :: rest => quotedLine '\x27' rest
  | cs =>
    match cs.takeWhile isBare with
    | [] => none
    | bare => some (String.ofList bare, cs.dropWhile isBare)

/-- A key of no more than `fuel` parts with dots between them; spaces may stand around each. -/
def keyParts : (fuel : Nat) → List Char → Option (List String × List Char)
  | 0, _ => none
  | fuel + 1, cs => do
    let (k, cs) ← keyPart (skipSpace cs)
    match skipSpace cs with
    | '.' :: rest => do
      let (ks, rest) ← keyParts fuel rest
      return (k :: ks, rest)
    | cs => return ([k], cs)

/-- How deeply keys and values may be nested, plus one. -/
def nesting : Nat := 80

/-- A key. -/
def key (cs : List Char) : Option (List String × List Char) := keyParts (nesting - 1) cs

end ResultSearch.Toml
