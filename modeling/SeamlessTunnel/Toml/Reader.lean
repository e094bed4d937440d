import SeamlessTunnel.Toml.Moment
import SeamlessTunnel.Toml.Number
import SeamlessTunnel.Toml.Quoted
/-
  SeamlessTunnel.Toml.Reader — TOML texts.

  Readers take the front of a text and answer with the rest. Values nest less than
  `depthLimit` deep, and a dotted key has fewer parts than that. Loops over items,
  pairs and statements take fuel; the length of the text is enough of it, because every
  turn reads a character.
-/

namespace SeamlessTunnel.Toml

def depthLimit : Nat := 80

/-! ## Comments and line ends -/

/-- The rest of a text after blanks, comments and line breaks, as they may stand between the
    items of an array. What a comment must not hold is left at the front. -/
def skipFiller (inComment : Bool) : List Char → List Char
  | '\n' :: rest => skipFiller false rest
  | '\r' :: '\n' :: rest => skipFiller false rest
  | c :: rest =>
    if (if inComment then isPlain c else isSpace c) then skipFiller inComment rest
    else if c = '#' then skipFiller true rest
    else c :: rest
  | [] => []

/-- The rest of a text after the end of a line: spaces and a comment may come before. -/
def endLine (cs : List Char) : Option (List Char) :=
  let cs := match skipSpaces cs with
    | '#' :: rest => rest.dropWhile isPlain
    | cs => cs
  if cs.isEmpty then some [] else lineBreak? cs

/-! ## Paths -/

/-- Keys with points between them, and spaces around each. -/
def readKeys : Nat → List Char → Option (List Key × List Char)
  | 0, _ => none
  | fuel + 1, cs => do
    let (key, cs) ← readKey (skipSpaces cs)
    match skipSpaces cs with
    | '.' :: rest => (readKeys fuel rest).map fun (keys, rest) => (key :: keys, rest)
    | rest => return ([key], rest)

def Path.ofKeys? (keys : List Key) : Option Path :=
  keys.getLast?.map fun last => ⟨keys.dropLast, last⟩

def readPath (cs : List Char) : Option (Path × List Char) := do
  let (keys, cs) ← readKeys cs.length cs
  if keys.length < depthLimit then
    let path ← Path.ofKeys? keys
    return (path, cs)
  else none

/-! ## Values -/

/-- Reads one value off the front of a text. -/
abbrev ValueReader := List Char → Option (Value × List Char)

/-- A path, an equals sign and a value, and the spaces after it. -/
def readPair (value : ValueReader) (cs : List Char) : Option (Path × Value × List Char) := do
  let (path, cs) ← readPath cs
  let cs ← expect '=' cs
  let (v, cs) ← value (skipSpaces cs)
  return (path, v, skipSpaces cs)

/-- Items up to the closing bracket. A comma may follow the last one. -/
def readItems (value : ValueReader) : Nat → List Char → Option (List Value × List Char)
  | 0, _ => none
  | fuel + 1, cs =>
    match skipFiller false cs with
    | ']' :: rest => some ([], rest)
    | cs => do
      let (v, cs) ← value cs
      match skipFiller false cs with
      | ']' :: rest => return ([v], rest)
      | ',' :: rest => (readItems value fuel rest).map fun (vs, rest) => (v :: vs, rest)
      | _ => none

/-- Pairs up to the closing brace, at least one, put below `entries`. -/
def readEntries (value : ValueReader) : Nat → Entries → List Char → Option (Entries × List Char)
  | 0, _, _ => none
  | fuel + 1, entries, cs => do
    let (path, v, cs) ← readPair value cs
    let entries ← entries.addPair path v .braces
    match cs with
    | '\x7d' :: rest => return (entries, rest)
    | ',' :: rest => readEntries value fuel entries rest
    | _ => none

/-- A table between braces, after the opening one. -/
def readBraces (value : ValueReader) (cs : List Char) : Option (Value × List Char) := do
  let (entries, rest) ← match skipSpaces cs with
    | '\x7d' :: rest => some ([], rest)
    | cs => readEntries value cs.length [] cs
  return (.table .braces entries, rest)

/-- A value that holds no other. -/
def readSimple : ValueReader
  | 't' :: 'r' :: 'u' :: 'e' :: rest => some (.bool true, rest)
  | 'f' :: 'a' :: 'l' :: 's' :: 'e' :: rest => some (.bool false, rest)
  | cs =>
    match readString cs with
    | some (s, rest) => some (.string s, rest)
    | none =>
      match readMoment cs with
      | some rest => some (.moment, rest)
      | none => readNumber cs

/-- A value with at most `room` others around an innermost one. -/
def readValue : (room : Nat) → ValueReader
  | 0, '[' :: _ => none
  | 0, '\x7b' :: _ => none
  | room + 1, '[' :: rest =>
    (readItems (readValue room) rest.length rest).map fun (vs, rest) => (.array vs, rest)
  | room + 1, '\x7b' :: rest => readBraces (readValue room) rest
  | _, cs => readSimple cs

/-! ## Statements -/

/-- One statement, with the end of its line. -/
def readStatement : List Char → Option (Statement × List Char)
  | '[' :: '[' :: rest => do
    let (path, rest) ← readPath rest
    let rest ← expect ']' rest
    let rest ← expect ']' rest
    return (.another path, ← endLine rest)
  | '[' :: rest => do
    let (path, rest) ← readPath rest
    let rest ← expect ']' rest
    return (.header path, ← endLine rest)
  | cs => do
    let (path, value, rest) ← readPair (readValue (depthLimit - 1)) cs
    return (.pair path value, ← endLine rest)

/-- Whether a line, from here on, has no statement. -/
def isIdle : List Char → Bool
  | [] => true
  | c :: _ => c = '#' || c = '\n' || c = '\r'

def readStatements : Nat → List Char → Option (List Statement)
  | 0, cs => if cs.isEmpty then some [] else none
  | fuel + 1, cs =>
    let cs := skipSpaces cs
    if cs.isEmpty then some []
    else if isIdle cs then endLine cs >>= readStatements fuel
    else do
      let (statement, rest) ← readStatement cs
      return statement :: (← readStatements fuel rest)

/-- The statements of a text. A byte order mark at its front is skipped. -/
def statements? (cs : List Char) : Option (List Statement) :=
  let cs := match cs with
    | '\uFEFF' :: rest => rest
    | cs => cs
  readStatements cs.length cs

/-- The table that a whole text denotes. -/
def ofChars? (cs : List Char) : Option Entries := do
  let d ← Document.ofStatements? (← statements? cs)
  return d.root

end SeamlessTunnel.Toml
