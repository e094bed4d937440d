import SeamlessTunnel.Json.Basic
import SeamlessTunnel.Text.Numeral
/-
  SeamlessTunnel.Json.Reader — JSON texts.

  Readers take the front of a text and answer with the rest. The grammar is the strict one:
  blanks are space, tab, line feed and carriage return, numbers have no leading zeros,
  strings hold no control characters, nothing may follow the value.

  `fuel` bounds the nesting; the length of the text is enough of it.
-/

namespace SeamlessTunnel.Json

/-- Skips blanks. -/
def skipBlanks : List Char → List Char
  | c :: cs => if c = ' ' || c = '\t' || c = '\n' || c = '\r' then skipBlanks cs else c :: cs
  | [] => []

/-! ## Strings -/

/-- What an escape of one letter stands for. -/
def simpleEscape : Char → Option Char
  | '"' => some '"'
  | '\\' => some '\\'
  | '/' => some '/'
  | 'b' => some '\x08'
  | 'f' => some '\x0c'
  | 'n' => some '\n'
  | 'r' => some '\r'
  | 't' => some '\t'
  | _ => none

/-- One unit of a string: a character, or a number below 65536 that was written as an
    escape and may be half of a pair. -/
inductive StringUnit where
  | char (c : Char)
  | half (n : Nat)

/-- Units up to the closing quote. -/
def readUnits : List Char → Option (List StringUnit × List Char)
  | '"' :: rest => some ([], rest)
  | '\\' :: 'u' :: a :: b :: c :: d :: rest => do
    let ds ← [a, b, c, d].mapM Text.hexValue?
    let (units, rest) ← readUnits rest
    return (.half (Text.ofDigits 16 ds) :: units, rest)
  | '\\' :: e :: rest => do
    let c ← simpleEscape e
    let (units, rest) ← readUnits rest
    return (.char c :: units, rest)
  | c :: rest =>
    if c.toNat < 32 || c = '\\' then none
    else do
      let (units, rest) ← readUnits rest
      return (.char c :: units, rest)
  | [] => none

/-- The text of units; `none` when half of a pair stands alone. -/
def joinUnits : List StringUnit → Option (List Char)
  | [] => some []
  | .char c :: rest => (joinUnits rest).map (c :: ·)
  | .half h :: .half l :: rest =>
    if 0xD800 ≤ h && h < 0xDC00 then
      if 0xDC00 ≤ l && l < 0xE000 then
        (joinUnits rest).map (Char.ofNat (0x10000 + (h - 0xD800) * 0x400 + (l - 0xDC00)) :: ·)
      else none
    else if 0xDC00 ≤ h && h < 0xE000 then none
    else (joinUnits (.half l :: rest)).map (Char.ofNat h :: ·)
  | .half h :: rest =>
    if 0xD800 ≤ h && h < 0xE000 then none
    else (joinUnits rest).map (Char.ofNat h :: ·)

/-- A string after its opening quote. -/
def readString (cs : List Char) : Option (Option (List Char) × List Char) :=
  (readUnits cs).map fun (units, rest) => (joinUnits units, rest)

/-! ## Numbers -/

/-- Digits at the front, at least one. -/
def readDigits (cs : List Char) : Option (List Nat × List Char) :=
  match Text.leadingDigits 10 cs with
  | ([], _) => none
  | found => some found

/-- The fraction of a number, if it has one. -/
def readFraction : List Char → Option (Bool × List Char)
  | '.' :: rest => (readDigits rest).map fun (_, rest) => (true, rest)
  | cs => some (false, cs)

/-- The exponent of a number, if it has one. -/
def readExponent : List Char → Option (Bool × List Char)
  | e :: rest =>
    if e = 'e' || e = 'E' then
      let digits := match rest with
        | s :: more => if s = '+' || s = '-' then more else rest
        | [] => rest
      (readDigits digits).map fun (_, rest) => (true, rest)
    else some (false, e :: rest)
  | [] => some (false, [])

/-- Whether an integer fits 64 bits, with or without a sign. -/
def fits (n : Int) : Bool :=
  Int64.minValue.toInt ≤ n && n < UInt64.size

/-- A number. Minus zero is no integer. -/
def readNumber (cs : List Char) : Option (Json × List Char) := do
  let (negative, cs) := match cs with
    | '-' :: rest => (true, rest)
    | _ => (false, cs)
  let (ds, cs) ← readDigits cs
  if 1 < ds.length && ds.head? = some 0 then none
  else
    let (fraction, cs) ← readFraction cs
    let (exponent, cs) ← readExponent cs
    let n : Int := Text.ofDigits 10 ds
    let n := if negative then -n else n
    if fraction || exponent || (negative && n = 0) || !fits n then return (.real, cs)
    else return (.int n, cs)

/-! ## Values -/

/-- The rest of a text after a word. -/
def readWord (word : List Char) (cs : List Char) : Option (List Char) :=
  if word.isPrefixOf cs then some (cs.drop word.length) else none

mutual

def readValue : Nat → List Char → Option (Json × List Char)
  | 0, _ => none
  | fuel + 1, cs =>
    match skipBlanks cs with
    | '"' :: rest => (readString rest).map fun (s, rest) => (.string s, rest)
    | '[' :: rest =>
      match skipBlanks rest with
      | ']' :: rest => some (.array [], rest)
      | _ => (readItems fuel rest).map fun (items, rest) => (.array items, rest)
    | '\x7b' :: rest =>
      match skipBlanks rest with
      | '\x7d' :: rest => some (.object [], rest)
      | _ => (readFields fuel rest).map fun (fields, rest) => (.object fields, rest)
    | 't' :: rest => (readWord ['r', 'u', 'e'] rest).map (.bool true, ·)
    | 'f' :: rest => (readWord ['a', 'l', 's', 'e'] rest).map (.bool false, ·)
    | 'n' :: rest => (readWord ['u', 'l', 'l'] rest).map (.null, ·)
    | cs => readNumber cs

/-- Items after the opening bracket, and the closing one. -/
def readItems : Nat → List Char → Option (List Json × List Char)
  | 0, _ => none
  | fuel + 1, cs => do
    let (item, cs) ← readValue fuel cs
    match skipBlanks cs with
    | ']' :: rest => return ([item], rest)
    | ',' :: rest =>
      let (items, rest) ← readItems fuel rest
      return (item :: items, rest)
    | _ => none

/-- Fields after the opening brace, and the closing one. -/
def readFields : Nat → List Char → Option (List (Option (List Char) × Json) × List Char)
  | 0, _ => none
  | fuel + 1, cs => do
    match skipBlanks cs with
    | '"' :: rest =>
      let (key, cs) ← readString rest
      match skipBlanks cs with
      | ':' :: cs =>
        let (value, cs) ← readValue fuel cs
        match skipBlanks cs with
        | '\x7d' :: rest => return ([(key, value)], rest)
        | ',' :: rest =>
          let (fields, rest) ← readFields fuel rest
          return ((key, value) :: fields, rest)
        | _ => none
      | _ => none
    | _ => none

end

/-- The value that a whole text denotes. -/
def ofChars? (cs : List Char) : Option Json :=
  match readValue (2 * cs.length + 2) cs with
  | some (v, rest) => if (skipBlanks rest).isEmpty then some v else none
  | none => none

end SeamlessTunnel.Json
