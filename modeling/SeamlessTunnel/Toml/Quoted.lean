import SeamlessTunnel.Text.Numeral
/-
  SeamlessTunnel.Toml.Quoted — TOML strings and keys.

  Strings between `"` have escapes, strings between `'` have none. Three quotes instead of
  one admit line breaks: the first, if it follows the opening quotes, is dropped, and a
  backslash at the end of a line drops all blanks up to the next character. Every line
  break reads as one line feed.
-/

namespace SeamlessTunnel.Toml

/-- A space or a tab. -/
def isSpace (c : Char) : Bool :=
  c = ' ' || c = '\t'

/-- Characters of comments and, but for quotes and backslashes, of strings: all but the
    control characters, and the tab. -/
def isPlain (c : Char) : Bool :=
  c = '\t' || (32 ≤ c.toNat && c.toNat ≠ 127)

def skipSpaces (cs : List Char) : List Char :=
  cs.dropWhile isSpace

/-- The rest of a text after a line break. -/
def lineBreak? : List Char → Option (List Char)
  | '\n' :: rest => some rest
  | '\r' :: '\n' :: rest => some rest
  | _ => none

/-! ## Escapes -/

/-- What an escape of one letter stands for. -/
def escape? : Char → Option Char
  | 'b' => some '\x08'
  | 't' => some '\t'
  | 'n' => some '\n'
  | 'f' => some '\x0c'
  | 'r' => some '\r'
  | '"' => some '"'
  | '\\' => some '\\'
  | _ => none

/-- The character of a number written in hexadecimal digits. Halves of surrogate pairs and
    what is larger than any character have none. -/
def scalar? (digits : List Char) : Option Char := do
  let ds ← digits.mapM Text.hexValue?
  let n := Text.ofDigits 16 ds
  if n < 0xD800 || (0xE000 ≤ n && n < 0x110000) then some (Char.ofNat n) else none

/-! ## One line -/

/-- Characters up to the closing `"`. -/
def readBasic : List Char → Option (List Char × List Char)
  | '"' :: rest => some ([], rest)
  | '\\' :: 'u' :: a :: b :: c :: d :: rest => do
    let x ← scalar? [a, b, c, d]
    let (s, rest) ← readBasic rest
    return (x :: s, rest)
  | '\\' :: 'U' :: a :: b :: c :: d :: e :: f :: g :: h :: rest => do
    let x ← scalar? [a, b, c, d, e, f, g, h]
    let (s, rest) ← readBasic rest
    return (x :: s, rest)
  | '\\' :: e :: rest => do
    let x ← escape? e
    let (s, rest) ← readBasic rest
    return (x :: s, rest)
  | c :: rest =>
    if isPlain c && c != '\\' then (readBasic rest).map fun (s, rest) => (c :: s, rest)
    else none
  | [] => none

/-- Characters up to the closing apostrophe. -/
def readLiteral : List Char → Option (List Char × List Char)
  | '\'' :: rest => some ([], rest)
  | c :: rest =>
    if isPlain c then (readLiteral rest).map fun (s, rest) => (c :: s, rest) else none
  | [] => none

/-! ## Many lines -/

/-- Whether a text goes on, after spaces, on a next line. -/
def endsLine (cs : List Char) : Bool :=
  (lineBreak? (skipSpaces cs)).isSome

/-- Characters up to the three closing quotes, which may have one or two quotes of the
    string before them. While `trimming`, blanks are skipped. -/
def readBasicLines (trimming : Bool) : List Char → Option (List Char × List Char)
  | '"' :: '"' :: '"' :: '"' :: '"' :: rest => some (['"', '"'], rest)
  | '"' :: '"' :: '"' :: '"' :: rest => some (['"'], rest)
  | '"' :: '"' :: '"' :: rest => some ([], rest)
  | '\\' :: 'u' :: a :: b :: c :: d :: rest => do
    let x ← scalar? [a, b, c, d]
    let (s, rest) ← readBasicLines false rest
    return (x :: s, rest)
  | '\\' :: 'U' :: a :: b :: c :: d :: e :: f :: g :: h :: rest => do
    let x ← scalar? [a, b, c, d, e, f, g, h]
    let (s, rest) ← readBasicLines false rest
    return (x :: s, rest)
  | '\\' :: e :: rest =>
    if endsLine (e :: rest) then readBasicLines true (e :: rest)
    else do
      let x ← escape? e
      let (s, rest) ← readBasicLines false rest
      return (x :: s, rest)
  | '\r' :: '\n' :: rest =>
    if trimming then readBasicLines true rest
    else (readBasicLines false rest).map fun (s, rest) => ('\n' :: s, rest)
  | c :: rest =>
    if trimming && (isSpace c || c = '\n') then readBasicLines true rest
    else if (isPlain c || c = '\n') && c != '\\' then
      (readBasicLines false rest).map fun (s, rest) => (c :: s, rest)
    else none
  | [] => none

/-- Characters up to the three closing apostrophes, which may have one or two apostrophes
    of the string before them. -/
def readLiteralLines : List Char → Option (List Char × List Char)
  | '\'' :: '\'' :: '\'' :: '\'' :: '\'' :: rest => some (['\'', '\''], rest)
  | '\'' :: '\'' :: '\'' :: '\'' :: rest => some (['\''], rest)
  | '\'' :: '\'' :: '\'' :: rest => some ([], rest)
  | '\r' :: '\n' :: rest => (readLiteralLines rest).map fun (s, rest) => ('\n' :: s, rest)
  | c :: rest =>
    if isPlain c || c = '\n' then
      (readLiteralLines rest).map fun (s, rest) => (c :: s, rest)
    else none
  | [] => none

/-- A text without the line break at its front, if there is one. -/
def skipLineBreak (cs : List Char) : List Char :=
  (lineBreak? cs).getD cs

/-! ## Strings and keys -/

/-- A string of any of the four kinds, with its quotes. -/
def readString : List Char → Option (List Char × List Char)
  | '"' :: '"' :: '"' :: rest => readBasicLines false (skipLineBreak rest)
  | '"' :: rest => readBasic rest
  | '\'' :: '\'' :: '\'' :: rest => readLiteralLines (skipLineBreak rest)
  | '\'' :: rest => readLiteral rest
  | _ => none

/-- Letters, digits, underscores and hyphens of ASCII. -/
def isBare (c : Char) : Bool :=
  c.isAlphanum || c = '_' || c = '-'

/-- One key: bare, or a string of one line. -/
def readKey : List Char → Option (List Char × List Char)
  | '"' :: rest => readBasic rest
  | '\'' :: rest => readLiteral rest
  | cs =>
    match cs.takeWhile isBare with
    | [] => none
    | key => some (key, cs.dropWhile isBare)

end SeamlessTunnel.Toml
