import SeamlessTunnel.Text.Numeral
/-
  SeamlessTunnel.Toml.Printer — written forms of strings, flags and lists.

  `quoted` takes the plainest quotes that need no escapes: `"`, then an apostrophe, then
  three of either; only where all four need escapes are they written, between `"` or, in
  a text of several lines, three of them.
-/

namespace SeamlessTunnel.Toml

/-! ## Strings -/

/-- The length of the longest run of `c`. -/
def longestRun (c : Char) (cs : List Char) : Nat :=
  (cs.foldl (fun (best, run) d =>
    let run := if d = c then run + 1 else 0
    (max best run, run)) (0, 0)).1

/-- Whether `c` is a control character that no quotes admit as it is. -/
def needsEscape (c : Char) : Bool :=
  (c.toNat < 32 && c != '\t' && c != '\n') || c.toNat = 127

/-- The kinds of quotes. -/
inductive Quotes where
  | basic
  | literal
  | basicLines
  | literalLines
  deriving DecidableEq, Repr

namespace Quotes

def delimiter : Quotes → List Char
  | basic => ['"']
  | literal => ['\'']
  | basicLines => ['"', '"', '"']
  | literalLines => ['\'', '\'', '\'']

def hasLines : Quotes → Bool
  | basicLines | literalLines => true
  | _ => false

/-- Whether a text can stand between these quotes as it is. -/
def admits (q : Quotes) (cs : List Char) : Bool :=
  !cs.any needsEscape && (q.hasLines || !cs.contains '\n') &&
    match q with
    | basic => !cs.contains '\\' && !cs.contains '"'
    | literal => !cs.contains '\''
    | basicLines => !cs.contains '\\' && longestRun '"' cs ≤ 2
    | literalLines => longestRun '\'' cs ≤ 2

/-- The plainest quotes for a text. -/
def choose (cs : List Char) : Quotes :=
  match [basic, literal, basicLines, literalLines].find? (·.admits cs) with
  | some q => q
  | none => if cs.contains '\n' then basicLines else basic

end Quotes

/-- Four hexadecimal digits in upper case. -/
def hex4 (n : Nat) : List Char :=
  let digits := (Text.render 16 n).map Char.toUpper
  List.replicate (4 - digits.length) '0' ++ digits

/-- A character between `"`. A line feed stays as it is in a text of several lines. -/
def escapeChar (lines : Bool) (c : Char) : List Char :=
  if c = '\x08' then ['\\', 'b']
  else if c = '\t' then ['\\', 't']
  else if c = '\n' then if lines then ['\n'] else ['\\', 'n']
  else if c = '\x0c' then ['\\', 'f']
  else if c = '\r' then ['\\', 'r']
  else if c = '\\' then ['\\', '\\']
  else if needsEscape c then ['\\', 'u'] ++ hex4 c.toNat
  else [c]

/-- A text between `"`. A quote is written as it is after fewer than `allowed` others of
    its run, and escaped next, which ends the run. -/
def escaped (lines : Bool) (run : Nat) : List Char → List Char
  | [] => []
  | c :: rest =>
    if c = '"' then
      if run < (if lines then 2 else 0) then '"' :: escaped lines (run + 1) rest
      else '\\' :: '"' :: escaped lines 0 rest
    else escapeChar lines c ++ escaped lines 0 rest

/-- A string with its quotes. One of several lines begins on a line of its own. -/
def quoted (cs : List Char) : List Char :=
  let q := Quotes.choose cs
  let body := match q with
    | .basic | .basicLines => escaped q.hasLines 0 cs
    | .literal | .literalLines => cs
  let start := if q.hasLines && cs.contains '\n' then ['\n'] else []
  q.delimiter ++ start ++ body ++ q.delimiter

/-! ## Other values -/

def flag (b : Bool) : List Char :=
  if b then "true".toList else "false".toList

/-- A list of written values. Two or more stand on lines of their own, indented by four
    spaces, with a comma after each. -/
def list : List (List Char) → List Char
  | [] => "[]".toList
  | [item] => '[' :: item ++ [']']
  | items => "[\n".toList ++ items.flatMap (fun item => "    ".toList ++ item ++ ",\n".toList) ++ [']']

/-- A line with a key and a written value. -/
def line (key : String) (value : List Char) : List Char :=
  key.toList ++ " = ".toList ++ value ++ ['\n']

end SeamlessTunnel.Toml
