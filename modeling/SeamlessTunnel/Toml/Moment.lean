import SeamlessTunnel.Text.Numeral
/-
  SeamlessTunnel.Toml.Moment — TOML dates and times.

  A date, a time of day, or a date and a time with an optional offset. Nothing but the
  place where a moment ends is kept.
-/

namespace SeamlessTunnel.Toml

/-- A number of `count` digits. -/
def readFixed (count : Nat) (cs : List Char) : Option (Nat × List Char) := do
  let ds ← (cs.take count).mapM (Text.digit? 10)
  if ds.length = count then some (Text.ofDigits 10 ds, cs.drop count) else none

/-- A number of two digits from `low` to `high`. -/
def readTwo (low high : Nat) (cs : List Char) : Option (Nat × List Char) := do
  let (n, rest) ← readFixed 2 cs
  if low ≤ n && n ≤ high then some (n, rest) else none

/-- The rest of a text after one character. -/
def expect (c : Char) : List Char → Option (List Char)
  | d :: rest => if d = c then some rest else none
  | [] => none

def isLeap (year : Nat) : Bool :=
  year % 4 = 0 && (year % 100 ≠ 0 || year % 400 = 0)

def daysOf (year month : Nat) : Nat :=
  if month = 2 then (if isLeap year then 29 else 28)
  else if month = 4 || month = 6 || month = 9 || month = 11 then 30
  else 31

/-- The rest of a text after a date. -/
def readDate (cs : List Char) : Option (List Char) := do
  let (year, cs) ← readFixed 4 cs
  let cs ← expect '-' cs
  let (month, cs) ← readTwo 1 12 cs
  let cs ← expect '-' cs
  let (_, cs) ← readTwo 1 (daysOf year month) cs
  return cs

/-- The rest of a text after a point and digits, if it begins so. -/
def skipFraction : List Char → List Char
  | '.' :: rest =>
    match Text.leadingDigits 10 rest with
    | ([], _) => '.' :: rest
    | (_, rest) => rest
  | cs => cs

/-- The rest of a text after a time of day. A minute may have a leap second. -/
def readTime (cs : List Char) : Option (List Char) := do
  let (_, cs) ← readTwo 0 23 cs
  let cs ← expect ':' cs
  let (_, cs) ← readTwo 0 59 cs
  let cs ← expect ':' cs
  let (_, cs) ← readTwo 0 60 cs
  return skipFraction cs

/-- The rest of a text after an offset. -/
def readOffset : List Char → Option (List Char)
  | c :: rest =>
    if c = 'Z' || c = 'z' then some rest
    else if c = '+' || c = '-' then do
      let (_, rest) ← readTwo 0 23 rest
      let rest ← expect ':' rest
      let (_, rest) ← readTwo 0 59 rest
      return rest
    else none
  | [] => none

/-- The rest of a text after a mark and a time of day with an optional offset. -/
def readDayTime : List Char → Option (List Char)
  | c :: rest =>
    if c = 'T' || c = 't' || c = ' ' then do
      let rest ← readTime rest
      return (readOffset rest).getD rest
    else none
  | [] => none

/-- The rest of a text after a moment. -/
def readMoment (cs : List Char) : Option (List Char) :=
  match readDate cs with
  | some rest => some ((readDayTime rest).getD rest)
  | none => readTime cs

end SeamlessTunnel.Toml
