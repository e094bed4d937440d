import SeamlessTunnel.Toml.Basic
import SeamlessTunnel.Text.Numeral
/-
  SeamlessTunnel.Toml.Number — TOML numbers.

  Single underscores may stand between digits. An integer is decimal with an optional sign
  and no leading zeros, or unsigned in base 16, 8 or 2, and fits 64 bits. A real has a
  fraction or an exponent, or is `inf` or `nan`; its value is not kept, but one that rounds
  to plus infinity is refused.
-/

namespace SeamlessTunnel.Toml

open Text (digit? ofDigits)

/-- Further digits, each with at most one underscore before it. -/
def moreDigits (base : Nat) : List Char → Option (List Nat × List Char)
  | '_' :: c :: rest => do
    let d ← digit? base c
    let (ds, rest) ← moreDigits base rest
    return (d :: ds, rest)
  | ['_'] => none
  | c :: rest =>
    match digit? base c with
    | none => some ([], c :: rest)
    | some d => (moreDigits base rest).map fun (ds, rest) => (d :: ds, rest)
  | [] => some ([], [])

/-- One digit or more. -/
def readDigits (base : Nat) : List Char → Option (List Nat × List Char)
  | c :: rest => do
    let d ← digit? base c
    let (ds, rest) ← moreDigits base rest
    return (d :: ds, rest)
  | [] => none

/-- A plus or minus sign, if there is one: whether it is minus, and the rest. -/
def readSign : List Char → Bool × List Char
  | '+' :: rest => (false, rest)
  | '-' :: rest => (true, rest)
  | cs => (false, cs)

/-- The digits of a decimal integer. After a zero nothing more is read. -/
def readWhole : List Char → Option (List Nat × List Char)
  | '0' :: rest => some ([0], rest)
  | cs => readDigits 10 cs

/-- The digits after a point; none when there is no point. -/
def readFraction : List Char → Option (List Nat × List Char)
  | '.' :: rest => readDigits 10 rest
  | cs => some ([], cs)

/-- The exponent after an `e`, if there is one. -/
def readExponent : List Char → Option (Option Int × List Char)
  | c :: rest =>
    if c = 'e' || c = 'E' then do
      let (negative, rest) := readSign rest
      let (ds, rest) ← readDigits 10 rest
      let n : Int := ofDigits 10 ds
      return (some (if negative then -n else n), rest)
    else some (none, c :: rest)
  | [] => some (none, [])

/-- The least number that rounds to infinity in 64-bit floating point: halfway between the
    largest finite number and the next power of two. -/
def overflowBound : Nat :=
  (1 <<< 1024) - (1 <<< 970)

/-- Whether `n * 10 ^ exponent` is at least `overflowBound`. The number of digits decides
    alone, unless it is that of the bound. -/
def overflows (n : Nat) (exponent : Int) : Bool :=
  let order := (Text.decimal n).length + exponent
  if n = 0 || order < 309 then false
  else if 309 < order then true
  else if 0 ≤ exponent then overflowBound ≤ n * Nat.pow 10 exponent.toNat
  else overflowBound * Nat.pow 10 (-exponent).toNat ≤ n

/-- Whether an integer fits 64 bits with a sign. -/
def fits (n : Int) : Bool :=
  Int64.minValue.toInt ≤ n && n ≤ Int64.maxValue.toInt

def readDecimal (cs : List Char) : Option (Value × List Char) := do
  let (negative, cs) := readSign cs
  let (whole, cs) ← readWhole cs
  let (fraction, cs) ← readFraction cs
  let (exponent, cs) ← readExponent cs
  if fraction.isEmpty && exponent.isNone then
    let n : Int := ofDigits 10 whole
    let n := if negative then -n else n
    if fits n then some (.integer n, cs) else none
  else
    let n := ofDigits 10 (whole ++ fraction)
    if !negative && overflows n (exponent.getD 0 - fraction.length) then none
    else some (.real, cs)

/-- An unsigned integer in a base other than ten, after its mark. -/
def readBased (base : Nat) (cs : List Char) : Option (Value × List Char) := do
  let (ds, cs) ← readDigits base cs
  let n := ofDigits base ds
  if fits n then some (.integer n, cs) else none

def readNumber : List Char → Option (Value × List Char)
  | '0' :: 'x' :: rest => readBased 16 rest
  | '0' :: 'o' :: rest => readBased 8 rest
  | '0' :: 'b' :: rest => readBased 2 rest
  | cs =>
    match (readSign cs).2 with
    | 'i' :: 'n' :: 'f' :: rest => some (.real, rest)
    | 'n' :: 'a' :: 'n' :: rest => some (.real, rest)
    | _ => readDecimal cs

end SeamlessTunnel.Toml
