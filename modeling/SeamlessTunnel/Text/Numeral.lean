/-
  SeamlessTunnel.Text.Numeral — natural numbers in a base up to sixteen.

  `render` writes a number without leading zeros, `ofDigits` reads the value of a list of
  digits, `natural?` reads a whole decimal text with an optional leading plus sign and an
  upper limit.
-/

namespace SeamlessTunnel.Text

/-- The value of a hexadecimal digit of either case. -/
def hexValue? (c : Char) : Option Nat :=
  let n := c.toNat
  if 48 ≤ n && n ≤ 57 then some (n - 48)
  else if 97 ≤ n && n ≤ 102 then some (n - 87)
  else if 65 ≤ n && n ≤ 70 then some (n - 55)
  else none

/-- The value of `c` as a digit of the given base. -/
def digit? (base : Nat) (c : Char) : Option Nat :=
  (hexValue? c).filter (· < base)

/-- The digit of a value below sixteen, in lower case. -/
def digitChar (d : Nat) : Char :=
  if d < 10 then Char.ofNat (48 + d) else Char.ofNat (87 + d)

/-- The value of digits, the highest first. -/
def ofDigits (base : Nat) (ds : List Nat) : Nat :=
  ds.foldl (fun n d => n * base + d) 0

/-- The digits at the front of a text, and the rest. -/
def leadingDigits (base : Nat) : List Char → List Nat × List Char
  | [] => ([], [])
  | c :: cs =>
    match digit? base c with
    | some d =>
      let (ds, rest) := leadingDigits base cs
      (d :: ds, rest)
    | none => ([], c :: cs)

/-- A number in a base from two to sixteen, without leading zeros. -/
def render (base n : Nat) : List Char :=
  if _ : n < base ∨ base < 2 then [digitChar n]
  else render base (n / base) ++ [digitChar (n % base)]
termination_by n
decreasing_by exact Nat.div_lt_self (by omega) (by omega)

/-- A number in decimal. -/
def decimal (n : Nat) : List Char :=
  render 10 n

/-- Reads a whole text of decimal digits, one plus sign before them allowed, whose value
    is at most `limit`. -/
def natural? (limit : Nat) (cs : List Char) : Option Nat :=
  let digits := match cs with
    | '+' :: rest => rest
    | _ => cs
  match leadingDigits 10 digits with
  | ([], _) => none
  | (ds, []) => if ofDigits 10 ds ≤ limit then some (ofDigits 10 ds) else none
  | (_, _ :: _) => none

end SeamlessTunnel.Text
