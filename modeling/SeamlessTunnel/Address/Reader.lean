import SeamlessTunnel.Address.Basic
/-
  SeamlessTunnel.Address.Reader — address texts.

  Two grammars differ in two points, which are the fields of `Grammar`: whether an octet
  may have leading zeros, and whether `::` may stand for no group at all. Everywhere the
  `strict` grammar holds (`ofText?`); interface listings use the `lenient` one.

  Readers take the front of a text and answer with the rest; `ofText?` asks that nothing
  is left.
-/

namespace SeamlessTunnel.Address

open Text (leadingDigits ofDigits)

structure Grammar where
  paddedOctets : Bool
  emptyRun : Bool

namespace Grammar

/-- No leading zeros in an octet, and `::` stands for one group or more. -/
def strict : Grammar := ⟨false, false⟩

/-- Octets of one to three digits, and `::` may stand for no group. -/
def lenient : Grammar := ⟨true, true⟩

end Grammar

/-- One to `maxDigits` digits whose value is below `limit`. -/
def readNumber (base maxDigits limit : Nat) (padded : Bool) (cs : List Char) :
    Option (Nat × List Char) :=
  let (ds, rest) := leadingDigits base cs
  if ds.isEmpty || maxDigits < ds.length || limit ≤ ofDigits base ds then none
  else if !padded && 1 < ds.length && ds.head? = some 0 then none
  else some (ofDigits base ds, rest)

/-- The rest of a text after the character `c`. -/
def readChar (c : Char) : List Char → Option (List Char)
  | d :: rest => if d = c then some rest else none
  | [] => none

/-- `count` octets, with a dot before each but the first. -/
def readOctets (g : Grammar) : Nat → Bool → List Char → Option (List Nat × List Char)
  | 0, _, cs => some ([], cs)
  | count + 1, isFirst, cs => do
    let cs ← if isFirst then some cs else readChar '.' cs
    let (octet, cs) ← readNumber 10 3 256 g.paddedOctets cs
    let (octets, cs) ← readOctets g count false cs
    return (octet :: octets, cs)

/-- A dotted IPv4 address, as a number. -/
def readDotted (g : Grammar) (cs : List Char) : Option (Nat × List Char) :=
  (readOctets g 4 true cs).map fun (os, rest) => (ofOctets os, rest)

/-- Groups read from the front of a text, whether the last two came from a dotted IPv4
    address, and the rest. -/
structure Groups where
  groups : List Nat
  dotted : Bool
  rest : List Char

/-- At most `room` groups, with a colon before each but the first. A dotted IPv4 address
    may stand for the last two; reading stops at the first place that is no group. -/
def readGroups (g : Grammar) : Nat → Bool → List Char → Groups
  | 0, _, cs => ⟨[], false, cs⟩
  | room + 1, isFirst, cs =>
    match (if isFirst then some cs else readChar ':' cs) with
    | none => ⟨[], false, cs⟩
    | some after =>
      match (if 0 < room then readDotted g after else none) with
      | some (n, rest) => ⟨[n / 65536, n % 65536], true, rest⟩
      | none =>
        match readNumber 16 4 65536 true after with
        | none => ⟨[], false, cs⟩
        | some (n, rest) =>
          let more := readGroups g room false rest
          { more with groups := n :: more.groups }

/-- Eight groups, or fewer around one `::`. -/
def readColons (g : Grammar) (cs : List Char) : Option (Nat × List Char) := do
  let head := readGroups g 8 true cs
  if head.groups.length = 8 then
    return (ofGroups head.groups, head.rest)
  else if head.dotted then
    none
  else
    let cs ← readChar ':' head.rest
    let cs ← readChar ':' cs
    let room := 8 - head.groups.length
    let tail := readGroups g (if g.emptyRun then room else room - 1) true cs
    let gap := List.replicate (room - tail.groups.length) 0
    return (ofGroups (head.groups ++ gap ++ tail.groups), tail.rest)

/-- An address of either family at the front of a text. -/
def read (g : Grammar) (cs : List Char) : Option (Address × List Char) :=
  match readDotted g cs with
  | some (n, rest) => some (ofNat .ipv4 n, rest)
  | none => (readColons g cs).map fun (n, rest) => (ofNat .ipv6 n, rest)

/-- The address that the whole text denotes in the strict grammar. -/
def ofChars? (cs : List Char) : Option Address :=
  match read .strict cs with
  | some (a, []) => some a
  | _ => none

def ofText? (s : String) : Option Address :=
  ofChars? s.toList

end SeamlessTunnel.Address
