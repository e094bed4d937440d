import SeamlessTunnel.Address.Basic
/-
  SeamlessTunnel.Address.Printer — the text of an address.

  IPv4 is dotted decimal. IPv6 is eight groups in lower-case hexadecimal; the first of the
  longest runs of two or more zero groups is written `::`, and the addresses that embed
  an IPv4 address after `::ffff:` write that part dotted.
-/

namespace SeamlessTunnel.Address

/-- Texts with a separator between neighbours. -/
def joined (sep : Char) : List (List Char) → List Char
  | [] => []
  | [t] => t
  | t :: ts => t ++ sep :: joined sep ts

def dotted (n : Nat) : List Char :=
  joined '.' ((octets n).map Text.decimal)

/-- Groups in hexadecimal, separated by colons. -/
def hexGroups (gs : List Nat) : List Char :=
  joined ':' (gs.map (Text.render 16))

/-- The number of zero groups at the front. -/
def zerosAhead (gs : List Nat) : Nat :=
  (gs.takeWhile (· = 0)).length

/-- Start and length of the first of the longest runs of zero groups. -/
def longestZeroRun (gs : List Nat) : Nat × Nat :=
  (List.range gs.length).foldl
    (fun best i => if zerosAhead (gs.drop i) > best.2 then (i, zerosAhead (gs.drop i)) else best)
    (0, 0)

/-- Eight groups, the first longest run of at least two zero groups written `::`. -/
def compressed (gs : List Nat) : List Char :=
  let run := longestZeroRun gs
  if run.2 < 2 then hexGroups gs
  else hexGroups (gs.take run.1) ++ ':' :: ':' :: hexGroups (gs.drop (run.1 + run.2))

/-- Whether the groups are those of an embedded IPv4 address. -/
def isMapped (gs : List Nat) : Bool :=
  gs.take 6 = [0, 0, 0, 0, 0, 65535]

def render (a : Address) : List Char :=
  match a.family with
  | .ipv4 => dotted a.value
  | .ipv6 =>
    if isMapped (groups a.value) then "::ffff:".toList ++ dotted a.value
    else compressed (groups a.value)

def text (a : Address) : String :=
  String.ofList a.render

end SeamlessTunnel.Address
