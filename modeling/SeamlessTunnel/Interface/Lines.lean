import SeamlessTunnel.Interface.Basic
/-
  SeamlessTunnel.Interface.Lines — the listing with one interface a line.

  A line is eight fields, a bar and the addresses: name, index, MTU and the five flags
  up, broadcast, loopback, point-to-point and multicast. Blank lines do not count.
-/

namespace SeamlessTunnel

/-- The lines of a text. A line ends at a line feed, with one carriage return before it;
    nothing after the last line feed is no line. -/
def Text.lines (cs : List Char) : List (List Char) :=
  let ps := Text.pieces (· = '\n') cs
  let ended := ps.dropLast.map fun l => if l.getLast? = some '\r' then l.dropLast else l
  match ps.getLast? with
  | some (c :: rest) => ended ++ [c :: rest]
  | _ => ended

namespace Interface

def readFlag : List Char → Option Bool
  | ['t', 'r', 'u', 'e'] => some true
  | ['f', 'a', 'l', 's', 'e'] => some false
  | _ => none

def readWord (cs : List Char) : Option UInt32 :=
  (Text.natural? (UInt32.size - 1) cs).map UInt32.ofNat

/-- The fields before the bar. -/
def readHeader (cs : List Char) : Option Interface :=
  match Text.words cs with
  | [name, index, mtu, up, broadcast, loopback, pointToPoint, multicast] => do
    return {
      name := String.ofList name
      index := ← readWord index
      mtu := ← readWord mtu
      flags := {
        up := ← readFlag up
        broadcast := ← readFlag broadcast
        loopback := ← readFlag loopback
        pointToPoint := ← readFlag pointToPoint
        multicast := ← readFlag multicast } }
  | _ => none

/-- One line: exactly one bar, and fields before it. -/
def readLine (cs : List Char) : Option Entry :=
  match Text.pieces (· = '|') cs with
  | [header, addresses] =>
    (readHeader header).map fun interface =>
      { interface
        readings := (Text.words addresses).map fun w => (Prefix.ofListing? w).map .prefixed }
  | _ => none

/-- Reads a listing of lines. -/
def Listing.ofLines (cs : List Char) : Listing :=
  .ofEntries .countEach (((Text.lines cs).filter fun l => !l.all Text.isBlank).map readLine)

end Interface

end SeamlessTunnel
