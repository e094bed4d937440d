import SeamlessTunnel.Prefix.Basic
/-
  SeamlessTunnel.Interface.Basic — network interfaces, and the outcome of reading a listing.

  A listing is a list of entries. An entry that cannot be read is skipped, and so is an
  address that cannot be read; `Listing.note` takes in one entry and counts both. The two
  formats count the addresses of an interface in different ways (`Tally.countEach`,
  `Tally.countAll`).
-/

namespace SeamlessTunnel

structure InterfaceFlags where
  up : Bool := false
  broadcast : Bool := false
  loopback : Bool := false
  pointToPoint : Bool := false
  multicast : Bool := false
  deriving DecidableEq, Repr

inductive InterfaceAddress where
  | prefixed (p : Prefix)
  /-- An address without a usable length, with the zone of an IPv6 address. -/
  | bare (address : Address) (zone : Option String)
  deriving DecidableEq, Repr

namespace InterfaceAddress

def address : InterfaceAddress → Address
  | prefixed p => p.address
  | bare a _ => a

def text : InterfaceAddress → String
  | prefixed p => p.text
  | bare a (some zone) => s!"{a.text}%{zone}"
  | bare a none => a.text

end InterfaceAddress

structure Interface where
  name : String
  index : UInt32
  mtu : UInt32
  flags : InterfaceFlags
  addresses : List InterfaceAddress := []
  deriving DecidableEq, Repr

namespace Interface

/-- How many there were, how many were kept and how many skipped. -/
structure Tally where
  total : Nat := 0
  parsed : Nat := 0
  skipped : Nat := 0
  deriving DecidableEq, Repr

/-- More of them are seen. -/
def Tally.see (t : Tally) (n : Nat) : Tally :=
  { t with total := t.total + n }

/-- One of those that were seen is kept, or skipped because it could not be read. -/
def Tally.settle {α : Type} (t : Tally) : Option α → Tally
  | some _ => { t with parsed := t.parsed + 1 }
  | none => { t with skipped := t.skipped + 1 }

/-- One more is seen, and kept or skipped. -/
def Tally.count {α : Type} (t : Tally) (r : Option α) : Tally :=
  (t.see 1).settle r

/-- Each is seen when it is its turn. -/
def Tally.countEach {α : Type} (t : Tally) (rs : List (Option α)) : Tally :=
  rs.foldl count t

/-- All are seen at once, before the first of them is kept or skipped. -/
def Tally.countAll {α : Type} (t : Tally) (rs : List (Option α)) : Tally :=
  rs.foldl settle (t.see rs.length)

/-- An interface without its addresses, and what was read of each address. -/
structure Entry where
  interface : Interface
  readings : List (Option InterfaceAddress)
  deriving DecidableEq, Repr

/-- The interface with the addresses that could be read. -/
def Entry.complete (e : Entry) : Interface :=
  { e.interface with addresses := e.readings.filterMap id }

structure Stats where
  interfaces : Tally := {}
  addresses : Tally := {}
  deriving DecidableEq, Repr

def Stats.text (s : Stats) : String :=
  s!"interfaces {s.interfaces.parsed}/{s.interfaces.total} ({s.interfaces.skipped} skipped), " ++
  s!"addresses {s.addresses.parsed}/{s.addresses.total} ({s.addresses.skipped} skipped)"

/-- The interfaces that were kept, and the counts. -/
structure Listing where
  interfaces : List Interface := []
  stats : Stats := {}
  deriving DecidableEq, Repr

/-- Takes in one more entry. The addresses of one that cannot be read do not count; those of
    one that is kept are counted by `count`. -/
def Listing.note (count : Tally → List (Option InterfaceAddress) → Tally) (l : Listing) :
    Option Entry → Listing
  | some e =>
    { interfaces := l.interfaces ++ [e.complete]
      stats := ⟨l.stats.interfaces.count (some e), count l.stats.addresses e.readings⟩ }
  | none => { l with stats.interfaces := l.stats.interfaces.count (none : Option Entry) }

/-- Takes in one entry after the other. -/
def Listing.ofEntries (count : Tally → List (Option InterfaceAddress) → Tally)
    (es : List (Option Entry)) : Listing :=
  es.foldl (note count) {}

end Interface

end SeamlessTunnel
