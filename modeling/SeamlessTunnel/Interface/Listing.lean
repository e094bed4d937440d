import SeamlessTunnel.Interface.Lines
import SeamlessTunnel.Interface.Objects
/-
  SeamlessTunnel.Interface.Listing — a listing in either format.
-/

namespace SeamlessTunnel.Interface

/-- Reads a listing as JSON if it looks like it, and as lines otherwise. -/
def Listing.ofChars (cs : List Char) : Except VpnError Listing :=
  let cs := Text.trim cs
  if looksLikeJson cs then Listing.ofJson cs else .ok (.ofLines cs)

end SeamlessTunnel.Interface
