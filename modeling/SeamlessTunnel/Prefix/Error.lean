import SeamlessTunnel.Address.Basic
/-
  SeamlessTunnel.Prefix.Error — why a prefix or a range is refused.

  Faults are causes; `message` holds all wording. `isInputFault` is true of every error
  here, because each is found in what the caller handed in.
-/

namespace SeamlessTunnel

/-- What is wrong with a prefix text. -/
inductive PrefixFault where
  | empty
  | address
  | length
  | other (reason : String)
  deriving DecidableEq, Repr

/-- What is wrong with the bounds of a range. -/
inductive RangeFault where
  | reversed
  | beyondSpace
  | mixedFamilies
  | other (reason : String)
  deriving DecidableEq, Repr

inductive RouteError where
  | invalidPrefix (input : String) (fault : PrefixFault)
  | prefixLength (length max : Nat) (family : Family)
  | invalidRange (family : Family) (fault : RangeFault)
  deriving DecidableEq, Repr

def PrefixFault.reason : PrefixFault → String
  | empty => "empty"
  | address => "invalid IP address syntax"
  | length => "prefix length is not a number"
  | other reason => reason

def RangeFault.reason : RangeFault → String
  | reversed => "start is after end"
  | beyondSpace => "end exceeds the address space"
  | mixedFamilies => "mixed address families"
  | other reason => reason

namespace RouteError

def message : RouteError → String
  | invalidPrefix input fault => s!"Invalid prefix '{input}': {fault.reason}"
  | prefixLength length max family => s!"Prefix length {length} exceeds {max} for {family.text}"
  | invalidRange family fault => s!"Invalid {family.text} range: {fault.reason}"

/-- Whether the caller's input is at fault. -/
def isInputFault : RouteError → Bool
  | invalidPrefix _ _ | prefixLength _ _ _ | invalidRange _ _ => true

end RouteError

end SeamlessTunnel
