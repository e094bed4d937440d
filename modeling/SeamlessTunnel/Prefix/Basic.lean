import SeamlessTunnel.Prefix.Error
import SeamlessTunnel.Address.Printer
import SeamlessTunnel.Address.Reader
import SeamlessTunnel.Text.Blank
/-
  SeamlessTunnel.Prefix.Basic — prefixes: an address and a number of leading bits.

  Host bits, those after the leading ones, are kept; `network` clears them. `ofText?` reads
  one prefix (a bare address is a prefix of full length), `listOfText?` a list separated by
  commas and blanks, `ofListing?` the prefix of an interface listing.
-/

namespace SeamlessTunnel

structure Prefix where
  address : Address
  length : Nat
  le_width : length ≤ address.family.width
  deriving DecidableEq, Repr

namespace Prefix

def family (p : Prefix) : Family :=
  p.address.family

/-- The prefix that holds one address. -/
def ofAddress (a : Address) : Prefix :=
  ⟨a, a.family.width, Nat.le_refl _⟩

/-- A prefix of `length` leading bits. -/
def ofParts (a : Address) (length : Nat) : Except RouteError Prefix :=
  if h : length ≤ a.family.width then .ok ⟨a, length, h⟩
  else .error (.prefixLength length a.family.width a.family)

/-- The number of bits after the leading ones. -/
def hostBits (p : Prefix) : Nat :=
  p.family.width - p.length

/-- The address with its host bits cleared. -/
def network (p : Prefix) : Address :=
  .ofNat p.family (p.address.value >>> p.hostBits <<< p.hostBits)

def chars (p : Prefix) : List Char :=
  p.address.render ++ '/' :: Text.decimal p.length

def text (p : Prefix) : String :=
  String.ofList p.chars

/-- Reads one prefix, blanks around it ignored. The address is judged before the
    length. -/
def ofChars? (cs : List Char) : Except RouteError Prefix :=
  let cs := Text.trim cs
  let refuse (fault : PrefixFault) : Except RouteError Prefix :=
    .error (.invalidPrefix (String.ofList cs) fault)
  if cs.isEmpty then refuse .empty
  else
    match Text.cutAt '/' cs with
    | none =>
      match Address.ofChars? cs with
      | none => refuse .address
      | some a => .ok (ofAddress a)
    | some (before, after) =>
      match Address.ofChars? before with
      | none => refuse .address
      | some a =>
        match Text.natural? 255 after with
        | none => refuse .length
        | some length => ofParts a length

def ofText? (s : String) : Except RouteError Prefix :=
  ofChars? s.toList

/-- Whether `c` separates the prefixes of a list. -/
def isSeparator (c : Char) : Bool :=
  c = ',' || Text.isBlank c

/-- Reads prefixes separated by commas and blanks; the first bad one is the error. -/
def listOfChars? (cs : List Char) : Except RouteError (List Prefix) :=
  (Text.wordsAt isSeparator cs).mapM ofChars?

def listOfText? (s : String) : Except RouteError (List Prefix) :=
  listOfChars? s.toList

/-- The length after a slash, of at most `maxDigits` digits. -/
def readLength (maxDigits : Nat) (f : Family) (cs : List Char) : Option (Nat × List Char) := do
  let cs ← Address.readChar '/' cs
  Address.readNumber 10 maxDigits (f.width + 1) true cs

/-- The prefix that a whole text denotes in the lenient grammar, in which the length may
    not be left out. -/
def ofListing? (cs : List Char) : Option Prefix :=
  let whole (found : Option (Address × List Char)) (maxDigits : Nat) : Option Prefix := do
    let (a, rest) ← found
    match readLength maxDigits a.family rest with
    | some (length, []) => (ofParts a length).toOption
    | _ => none
  let dotted := (Address.readDotted .lenient cs).map fun (n, rest) => (Address.ofNat .ipv4 n, rest)
  let colons := (Address.readColons .lenient cs).map fun (n, rest) => (Address.ofNat .ipv6 n, rest)
  (whole dotted 2).or (whole colons 3)

end Prefix

end SeamlessTunnel
