import SeamlessTunnel.Interface.Basic
import SeamlessTunnel.Json.Reader
import SeamlessTunnel.Settings.Error
/-
  SeamlessTunnel.Interface.Objects — the listing as a JSON array.

  An interface is an object, or an array of its fields in order; the same holds of an
  address. A field that is left out has a value of its own (`Field`), a field given twice or
  of the wrong kind spoils the whole listing, and unknown fields are passed over. An
  interface without a name is skipped.
-/

namespace SeamlessTunnel.Interface

/-! ## Fields -/

/-- A reader of a field, and the value of a field that is left out. -/
structure Field (α : Type) where
  key : String
  absent : α
  read : Json → Option α

def stringField (key : String) : Field String :=
  ⟨key, "", fun
    | .string (some cs) => some (String.ofList cs)
    | _ => none⟩

def boolField (key : String) : Field Bool :=
  ⟨key, false, fun
    | .bool b => some b
    | _ => none⟩

def wordField (key : String) : Field UInt32 :=
  ⟨key, 0, fun
    | .int n => if 0 ≤ n && n < UInt32.size then some (UInt32.ofNat n.toNat) else none
    | _ => none⟩

def integerField (key : String) : Field Int :=
  ⟨key, 0, fun
    | .int n => if n ≤ Int64.maxValue.toInt then some n else none
    | _ => none⟩

def listField {α : Type} (key : String) (read : Json → Option α) : Field (List α) :=
  ⟨key, [], fun
    | .array items => items.mapM read
    | _ => none⟩

/-- The fields of a record by their keys: given in an object by name, or in an array by
    place. Of an object all keys are texts, and none of `keys` comes twice; an array is not
    longer than `keys`. -/
def fieldsOf (keys : List String) : Json → Option (List (String × Json))
  | .object fields => do
    let named ← fields.mapM fun (key, v) => key.map fun k => (String.ofList k, v)
    let known := named.filter fun (k, _) => keys.contains k
    if (known.map (·.1)).Nodup then some known else none
  | .array items => if items.length ≤ keys.length then some (keys.zip items) else none
  | _ => none

/-- The value of a field. -/
def Field.get {α : Type} (f : Field α) (fields : List (String × Json)) : Option α :=
  match fields.lookup f.key with
  | some v => f.read v
  | none => some f.absent

/-! ## Addresses -/

/-- An address as it is listed. -/
structure ListedAddress where
  ip : String
  length : Int
  deriving DecidableEq, Repr

def ipField : Field String := stringField "ip"

def lengthField : Field Int := integerField "prefixLen"

def listedAddress (v : Json) : Option ListedAddress := do
  let fields ← fieldsOf [ipField.key, lengthField.key] v
  return { ip := ← ipField.get fields, length := ← lengthField.get fields }

/-- The address that is meant. A zone needs an IPv6 address and leaves no length; a length
    out of bounds is dropped. -/
def ListedAddress.meaning (a : ListedAddress) : Option InterfaceAddress :=
  match Text.cutAt '%' a.ip.toList with
  | some (ip, zone) =>
    match Address.ofChars? ip with
    | some address =>
      if zone.isEmpty || address.family = .ipv4 then none
      else some (.bare address (some (String.ofList zone)))
    | none => none
  | none =>
    (Address.ofText? a.ip).map fun address =>
      if h : 0 ≤ a.length ∧ a.length ≤ address.family.width then
        .prefixed ⟨address, a.length.toNat, by omega⟩
      else .bare address none

/-! ## Interfaces -/

def nameField : Field String := stringField "name"
def indexField : Field UInt32 := wordField "index"
def mtuField : Field UInt32 := wordField "mtu"
def upField : Field Bool := boolField "up"
def broadcastField : Field Bool := boolField "broadcast"
def loopbackField : Field Bool := boolField "loopback"
def pointToPointField : Field Bool := boolField "pointToPoint"
def multicastField : Field Bool := boolField "multicast"
def addressesField : Field (List ListedAddress) := listField "addrs" listedAddress

/-- The keys of an interface, in the order of an array. -/
def interfaceKeys : List String :=
  [nameField.key, indexField.key, mtuField.key, upField.key, broadcastField.key,
    loopbackField.key, pointToPointField.key, multicastField.key, addressesField.key]

/-- An interface as it is listed. -/
def readObject (v : Json) : Option Entry := do
  let fields ← fieldsOf interfaceKeys v
  let interface : Interface := {
    name := ← nameField.get fields
    index := ← indexField.get fields
    mtu := ← mtuField.get fields
    flags := {
      up := ← upField.get fields
      broadcast := ← broadcastField.get fields
      loopback := ← loopbackField.get fields
      pointToPoint := ← pointToPointField.get fields
      multicast := ← multicastField.get fields } }
  return { interface, readings := (← addressesField.get fields).map (·.meaning) }

/-- Reads a JSON listing. -/
def readListing (cs : List Char) : Option Listing := do
  match ← Json.ofChars? cs with
  | .array items =>
    let entries ← items.mapM readObject
    return .ofEntries .countAll
      (entries.map fun e => if e.interface.name.isEmpty then none else some e)
  | _ => none

/-- Whether a text looks like JSON. -/
def looksLikeJson (cs : List Char) : Bool :=
  cs.head? = some '[' || cs.head? = some '\x7b'

/-- Reads a JSON listing; nothing but blanks is an empty one. -/
def Listing.ofJson (cs : List Char) : Except VpnError Listing :=
  let cs := Text.trim cs
  if cs.isEmpty then .ok {}
  else if !looksLikeJson cs then .error .notJson
  else
    match readListing cs with
    | some listing => .ok listing
    | none => .error (.listing "not a list of interfaces")

end SeamlessTunnel.Interface
