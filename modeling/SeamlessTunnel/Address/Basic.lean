import SeamlessTunnel.Text.Numeral
/-
  SeamlessTunnel.Address.Basic — the two address families, and addresses as numbers.

  An address is a number below `1 <<< width` of its family. `ofNat` keeps the low bits of a
  number, `octets` and `groups` are the parts from which its text is made.
-/

namespace SeamlessTunnel

inductive Family where
  | ipv4
  | ipv6
  deriving DecidableEq, Repr

namespace Family

/-- The number of bits of an address. -/
def width : Family → Nat
  | ipv4 => 32
  | ipv6 => 128

theorem width_le (f : Family) : f.width ≤ 128 := by
  cases f <;> decide

def byteLength (f : Family) : Nat :=
  f.width / 8

/-- The largest address. -/
def maxValue (f : Family) : Nat :=
  (1 <<< f.width) - 1

def text : Family → String
  | ipv4 => "ipv4"
  | ipv6 => "ipv6"

/-- The short name used in stored data. -/
def tag : Family → String
  | ipv4 => "v4"
  | ipv6 => "v6"

def ofTag? : String → Option Family
  | "v4" => some ipv4
  | "v6" => some ipv6
  | _ => none

end Family

/-- An address of one family. -/
structure Address where
  family : Family
  value : Nat
  isLt : value < 1 <<< family.width
  deriving DecidableEq, Repr

namespace Address

/-- The address made of the low bits of a number. -/
def ofNat (f : Family) (n : Nat) : Address :=
  ⟨f, n % (1 <<< f.width), Nat.mod_lt _ (Nat.one_shiftLeft _ ▸ Nat.two_pow_pos _)⟩

@[simp] theorem family_ofNat (f : Family) (n : Nat) : (ofNat f n).family = f := rfl

@[simp] theorem value_ofNat {f : Family} {n : Nat} (h : n < 1 <<< f.width) :
    (ofNat f n).value = n := Nat.mod_eq_of_lt h

theorem ofNat_value (a : Address) : ofNat a.family a.value = a := by
  cases a with
  | mk f v h => simp [ofNat, Nat.mod_eq_of_lt h]

/-- Whether this is the address whose bits are all zero. -/
def isUnspecified (a : Address) : Bool :=
  a.value = 0

/-- The four octets of the low 32 bits, the highest first. -/
def octets (n : Nat) : List Nat :=
  [n >>> 24 % 256, n >>> 16 % 256, n >>> 8 % 256, n % 256]

/-- The eight 16-bit groups of the low 128 bits, the highest first. -/
def groups (n : Nat) : List Nat :=
  [n >>> 112 % 65536, n >>> 96 % 65536, n >>> 80 % 65536, n >>> 64 % 65536, n >>> 48 % 65536,
    n >>> 32 % 65536, n >>> 16 % 65536, n % 65536]

/-- The number made of octets, the highest first. -/
def ofOctets (os : List Nat) : Nat :=
  Text.ofDigits 256 os

/-- The number made of groups, the highest first. -/
def ofGroups (gs : List Nat) : Nat :=
  Text.ofDigits 65536 gs

end Address

end SeamlessTunnel
