import SeamlessTunnel.Prefix.Basic
/-
  SeamlessTunnel.Range.Basic — inclusive ranges of addresses of one family.

  A range is never empty and never leaves its address space; both are fields. `subtract`
  leaves at most the part before and the part after what is taken away.
-/

namespace SeamlessTunnel

structure Range where
  family : Family
  first : Nat
  last : Nat
  ordered : first ≤ last
  inSpace : last ≤ family.maxValue
  deriving DecidableEq, Repr

namespace Range

/-- The range between two numbers. Order is judged before size. -/
def ofBounds (f : Family) (first last : Nat) : Except RouteError Range :=
  if h : first ≤ last then
    if h' : last ≤ f.maxValue then .ok ⟨f, first, last, h, h'⟩
    else .error (.invalidRange f .beyondSpace)
  else .error (.invalidRange f .reversed)

def ofAddresses (first last : Address) : Except RouteError Range :=
  if last.family = first.family then ofBounds first.family first.value last.value
  else .error (.invalidRange first.family .mixedFamilies)

/-- The last number of a block of `1 <<< k` numbers inside a space of `1 <<< w`. -/
theorem block_last_lt {n k w : Nat} (hn : n < 1 <<< w) (hk : k ≤ w) :
    n >>> k <<< k + ((1 <<< k) - 1) < 1 <<< w := by
  rw [Nat.one_shiftLeft] at hn
  rw [Nat.one_shiftLeft, Nat.one_shiftLeft, Nat.shiftLeft_eq, Nat.shiftRight_eq_div_pow]
  obtain ⟨d, rfl⟩ := Nat.exists_eq_add_of_le hk
  rw [Nat.pow_add] at hn ⊢
  have hpos : 0 < 2 ^ k := Nat.two_pow_pos k
  have hlt : n / 2 ^ k < 2 ^ d := by
    rw [Nat.div_lt_iff_lt_mul hpos, Nat.mul_comm]; exact hn
  have hle : (n / 2 ^ k + 1) * 2 ^ k ≤ 2 ^ d * 2 ^ k := Nat.mul_le_mul_right _ hlt
  rw [Nat.add_mul, Nat.one_mul, Nat.mul_comm (2 ^ d)] at hle
  omega

/-- The addresses that share the leading bits of a prefix. -/
def ofPrefix (p : Prefix) : Range where
  family := p.family
  first := p.address.value >>> p.hostBits <<< p.hostBits
  last := p.address.value >>> p.hostBits <<< p.hostBits + ((1 <<< p.hostBits) - 1)
  ordered := Nat.le_add_right _ _
  inSpace := Nat.le_sub_one_of_lt (block_last_lt p.address.isLt (Nat.sub_le _ _))

def firstAddress (r : Range) : Address :=
  .ofNat r.family r.first

def lastAddress (r : Range) : Address :=
  .ofNat r.family r.last

def text (r : Range) : String :=
  s!"{r.firstAddress.text}-{r.lastAddress.text}"

def contains (r : Range) (a : Address) : Bool :=
  a.family = r.family && r.first ≤ a.value && a.value ≤ r.last

def overlaps (r s : Range) : Bool :=
  r.family = s.family && r.first ≤ s.last && s.first ≤ r.last

/-- The part of `r` before `s`. -/
def before (r s : Range) : List Range :=
  if h : r.first < s.first ∧ s.first ≤ r.last then
    [⟨r.family, r.first, s.first - 1, by omega, by have := r.inSpace; omega⟩]
  else []

/-- The part of `r` after `s`. -/
def after (r s : Range) : List Range :=
  if h : s.last < r.last then
    [⟨r.family, s.last + 1, r.last, by omega, r.inSpace⟩]
  else []

/-- What `s` leaves of `r`: all of it when they share nothing. -/
def subtract (r s : Range) : List Range :=
  if r.overlaps s then r.before s ++ r.after s else [r]

end Range

end SeamlessTunnel
