import SeamlessTunnel.Range.Basic
/-
  SeamlessTunnel.Range.Blocks — a range as a list of prefixes.

  Each step takes the largest block that starts at the current address, is aligned on its
  own size and does not run past the end (`blockBits`).
-/

namespace SeamlessTunnel.Range

/-- The number of zero bits at the low end. -/
def trailingZeros (n : Nat) : Nat :=
  if n % 2 = 1 ∨ n = 0 then 0 else trailingZeros (n / 2) + 1
termination_by n
decreasing_by omega

/-- The width of the largest block aligned at `n`. -/
def alignedBits (width n : Nat) : Nat :=
  if n = 0 then width else min (trailingZeros n) width

/-- The width of the largest block that starts at `cur`, aligned on its size and ending by
    `last`. -/
def blockBits (width cur last : Nat) : Nat :=
  min (alignedBits width cur) (last - cur + 1).log2

/-- The prefix of the block of `1 <<< bits` addresses at `n`. -/
def blockAt (f : Family) (n bits : Nat) : Prefix :=
  ⟨.ofNat f n, f.width - bits, Nat.sub_le _ _⟩

/-- The blocks from `cur` to `last`. -/
def blocksFrom (f : Family) (cur last : Nat) : List Prefix :=
  let bits := blockBits f.width cur last
  if cur + ((1 <<< bits) - 1) < last then
    blockAt f cur bits :: blocksFrom f (cur + (1 <<< bits)) last
  else [blockAt f cur bits]
termination_by last - cur
decreasing_by
  have := Nat.two_pow_pos (blockBits f.width cur last)
  rw [← Nat.one_shiftLeft] at this
  omega

/-- The range as aligned blocks in ascending order. -/
def toPrefixes (r : Range) : List Prefix :=
  blocksFrom r.family r.first r.last

end SeamlessTunnel.Range
