import SeamlessTunnel.Range.Blocks
import SeamlessTunnel.Range.Set
/-
  SeamlessTunnel.Range.Word — ranges between machine words.

  What a machine does for the operations on ranges. The bounds are words of 128 bits and need
  not be in order; numbers of bits are bytes. Arithmetic is checked: there is a fault where a
  result does not fit, where a word is shifted by its whole width, and where something is met
  that was ruled out (`WordFault`).

  The loop that writes a range in blocks is not known to end. `ComesTo` says what comes of it
  if it does.
-/

namespace SeamlessTunnel

abbrev Word := BitVec 128

inductive WordFault where
  | underflow
  | overflow
  | longShift
  /-- A prefix longer than the addresses of its family. -/
  | longPrefix
  | mixedFamilies
  deriving DecidableEq, Repr

abbrev Checked := Except WordFault

def Address.word (a : Address) : Word :=
  .ofNat 128 a.value

def Family.byteWidth : Family → BitVec 8
  | .ipv4 => 32#8
  | .ipv6 => 128#8

/-- The largest address. -/
def Family.maxWord : Family → Word
  | .ipv4 => (BitVec.allOnes 32).setWidth 128
  | .ipv6 => .allOnes 128

namespace Word

/-! ## Arithmetic -/

section

variable {w : Nat}

def add (a b : BitVec w) : Checked (BitVec w) :=
  if a.uaddOverflow b then throw .overflow else pure (a + b)

def sub (a b : BitVec w) : Checked (BitVec w) :=
  if a.usubOverflow b then throw .underflow else pure (a - b)

/-- The sum, or the largest word where it does not fit. -/
def saturatingAdd (a b : BitVec w) : BitVec w :=
  if a.uaddOverflow b then .allOnes w else a + b

def lesser (a b : BitVec w) : BitVec w :=
  if a ≤ b then a else b

def greater (a b : BitVec w) : BitVec w :=
  if a ≤ b then b else a

end

def shiftLeft (a : Word) (n : BitVec 8) : Checked Word :=
  if 128#8 ≤ n then throw .longShift else pure (a <<< n)

/-- The word whose `n` low bits are set. -/
def lowBits (n : BitVec 8) : Checked Word :=
  if 128#8 ≤ n then pure (.allOnes 128) else do sub (← shiftLeft 1#128 n) 1#128

end Word

/-- Two bounds of one family, in any order. -/
structure WordRange where
  family : Family
  first : Word
  last : Word
  deriving DecidableEq, Repr

/-- The range between two numbers as one between words. -/
def Range.toWords (r : Range) : WordRange :=
  ⟨r.family, .ofNat 128 r.first, .ofNat 128 r.last⟩

namespace WordRange

open Word

/-! ## Single ranges -/

def ofBounds (f : Family) (first last : Word) : Except RouteError WordRange :=
  if last < first then .error (.invalidRange f .reversed)
  else if f.maxWord < last then .error (.invalidRange f .beyondSpace)
  else .ok ⟨f, first, last⟩

def ofAddresses (first last : Address) : Except RouteError WordRange :=
  if last.family = first.family then ofBounds first.family first.word last.word
  else .error (.invalidRange first.family .mixedFamilies)

def ofPrefix (p : Prefix) : Checked WordRange := do
  let mask ← lowBits (← sub p.family.byteWidth (.ofNat 8 p.length))
  let first := p.address.word &&& ~~~mask
  pure ⟨p.family, first, first ||| mask⟩

def overlaps (r s : WordRange) : Bool :=
  r.family = s.family && r.first ≤ s.last && s.first ≤ r.last

def before (r s : WordRange) : Checked (List WordRange) :=
  if r.first < s.first then do pure [⟨r.family, r.first, ← sub s.first 1#128⟩] else pure []

def after (r s : WordRange) : Checked (List WordRange) :=
  if s.last < r.last then do pure [⟨r.family, ← add s.last 1#128, r.last⟩] else pure []

def subtract (r s : WordRange) : Checked (List WordRange) :=
  if r.overlaps s then do pure ((← r.before s) ++ (← r.after s)) else pure [r]

/-! ## Blocks -/

/-- The width of the largest block aligned at `cur`. -/
def alignedBits (f : Family) (cur : Word) : BitVec 8 :=
  if cur = 0#128 then f.byteWidth else lesser (cur.ctz.setWidth 8) f.byteWidth

/-- The width of the largest block that fits between `cur` and `last`. -/
def fittingBits (cur last : Word) : Checked (BitVec 8) := do
  let span ← sub last cur
  if span = .allOnes 128 then pure 128#8
  else
    let leadingZeros : BitVec 32 := (← add span 1#128).clz.setWidth 32
    pure ((← sub 127#32 leadingZeros).setWidth 8)

def blockAt (f : Family) (n : Word) (length : BitVec 8) : Checked Prefix :=
  if h : length.toNat ≤ f.width then pure ⟨.ofNat f n.toNat, length.toNat, h⟩
  else throw .longPrefix

/-- One turn of the loop: the block at `cur`, and where the next one starts unless this is the
    last. -/
def turn (f : Family) (cur last : Word) : Checked (Prefix × Option Word) := do
  let bits := lesser (alignedBits f cur) (← fittingBits cur last)
  let block ← blockAt f cur (← sub f.byteWidth bits)
  let blockLast := cur ||| (← lowBits bits)
  if last ≤ blockLast then pure (block, none)
  else do pure (block, some (← add blockLast 1#128))

/-- What comes of the turns from `cur` on. -/
inductive Turns (f : Family) (last : Word) : Word → Checked (List Prefix) → Prop
  | done {cur : Word} {block : Prefix} (h : turn f cur last = .ok (block, none)) :
      Turns f last cur (.ok [block])
  | next {cur next : Word} {block : Prefix} {rest : Checked (List Prefix)}
      (h : turn f cur last = .ok (block, some next)) (hr : Turns f last next rest) :
      Turns f last cur (rest.map (block :: ·))
  | fault {cur : Word} {e : WordFault} (h : turn f cur last = .error e) :
      Turns f last cur (.error e)

/-- Whether the loop ends for a range, with these prefixes or this fault. -/
def ComesTo (r : WordRange) (x : Checked (List Prefix)) : Prop :=
  Turns r.family r.last r.first x

/-! ## Lists of ranges -/

/-- Order by first word, then by last. -/
def precedes (r s : WordRange) : Bool :=
  r.first < s.first || (r.first = s.first && r.last ≤ s.last)

def joinSorted (r : WordRange) : List WordRange → List WordRange
  | [] => [r]
  | s :: rest =>
    if s.first ≤ saturatingAdd r.last 1#128 then
      joinSorted { r with last := greater r.last s.last } rest
    else r :: joinSorted s rest

/-- Joins ranges that overlap or touch. All are of one family. -/
def merge (rs : List WordRange) : Checked (List WordRange) :=
  if (rs.zip rs.tail).all fun q => q.1.family = q.2.family then
    match rs.mergeSort precedes with
    | [] => pure []
    | r :: rest => pure (joinSorted r rest)
  else throw .mixedFamilies

/-- What `cuts` leave of `rest`. Nothing is left of nothing. -/
def subtractAll (rest : List WordRange) : List WordRange → Checked (List WordRange)
  | [] => pure rest
  | cut :: cuts => do
    let rest := (← rest.mapM (·.subtract cut)).flatten
    if rest.isEmpty then pure [] else subtractAll rest cuts

def subtractList (rs cuts : List WordRange) : Checked (List WordRange) :=
  if rs.isEmpty then pure []
  else if cuts.isEmpty then pure rs
  else do merge (← rs.mapM fun r => subtractAll [r] cuts).flatten

end WordRange

end SeamlessTunnel
