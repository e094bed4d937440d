import SeamlessTunnel.Range.Basic
/-
  SeamlessTunnel.Range.Set — lists of ranges as sets of addresses.

  `merge` sorts and joins what overlaps or touches; `subtract` takes a list of ranges away
  from another. Lists are of one family.
-/

namespace SeamlessTunnel.Range

/-- Order by first address, then by last. -/
def precedes (r s : Range) : Bool :=
  r.first < s.first || (r.first = s.first && r.last ≤ s.last)

/-- The range from the start of `r` to the farther of the two ends. -/
def extend (r s : Range) (h : r.family = s.family) : Range where
  family := r.family
  first := r.first
  last := max r.last s.last
  ordered := Nat.le_trans r.ordered (Nat.le_max_left _ _)
  inSpace := by
    have := r.inSpace
    have hs := s.inSpace
    rw [← h] at hs
    omega

/-- Joins sorted ranges: one that starts inside or right behind the range in hand extends
    it, any other takes its place. -/
def joinSorted (r : Range) : List Range → List Range
  | [] => [r]
  | s :: rest =>
    if h : r.family = s.family ∧ s.first ≤ r.last + 1 then joinSorted (r.extend s h.1) rest
    else r :: joinSorted s rest

/-- Sorted ranges with at least one missing address between neighbours. -/
def merge (rs : List Range) : List Range :=
  match rs.mergeSort precedes with
  | [] => []
  | r :: rest => joinSorted r rest

/-- What all of `cuts` together leave of `r`. -/
def subtractAll (r : Range) (cuts : List Range) : List Range :=
  cuts.foldl (fun rest cut => rest.flatMap (·.subtract cut)) [r]

/-- What `cuts` leave of `rs`, merged. With nothing to take away `rs` stays as it is. -/
def subtractList (rs cuts : List Range) : List Range :=
  if cuts.isEmpty then rs
  else merge (rs.flatMap (·.subtractAll cuts))

end SeamlessTunnel.Range
