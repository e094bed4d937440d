import SeamlessTunnel.Proofs.Range.Word
/-
  SeamlessTunnel.Proofs.Range.Merging — one form for each set of addresses.

  What comes out of `merge` depends on nothing but the addresses that the ranges hold: not on
  their order, nor on repeats, overlaps and cuts (`merge_eq_merge_iff`). So it is a normal
  form, also for ranges that end at the last address of the family, where a word cannot
  count one address further (`normalForm_merge`).
-/

namespace SeamlessTunnel.Range

variable {f : Family} {rs ss : List Range}

theorem contains_firstAddress (r : Range) : r.contains r.firstAddress = true := by
  have hspace : r.first < 1 <<< r.family.width := by
    rw [Nat.one_shiftLeft]
    exact Nat.lt_of_le_of_lt r.ordered r.last_lt
  rw [contains_iff, firstAddress, Address.value_ofNat hspace]
  exact ⟨rfl, Nat.le_refl _, r.ordered⟩

/-- No range is empty, so the addresses that ranges hold show their family. -/
theorem ofFamily_of_held (h : OfFamily f rs) (hs : ∀ a : Address, Held ss a → Held rs a) :
    OfFamily f ss := by
  intro s hs'
  obtain ⟨r, hr, ha⟩ := hs s.firstAddress ⟨s, hs', s.contains_firstAddress⟩
  exact (contains_iff.1 ha).1.trans (h r hr)

/-- Ranges are merged to the same list if they hold the same addresses, and only then. -/
theorem merge_eq_merge_iff (h : OfFamily f rs) :
    merge rs = merge ss ↔ ∀ a : Address, Held rs a ↔ Held ss a := by
  constructor
  · intro he a
    have hleft : Held (merge rs) a ↔ Held rs a := held_merge
    rw [← hleft, he, held_merge]
  · intro hheld
    have hss : OfFamily f ss := ofFamily_of_held h fun a => (hheld a).2
    refine (separated_merge h).unique (separated_merge hss) (ofFamily_merge h) (ofFamily_merge hss) ?_
    intro a _
    rw [held_merge, held_merge]
    exact hheld a

/-- What is known of the merged form of ranges of the family `f`. -/
structure NormalForm (f : Family) (rs : List Range) : Prop where
  ofFamily : OfFamily f (merge rs)
  /-- They ascend, and an address is missing between neighbours. -/
  separated : Separated (merge rs)
  held : ∀ a : Address, Held (merge rs) a ↔ Held rs a
  /-- There is no other list like that. -/
  unique : ∀ ns, OfFamily f ns → Separated ns → (∀ a : Address, Held ns a ↔ Held rs a) → ns = merge rs
  /-- Whatever holds the same addresses is merged to the same. -/
  same : ∀ ss, (∀ a : Address, Held ss a ↔ Held rs a) → merge ss = merge rs
  /-- Between words it is the same, and no sum overflows at the last address. -/
  words : WordRange.merge (rs.map toWords) = .ok ((merge rs).map toWords)

/-- Ranges of one family are merged to a normal form. -/
theorem normalForm_merge (h : OfFamily f rs) : NormalForm f rs where
  ofFamily := ofFamily_merge h
  separated := separated_merge h
  held _ := held_merge
  unique _ hf hs hheld :=
    hs.unique (separated_merge h) hf (ofFamily_merge h) fun a _ => (hheld a).trans held_merge.symm
  same _ hheld := ((merge_eq_merge_iff h).2 fun a => (hheld a).symm).symm
  words := merge_toWords h

/-- The two last addresses, the one before them, and the last one again. -/
def lastAddresses : List Range :=
  [⟨.ipv6, 2 ^ 128 - 2, 2 ^ 128 - 1, by decide, by decide⟩,
    ⟨.ipv6, 2 ^ 128 - 3, 2 ^ 128 - 3, by decide, by decide⟩,
    ⟨.ipv6, 2 ^ 128 - 1, 2 ^ 128 - 1, by decide, by decide⟩]

theorem normalForm_lastAddresses : OfFamily .ipv6 lastAddresses ∧ NormalForm .ipv6 lastAddresses ∧
    merge lastAddresses = [⟨.ipv6, 2 ^ 128 - 3, 2 ^ 128 - 1, by decide, by decide⟩] := by
  have hf : OfFamily .ipv6 lastAddresses := by simp [OfFamily, lastAddresses]
  have hsorted : lastAddresses.mergeSort precedes =
      [⟨.ipv6, 2 ^ 128 - 3, 2 ^ 128 - 3, by decide, by decide⟩,
        ⟨.ipv6, 2 ^ 128 - 2, 2 ^ 128 - 1, by decide, by decide⟩,
        ⟨.ipv6, 2 ^ 128 - 1, 2 ^ 128 - 1, by decide, by decide⟩] := by
    simp [lastAddresses, List.mergeSort, List.MergeSort.Internal.splitInTwo, precedes]
  refine ⟨hf, normalForm_merge hf, ?_⟩
  rw [merge, hsorted]
  rfl

end SeamlessTunnel.Range
