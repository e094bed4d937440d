import Mathlib.Data.List.Sort
import SeamlessTunnel.Proofs.Range.Coverage
/-
  SeamlessTunnel.Proofs.Range.NormalForm — joined ranges are separated.

  Ranges are `Separated` when they ascend and at least one address is missing between
  neighbours. Ranges of one family come out of `merge` and of `subtractList` like that
  (`separated_merge`, `separated_subtractList`). Whatever is held without a gap then lies
  inside one of them (`Separated.within`), so what they hold decides what they are
  (`Separated.unique`).

  What some ranges leave of others holds just the difference, however the two lists overlap.
  What is left of separated ranges is separated, and each piece lies inside the range that it
  was cut from (`difference_subtractList`).
-/

namespace SeamlessTunnel.Range

/-- Ranges in ascending order with a missing address between neighbours. -/
def Separated (rs : List Range) : Prop :=
  rs.Pairwise fun r s => r.last + 1 < s.first

/-- Whether all ranges are of one family. -/
def OfFamily (f : Family) (rs : List Range) : Prop :=
  ∀ r ∈ rs, r.family = f

/-! ## Joining -/

theorem first_le_of_mem_joinSorted {rest : List Range} {r t : Range}
    (h : Ascending (r :: rest)) (ht : t ∈ joinSorted r rest) : r.first ≤ t.first := by
  induction rest generalizing r with
  | nil => simp only [joinSorted, List.mem_singleton] at ht; subst ht; exact Nat.le_refl _
  | cons s rest ih =>
    obtain ⟨hr, hs⟩ := List.pairwise_cons.1 h
    unfold joinSorted at ht
    split at ht
    · rename_i hj
      exact ih (r := r.extend s hj.1)
        (List.pairwise_cons.2 ⟨fun u hu => hr u (List.mem_cons_of_mem s hu), hs.of_cons⟩) ht
    · rcases List.mem_cons.1 ht with rfl | ht
      · exact Nat.le_refl _
      · exact Nat.le_trans (hr s List.mem_cons_self) (ih hs ht)

theorem ofFamily_joinSorted {f : Family} {rest : List Range} {r : Range}
    (h : OfFamily f (r :: rest)) : OfFamily f (joinSorted r rest) := by
  induction rest generalizing r with
  | nil => simpa only [joinSorted] using h
  | cons s rest ih =>
    obtain ⟨hr, hrest⟩ := List.forall_mem_cons.1 h
    unfold joinSorted
    split
    · exact ih (List.forall_mem_cons.2 ⟨hr, (List.forall_mem_cons.1 hrest).2⟩)
    · exact List.forall_mem_cons.2 ⟨hr, ih hrest⟩

theorem separated_joinSorted {f : Family} {rest : List Range} {r : Range}
    (hf : OfFamily f (r :: rest)) (h : Ascending (r :: rest)) :
    Separated (joinSorted r rest) := by
  induction rest generalizing r with
  | nil => exact List.pairwise_singleton _ _
  | cons s rest ih =>
    obtain ⟨hr, hs⟩ := List.pairwise_cons.1 h
    obtain ⟨hfr, hfs⟩ := List.forall_mem_cons.1 hf
    unfold joinSorted
    split
    · rename_i hj
      exact ih (List.forall_mem_cons.2 ⟨hfr, (List.forall_mem_cons.1 hfs).2⟩)
        (List.pairwise_cons.2 ⟨fun u hu => hr u (List.mem_cons_of_mem s hu), hs.of_cons⟩)
    · rename_i hj
      refine List.pairwise_cons.2 ⟨?_, ih hfs hs⟩
      intro t ht
      have hgap : r.last + 1 < s.first := by
        have := mt (And.intro (hfr.trans (hfs s List.mem_cons_self).symm)) hj
        omega
      exact Nat.lt_of_lt_of_le hgap (first_le_of_mem_joinSorted hs ht)

theorem ofFamily_mergeSort {f : Family} {rs : List Range} (h : OfFamily f rs) :
    OfFamily f (rs.mergeSort precedes) :=
  fun r hr => h r (List.mem_mergeSort.1 hr)

theorem ofFamily_merge {f : Family} {rs : List Range} (h : OfFamily f rs) :
    OfFamily f (merge rs) := by
  have hf := ofFamily_mergeSort h
  unfold merge
  split
  · exact List.forall_mem_nil _
  · rename_i hcons
    rw [hcons] at hf
    exact ofFamily_joinSorted hf

theorem separated_merge {f : Family} {rs : List Range} (h : OfFamily f rs) :
    Separated (merge rs) := by
  have hf := ofFamily_mergeSort h
  have hasc := ascending_mergeSort rs
  unfold merge
  split
  · exact List.Pairwise.nil
  · rename_i hcons
    rw [hcons] at hf hasc
    exact separated_joinSorted hf hasc

/-! ## Subtracting -/

theorem ofFamily_subtract {f : Family} {r s : Range} (h : r.family = f) :
    OfFamily f (r.subtract s) := by
  intro t ht
  unfold subtract before after at ht
  split at ht
  · rcases List.mem_append.1 ht with ht | ht
    all_goals
      split at ht
      · rw [List.mem_singleton.1 ht]
        exact h
      · cases ht
  · rw [List.mem_singleton.1 ht]
    exact h

theorem ofFamily_foldl_subtract {f : Family} {cuts rs : List Range} (h : OfFamily f rs) :
    OfFamily f (cuts.foldl (fun rest cut => rest.flatMap (·.subtract cut)) rs) := by
  induction cuts generalizing rs with
  | nil => exact h
  | cons cut cuts ih =>
    refine ih ?_
    intro t ht
    obtain ⟨r, hr, ht⟩ := List.mem_flatMap.1 ht
    exact ofFamily_subtract (h r hr) t ht

theorem ofFamily_flatMap_subtractAll {f : Family} {rs cuts : List Range} (h : OfFamily f rs) :
    OfFamily f (rs.flatMap (·.subtractAll cuts)) := by
  intro t ht
  obtain ⟨r, hr, ht⟩ := List.mem_flatMap.1 ht
  have hone : OfFamily f [r] := fun u hu => List.mem_singleton.1 hu ▸ h r hr
  exact ofFamily_foldl_subtract hone t ht

theorem ofFamily_subtractList {f : Family} {rs cuts : List Range} (h : OfFamily f rs) :
    OfFamily f (subtractList rs cuts) := by
  unfold subtractList
  split
  · exact h
  · exact ofFamily_merge (ofFamily_flatMap_subtractAll h)

theorem separated_subtractList {f : Family} {rs cuts : List Range} (h : OfFamily f rs)
    (hs : Separated rs) : Separated (subtractList rs cuts) := by
  unfold subtractList
  split
  · exact hs
  · exact separated_merge (ofFamily_flatMap_subtractAll h)

/-! ## Gaps -/

/-- Two separated ranges are the same or leave an address between them. -/
theorem Separated.apart {rs : List Range} (h : Separated rs) {r s : Range} (hr : r ∈ rs)
    (hs : s ∈ rs) : r = s ∨ r.last + 1 < s.first ∨ s.last + 1 < r.first :=
  List.Pairwise.forall_of_forall_of_flip
    (R := fun r s : Range => r = s ∨ r.last + 1 < s.first ∨ s.last + 1 < r.first)
    (fun _ _ => Or.inl rfl) (h.imp fun h => Or.inr (Or.inl h))
    (h.imp fun h => Or.inr (Or.inr h)) hr hs

/-- A stretch without a gap that meets one of the ranges lies inside it. -/
theorem Separated.within {rs : List Range} (h : Separated rs) {r : Range} (hr : r ∈ rs)
    {lo hi x : Nat} (hx : lo ≤ x ∧ x ≤ hi) (hxr : r.first ≤ x ∧ x ≤ r.last)
    (held : ∀ y, lo ≤ y → y ≤ hi → ∃ s ∈ rs, s.first ≤ y ∧ y ≤ s.last) :
    r.first ≤ lo ∧ hi ≤ r.last := by
  have hord := r.ordered
  constructor
  · apply Classical.byContradiction
    intro hlt
    obtain ⟨s, hs, hs1, hs2⟩ := held (r.first - 1) (by omega) (by omega)
    rcases h.apart hr hs with rfl | hlt' | hlt'
    · omega
    · omega
    · omega
  · apply Classical.byContradiction
    intro hlt
    obtain ⟨s, hs, hs1, hs2⟩ := held (r.last + 1) (by omega) (by omega)
    rcases h.apart hr hs with rfl | hlt' | hlt'
    · omega
    · omega
    · omega

/-! ## Uniqueness -/

section

variable {f : Family} {rs ss : List Range}

theorem held_ofNat (h : OfFamily f rs) {y : Nat} (hy : y < 2 ^ f.width) :
    Held rs (.ofNat f y) ↔ ∃ r ∈ rs, r.first ≤ y ∧ y ≤ r.last := by
  have hspace : y < 1 <<< f.width := Nat.lt_of_lt_of_eq hy (Nat.one_shiftLeft _).symm
  simp only [Held, contains_iff, Address.value_ofNat hspace, Address.family_ofNat]
  exact exists_congr fun r => and_congr_right fun hr => and_iff_right (h r hr).symm

/-- Each range lies inside one of the other list, if they hold the same. -/
theorem Separated.inside_of_held (hss : Separated ss) (hfr : OfFamily f rs) (hfs : OfFamily f ss)
    (h : ∀ a : Address, a.family = f → Held rs a → Held ss a) {r : Range} (hr : r ∈ rs) :
    ∃ s ∈ ss, s.first ≤ r.first ∧ r.last ≤ s.last := by
  have hord := r.ordered
  have held : ∀ y, r.first ≤ y → y ≤ r.last → ∃ s ∈ ss, s.first ≤ y ∧ y ≤ s.last := by
    intro y hy hy'
    have hspace : y < 2 ^ f.width := by
      rw [← hfr r hr]
      exact Nat.lt_of_le_of_lt hy' r.last_lt
    exact (held_ofNat hfs hspace).1 (h _ rfl ((held_ofNat hfr hspace).2 ⟨r, hr, hy, hy'⟩))
  obtain ⟨s, hs, hmeet⟩ := held r.first (Nat.le_refl _) hord
  exact ⟨s, hs, hss.within hs ⟨Nat.le_refl _, hord⟩ hmeet held⟩

theorem Separated.mem_of_held (hrs : Separated rs) (hss : Separated ss) (hfr : OfFamily f rs)
    (hfs : OfFamily f ss) (h : ∀ a : Address, a.family = f → (Held rs a ↔ Held ss a))
    {r : Range} (hr : r ∈ rs) : r ∈ ss := by
  obtain ⟨s, hs, hlo, hhi⟩ := hss.inside_of_held hfr hfs (fun a ha => (h a ha).1) hr
  obtain ⟨t, ht, hlo', hhi'⟩ := hrs.inside_of_held hfs hfr (fun a ha => (h a ha).2) hs
  have hr1 := r.ordered
  have hrt : r = t := by
    rcases hrs.apart hr ht with heq | hlt | hlt
    · exact heq
    · omega
    · omega
  subst hrt
  have hfirst : r.first = s.first := by omega
  have hlast : r.last = s.last := by omega
  have heq : r = s := by
    have hfam : r.family = s.family := (hfr r hr).trans (hfs s hs).symm
    cases r
    cases s
    simp_all only
  rwa [heq]

/-- Separated ranges of one family that hold the same addresses are the same list. -/
theorem Separated.unique (hrs : Separated rs) (hss : Separated ss) (hfr : OfFamily f rs)
    (hfs : OfFamily f ss) (h : ∀ a : Address, a.family = f → (Held rs a ↔ Held ss a)) :
    rs = ss := by
  have asc : ∀ ts : List Range, Separated ts → ts.Pairwise fun r s => r.first < s.first := by
    intro ts hts
    refine hts.imp ?_
    intro r s hlt
    have := r.ordered
    omega
  have : Std.Irrefl fun r s : Range => r.first < s.first := ⟨fun r => Nat.lt_irrefl r.first⟩
  have : Std.Antisymm fun r s : Range => r.first < s.first :=
    ⟨fun r s h h' => absurd h' (Nat.lt_asymm h)⟩
  refine (asc rs hrs).eq_of_mem_iff (asc ss hss) ?_
  intro r
  exact ⟨hrs.mem_of_held hss hfr hfs h,
    hss.mem_of_held hrs hfs hfr fun a ha => (h a ha).symm⟩

end

/-! ## Differences -/

/-- An address is left if it was held and is not taken away, and what is left of separated
    ranges is separated and lies inside them. -/
theorem difference_subtractList (rs cuts : List Range) :
    (∀ a : Address, Held (subtractList rs cuts) a ↔ Held rs a ∧ ¬ Held cuts a) ∧
    ∀ f, OfFamily f rs → Separated rs →
      OfFamily f (subtractList rs cuts) ∧ Separated (subtractList rs cuts) ∧
      ∀ r ∈ subtractList rs cuts, ∃ s ∈ rs, s.first ≤ r.first ∧ r.last ≤ s.last := by
  refine ⟨fun a => held_subtractList, fun f hf hs => ?_⟩
  have hleft : OfFamily f (subtractList rs cuts) := ofFamily_subtractList hf
  refine ⟨hleft, separated_subtractList hf hs, fun r hr => ?_⟩
  exact hs.inside_of_held hleft hf (fun a _ ha => (held_subtractList.1 ha).1) hr

/-- Two ranges with a gap. -/
def apartRanges : List Range :=
  [⟨.ipv4, 0, 9, by decide, by decide⟩, ⟨.ipv4, 20, 29, by decide, by decide⟩]

/-- Ranges that overlap each other, the gap and the ends of both. -/
def overlappingCuts : List Range :=
  [⟨.ipv4, 8, 22, by decide, by decide⟩, ⟨.ipv4, 5, 24, by decide, by decide⟩,
    ⟨.ipv4, 27, 27, by decide, by decide⟩]

theorem difference_overlappingCuts :
    OfFamily .ipv4 apartRanges ∧ Separated apartRanges ∧
    Separated (subtractList apartRanges overlappingCuts) ∧
    ∀ r ∈ subtractList apartRanges overlappingCuts,
      ∃ s ∈ apartRanges, s.first ≤ r.first ∧ r.last ≤ s.last := by
  have hf : OfFamily .ipv4 apartRanges := by simp [OfFamily, apartRanges]
  have hs : Separated apartRanges := by simp [Separated, apartRanges]
  exact ⟨hf, hs, ((difference_subtractList apartRanges overlappingCuts).2 .ipv4 hf hs).2⟩

end SeamlessTunnel.Range
