import Mathlib.Algebra.Group.Nat.Defs
import SeamlessTunnel.Range.Blocks
import SeamlessTunnel.Range.Set
/-
  SeamlessTunnel.Proofs.Range.Coverage — which addresses ranges and prefixes hold.

  `Prefix.Covers` looks at leading bits, `Range.contains` at bounds; both say the same of
  the range of a prefix (`contains_ofPrefix`). Over lists of ranges joining is union
  (`held_merge`) and subtracting is difference (`held_subtractList`), whatever the lists
  overlap or touch and also at the last address of a family.
-/

namespace SeamlessTunnel

/-- Whether an address has the leading bits of a prefix. Host bits do not count. -/
def Prefix.Covers (p : Prefix) (a : Address) : Prop :=
  a.family = p.family ∧ a.value / 2 ^ p.hostBits = p.address.value / 2 ^ p.hostBits

instance (p : Prefix) (a : Address) : Decidable (p.Covers a) :=
  inferInstanceAs (Decidable (_ ∧ _))

namespace Range

/-- Whether an address lies in one of the ranges. -/
def Held (rs : List Range) (a : Address) : Prop :=
  ∃ r ∈ rs, r.contains a = true

theorem contains_iff {r : Range} {a : Address} :
    r.contains a = true ↔ a.family = r.family ∧ r.first ≤ a.value ∧ a.value ≤ r.last := by
  simp [contains, and_assoc]

theorem last_lt (r : Range) : r.last < 2 ^ r.family.width := by
  have hspace : r.last ≤ (1 <<< r.family.width) - 1 := r.inSpace
  have hpos := Nat.two_pow_pos r.family.width
  rw [Nat.one_shiftLeft] at hspace
  exact Nat.lt_of_le_pred hpos hspace

theorem first_ofPrefix (p : Prefix) :
    (ofPrefix p).first = p.address.value / 2 ^ p.hostBits * 2 ^ p.hostBits := by
  show p.address.value >>> p.hostBits <<< p.hostBits = _
  rw [Nat.shiftLeft_eq, Nat.shiftRight_eq_div_pow]

theorem last_ofPrefix (p : Prefix) :
    (ofPrefix p).last = (ofPrefix p).first + (2 ^ p.hostBits - 1) := by
  rw [← Nat.one_shiftLeft]
  rfl

theorem contains_ofPrefix {p : Prefix} {a : Address} :
    (ofPrefix p).contains a = true ↔ p.Covers a := by
  have hpos := Nat.two_pow_pos p.hostBits
  have hfamily : (ofPrefix p).family = p.family := rfl
  rw [contains_iff, Prefix.Covers, Nat.div_eq_iff hpos, last_ofPrefix, first_ofPrefix, hfamily]
  constructor
  · rintro ⟨hf, hl, hu⟩
    exact ⟨hf, hl, by omega⟩
  · rintro ⟨hf, hl, hu⟩
    exact ⟨hf, hl, by omega⟩

/-! ## Lists of ranges -/

@[simp] theorem held_nil (a : Address) : ¬ Held [] a := by
  simp [Held]

@[simp] theorem held_cons {r : Range} {rs : List Range} {a : Address} :
    Held (r :: rs) a ↔ r.contains a = true ∨ Held rs a := by
  simp [Held]

@[simp] theorem held_append {rs ss : List Range} {a : Address} :
    Held (rs ++ ss) a ↔ Held rs a ∨ Held ss a := by
  simp only [Held, List.mem_append]
  constructor
  · rintro ⟨r, hr | hr, ha⟩
    · exact Or.inl ⟨r, hr, ha⟩
    · exact Or.inr ⟨r, hr, ha⟩
  · rintro (⟨r, hr, ha⟩ | ⟨r, hr, ha⟩)
    · exact ⟨r, Or.inl hr, ha⟩
    · exact ⟨r, Or.inr hr, ha⟩

theorem held_flatMap {f : Range → List Range} {rs : List Range} {a : Address} :
    Held (rs.flatMap f) a ↔ ∃ r ∈ rs, Held (f r) a := by
  simp only [Held, List.mem_flatMap]
  constructor
  · rintro ⟨s, ⟨r, hr, hs⟩, ha⟩
    exact ⟨r, hr, s, hs, ha⟩
  · rintro ⟨r, hr, s, hs, ha⟩
    exact ⟨s, ⟨r, hr, hs⟩, ha⟩

theorem held_map_ofPrefix {ps : List Prefix} {a : Address} :
    Held (ps.map ofPrefix) a ↔ ∃ p ∈ ps, p.Covers a := by
  simp only [Held, List.mem_map]
  constructor
  · rintro ⟨_, ⟨p, hp, rfl⟩, ha⟩
    exact ⟨p, hp, contains_ofPrefix.1 ha⟩
  · rintro ⟨p, hp, ha⟩
    exact ⟨ofPrefix p, ⟨p, hp, rfl⟩, contains_ofPrefix.2 ha⟩

/-! ## Joining -/

/-- Sorted ranges start in ascending order. -/
def Ascending (rs : List Range) : Prop :=
  rs.Pairwise fun r s => r.first ≤ s.first

theorem ascending_mergeSort (rs : List Range) : Ascending (rs.mergeSort precedes) := by
  have trans : ∀ r s t : Range, precedes r s = true → precedes s t = true →
      precedes r t = true := by
    intro r s t hrs hst
    simp only [precedes, Bool.or_eq_true, Bool.and_eq_true, decide_eq_true_eq] at *
    omega
  have total : ∀ r s : Range, (precedes r s || precedes s r) = true := by
    intro r s
    simp only [precedes, Bool.or_eq_true, Bool.and_eq_true, decide_eq_true_eq]
    omega
  refine (List.pairwise_mergeSort trans total rs).imp ?_
  intro r s h
  simp only [precedes, Bool.or_eq_true, Bool.and_eq_true, decide_eq_true_eq] at h
  omega

theorem contains_extend {r s : Range} (h : r.family = s.family) {a : Address}
    (hle : r.first ≤ s.first) (hnear : s.first ≤ r.last + 1) :
    (r.extend s h).contains a = true ↔ r.contains a = true ∨ s.contains a = true := by
  simp only [contains_iff, extend]
  constructor
  · rintro ⟨hf, hl, hu⟩
    by_cases hr : a.value ≤ r.last
    · exact Or.inl ⟨hf, hl, hr⟩
    · exact Or.inr ⟨hf.trans h, by omega, by omega⟩
  · rintro (⟨hf, hl, hu⟩ | ⟨hf, hl, hu⟩)
    · exact ⟨hf, hl, by omega⟩
    · exact ⟨hf.trans h.symm, by omega, by omega⟩

theorem held_joinSorted {rest : List Range} {r : Range} {a : Address}
    (h : Ascending (r :: rest)) :
    Held (joinSorted r rest) a ↔ Held (r :: rest) a := by
  induction rest generalizing r with
  | nil => simp [joinSorted]
  | cons s rest ih =>
    obtain ⟨hr, hs⟩ := List.pairwise_cons.1 h
    unfold joinSorted
    split
    · rename_i hj
      have hle := hr s List.mem_cons_self
      have hasc : Ascending (r.extend s hj.1 :: rest) :=
        List.pairwise_cons.2 ⟨fun t ht => hr t (List.mem_cons_of_mem s ht), hs.of_cons⟩
      rw [ih hasc, held_cons, held_cons, held_cons, contains_extend hj.1 hle hj.2, or_assoc]
    · rw [held_cons, ih hs, held_cons (r := r)]

theorem held_merge {rs : List Range} {a : Address} : Held (merge rs) a ↔ Held rs a := by
  have hsort : Held (rs.mergeSort precedes) a ↔ Held rs a := by
    simp [Held, List.mem_mergeSort]
  have hasc := ascending_mergeSort rs
  rw [← hsort, merge]
  split
  · rename_i hnil
    rw [hnil]
  · rename_i r rest hcons
    rw [hcons] at hasc ⊢
    exact held_joinSorted hasc

/-! ## Subtracting -/

theorem held_subtract {r s : Range} {a : Address} :
    Held (r.subtract s) a ↔ r.contains a = true ∧ ¬ s.contains a = true := by
  have hs := s.ordered
  unfold subtract
  split
  · rename_i hov
    simp only [overlaps, Bool.and_eq_true, decide_eq_true_eq] at hov
    obtain ⟨⟨hf, hlow⟩, hhigh⟩ := hov
    have hb : Held (r.before s) a ↔ r.contains a = true ∧ a.value < s.first := by
      unfold before
      split
      · rename_i hc
        simp only [held_cons, held_nil, or_false, contains_iff]
        constructor
        · rintro ⟨h1, h2, h3⟩
          exact ⟨⟨h1, h2, by omega⟩, by omega⟩
        · rintro ⟨⟨h1, h2, h3⟩, h4⟩
          exact ⟨h1, h2, by omega⟩
      · simp only [held_nil, contains_iff, false_iff]
        rintro ⟨⟨-, h2, h3⟩, h4⟩
        omega
    have ha : Held (r.after s) a ↔ r.contains a = true ∧ s.last < a.value := by
      unfold after
      split
      · simp only [held_cons, held_nil, or_false, contains_iff]
        constructor
        · rintro ⟨h1, h2, h3⟩
          exact ⟨⟨h1, by omega, h3⟩, by omega⟩
        · rintro ⟨⟨h1, h2, h3⟩, h4⟩
          exact ⟨h1, by omega, h3⟩
      · simp only [held_nil, contains_iff, false_iff]
        rintro ⟨⟨-, h2, h3⟩, h4⟩
        omega
    rw [held_append, hb, ha, ← and_or_left]
    refine and_congr_right ?_
    intro hr
    have hfa : a.family = s.family := (contains_iff.1 hr).1.trans hf
    simp only [contains_iff, hfa, true_and]
    omega
  · rename_i hov
    simp only [held_cons, held_nil, or_false]
    refine (and_iff_left_of_imp fun hr hsa => hov ?_).symm
    rw [contains_iff] at hr hsa
    simp only [overlaps, Bool.and_eq_true, decide_eq_true_eq]
    exact ⟨⟨hr.1.symm.trans hsa.1, by omega⟩, by omega⟩

theorem held_foldl_subtract {cuts rs : List Range} {a : Address} :
    Held (cuts.foldl (fun rest cut => rest.flatMap (·.subtract cut)) rs) a ↔
      Held rs a ∧ ¬ Held cuts a := by
  induction cuts generalizing rs with
  | nil => simp
  | cons cut cuts ih =>
    have hcut : Held (rs.flatMap (·.subtract cut)) a ↔
        Held rs a ∧ ¬ cut.contains a = true := by
      rw [held_flatMap]
      simp only [held_subtract]
      exact ⟨fun ⟨r, hr, ha, hn⟩ => ⟨⟨r, hr, ha⟩, hn⟩, fun ⟨⟨r, hr, ha⟩, hn⟩ => ⟨r, hr, ha, hn⟩⟩
    rw [List.foldl_cons, ih, hcut, held_cons, not_or, and_assoc]

theorem held_subtractAll {r : Range} {cuts : List Range} {a : Address} :
    Held (r.subtractAll cuts) a ↔ r.contains a = true ∧ ¬ Held cuts a := by
  rw [subtractAll, held_foldl_subtract, held_cons]
  simp

theorem held_subtractList {rs cuts : List Range} {a : Address} :
    Held (subtractList rs cuts) a ↔ Held rs a ∧ ¬ Held cuts a := by
  unfold subtractList
  split
  · rename_i hc
    rw [List.isEmpty_iff.1 hc]
    simp
  · rw [held_merge, held_flatMap]
    simp only [held_subtractAll]
    exact ⟨fun ⟨r, hr, ha, hn⟩ => ⟨⟨r, hr, ha⟩, hn⟩, fun ⟨⟨r, hr, ha⟩, hn⟩ => ⟨r, hr, ha, hn⟩⟩

end Range

end SeamlessTunnel
