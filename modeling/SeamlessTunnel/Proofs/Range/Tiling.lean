import SeamlessTunnel.Proofs.Range.Blocks
import SeamlessTunnel.Proofs.Range.NormalForm
/-
  SeamlessTunnel.Proofs.Range.Tiling — the blocks of a range, one after the other.

  The blocks fill the range from its first address to its last, each one from where the one
  before ends (`tiles_blocksFrom`), and joined they are the range again.

  There are few of them. The blocks grow for as long as only their alignment holds them
  back: a block of `1 <<< k` addresses is followed by a place that is aligned on
  `1 <<< (k + 1)`. From the first block on that is held back by the end of the range they
  shrink, as less is left than would fill the next larger one. So each size occurs once on
  the way up and once on the way down (`length_blocksFrom_of_short`, `length_blocksFrom_le`).
-/

namespace SeamlessTunnel.Range

/-- Prefixes whose blocks follow each other without a gap from `lo` to `hi`. -/
inductive Tiles : Nat → Nat → List Prefix → Prop
  | last (p : Prefix) : Tiles (ofPrefix p).first (ofPrefix p).last [p]
  | cons {p : Prefix} {hi : Nat} {ps : List Prefix} (h : Tiles ((ofPrefix p).last + 1) hi ps) :
      Tiles (ofPrefix p).first hi (p :: ps)

/-- What is known of the prefixes that a range is written in. -/
structure Decomposes (r : Range) (ps : List Prefix) : Prop where
  family : ∀ p ∈ ps, p.family = r.family
  aligned : ∀ p ∈ ps, 2 ^ p.hostBits ∣ p.address.value
  masked : ∀ p ∈ ps, p.address = p.network
  tiles : Tiles r.first r.last ps
  few : ps.length ≤ 2 * r.family.width - 2
  joined : merge (ps.map ofPrefix) = [r]

section

variable {f : Family} {cur last j : Nat}

/-! ## One after the other -/

theorem tiles_blocksFrom (h : cur ≤ last) (hs : last < 2 ^ f.width) :
    Tiles cur last (blocksFrom f cur last) := by
  fun_induction blocksFrom f cur last with
  | case1 cur bits hlt ih =>
    obtain ⟨hf, hl⟩ : (ofPrefix (blockAt f cur bits)).first = cur ∧
        (ofPrefix (blockAt f cur bits)).last = cur + (2 ^ bits - 1) := bounds_blockAt h hs
    have hpos := Nat.two_pow_pos bits
    have hnext : (ofPrefix (blockAt f cur bits)).last + 1 = cur + (1 <<< bits) := by
      rw [hl, Nat.one_shiftLeft]
      omega
    have hrest := ih (by omega)
    rw [← hnext] at hrest
    have htiles := hrest.cons
    rwa [hf, hnext] at htiles
  | case2 cur bits hge =>
    obtain ⟨hf, hl⟩ : (ofPrefix (blockAt f cur bits)).first = cur ∧
        (ofPrefix (blockAt f cur bits)).last = cur + (2 ^ bits - 1) := bounds_blockAt h hs
    have hle : cur + (2 ^ bits - 1) ≤ last := block_le_last h
    rw [Nat.one_shiftLeft] at hge
    have hend : (ofPrefix (blockAt f cur bits)).last = last := by omega
    have htiles := Tiles.last (blockAt f cur bits)
    rwa [hf, hend] at htiles

/-! ## Number -/

/-- If a larger block would be aligned, it is the end of the range that holds it back. -/
theorem left_lt_of_dvd (hw : blockBits f.width cur last < f.width)
    (hd : 2 ^ (blockBits f.width cur last + 1) ∣ cur) :
    last - cur + 1 < 2 ^ (blockBits f.width cur last + 1) := by
  have hbig : ¬ cur + (2 ^ (blockBits f.width cur last + 1) - 1) ≤ last := fun hl =>
    Nat.not_succ_le_self _ (le_blockBits hw hd hl)
  have hpos := Nat.two_pow_pos (blockBits f.width cur last)
  rw [Nat.pow_succ] at hbig ⊢
  omega

/-- On the way down each block is smaller than the one before. -/
theorem length_blocksFrom_of_short (h : cur ≤ last) : ∀ {k : Nat}, k ≤ f.width → 2 ^ k ∣ cur →
    last - cur + 1 < 2 ^ k → (blocksFrom f cur last).length ≤ k := by
  fun_induction blocksFrom f cur last with
  | case1 cur bits hlt ih =>
    intro k hk hd hshort
    rw [Nat.one_shiftLeft] at hlt ih
    have hle : cur + (2 ^ bits - 1) ≤ last := block_le_last h
    have hbits : bits < k := (Nat.pow_lt_pow_iff_right (a := 2) (by omega)).1 (by omega)
    have hleft : last - cur + 1 < 2 ^ (bits + 1) :=
      left_lt_of_dvd (Nat.lt_of_lt_of_le hbits hk)
        (Nat.dvd_trans (Nat.pow_dvd_pow 2 hbits) hd)
    rw [Nat.pow_succ] at hleft
    have hrest := ih (k := bits) (by omega) (blockBits_le_width _ _ _)
      (Nat.dvd_add (two_pow_blockBits_dvd _ _ _) (Nat.dvd_refl _)) (by omega)
    rw [List.length_cons, Nat.one_shiftLeft]
    exact Nat.succ_le_of_lt (Nat.lt_of_le_of_lt hrest hbits)
  | case2 cur bits hge =>
    intro k hk hd hshort
    rw [List.length_singleton]
    refine Nat.pos_of_ne_zero ?_
    rintro rfl
    omega

/-- The width of a block aligned at a place that is not the first one of the space. -/
theorem lt_width_of_dvd (hpos : 0 < cur) (hs : cur < 2 ^ f.width) (hd : 2 ^ j ∣ cur) :
    j < f.width :=
  (Nat.pow_lt_pow_iff_right (a := 2) (by omega)).1
    (Nat.lt_of_le_of_lt (Nat.le_of_dvd hpos hd) hs)

/-- Behind a block that could not be larger for its alignment, a larger one is aligned. -/
theorem two_pow_succ_dvd_add (hd : 2 ^ j ∣ cur) (hn : ¬ 2 ^ (j + 1) ∣ cur) :
    2 ^ (j + 1) ∣ cur + 2 ^ j := by
  obtain ⟨m, rfl⟩ := hd
  have hodd : m % 2 = 1 := by
    refine Nat.mod_two_ne_zero.1 fun heven => hn ?_
    rw [Nat.pow_succ]
    exact Nat.mul_dvd_mul_left _ (Nat.dvd_of_mod_eq_zero heven)
  rw [Nat.pow_succ, ← Nat.mul_succ]
  exact Nat.mul_dvd_mul_left _ (Nat.dvd_of_mod_eq_zero (by omega))

theorem two_le_width (f : Family) : 2 ≤ f.width := by
  cases f <;> decide

/-- On the way up each block is larger than the one before. -/
theorem length_blocksFrom_le (h : cur ≤ last) (hs : last < 2 ^ f.width) : ∀ {j : Nat}, 0 < cur →
    2 ^ j ∣ cur → (blocksFrom f cur last).length + j ≤ 2 * f.width - 2 := by
  have hwidth := two_le_width f
  fun_induction blocksFrom f cur last with
  | case1 cur bits hlt ih =>
    intro j hpos hd
    have hj := lt_width_of_dvd hpos (Nat.lt_of_le_of_lt h hs) hd
    rw [Nat.one_shiftLeft] at hlt ih
    rw [List.length_cons, Nat.one_shiftLeft]
    have hbd : 2 ^ bits ∣ cur := two_pow_blockBits_dvd _ _ _
    by_cases hdown : 2 ^ (bits + 1) ∣ cur
    · have hbits := lt_width_of_dvd hpos (Nat.lt_of_le_of_lt h hs) hdown
      have hleft : last - cur + 1 < 2 ^ (bits + 1) :=
        left_lt_of_dvd (Nat.lt_of_succ_lt hbits) hdown
      rw [Nat.pow_succ] at hleft
      have hrest : (blocksFrom f (cur + 2 ^ bits) last).length ≤ bits :=
        length_blocksFrom_of_short (by omega) (by omega) (Nat.dvd_add hbd (Nat.dvd_refl _))
          (by omega)
      omega
    · have hjb : j ≤ bits := Nat.le_of_not_lt fun hlt =>
        hdown (Nat.dvd_trans (Nat.pow_dvd_pow 2 hlt) hd)
      have hrest := ih (by omega) (by omega) (two_pow_succ_dvd_add hbd hdown)
      omega
  | case2 cur bits hge =>
    intro j hpos hd
    have hj := lt_width_of_dvd hpos (Nat.lt_of_le_of_lt h hs) hd
    rw [List.length_singleton]
    omega

/-- A range takes at most two blocks of each size but the largest. -/
theorem length_toPrefixes_le (r : Range) : r.toPrefixes.length ≤ 2 * r.family.width - 2 := by
  have hwidth := two_le_width r.family
  have hs := r.last_lt
  rw [toPrefixes]
  rcases Nat.eq_zero_or_pos r.first with hzero | hpos
  · rw [hzero]
    by_cases hshort : r.last - 0 + 1 < 2 ^ r.family.width
    · have hlen := length_blocksFrom_of_short (Nat.zero_le _) (Nat.le_refl _) (Nat.dvd_zero _) hshort
      omega
    · have hall : r.family.width ≤ blockBits r.family.width 0 r.last :=
        le_blockBits (Nat.le_refl _) (Nat.dvd_zero _) (by omega)
      have hpow := Nat.pow_le_pow_right (n := 2) (by omega) hall
      rw [blocksFrom]
      simp only [Nat.one_shiftLeft]
      rw [if_neg (by omega), List.length_singleton]
      omega
  · exact length_blocksFrom_le r.ordered hs (j := 0) hpos (Nat.one_dvd _)

/-! ## The whole -/

/-- The prefixes of a range, joined, are the range. -/
theorem merge_toPrefixes (r : Range) : merge (r.toPrefixes.map ofPrefix) = [r] := by
  have hof : OfFamily r.family (r.toPrefixes.map ofPrefix) := by
    intro s hs
    obtain ⟨p, hp, rfl⟩ := List.mem_map.1 hs
    exact (bounds_of_mem_blocksFrom r.ordered r.last_lt hp).1
  have hone : OfFamily r.family [r] := List.forall_mem_singleton.2 rfl
  refine (separated_merge hof).unique (List.pairwise_singleton _ _) (ofFamily_merge hof) hone ?_
  intro a _
  rw [held_merge, held_map_ofPrefix, covers_toPrefixes]
  simp

/-- A range is written in aligned blocks that follow each other from its first address to its
    last, at most 62 for IPv4 and 254 for IPv6. -/
theorem decomposes_toPrefixes (r : Range) : Decomposes r r.toPrefixes where
  family p hp := (bounds_of_mem_blocksFrom r.ordered r.last_lt hp).1
  aligned p hp := by
    rw [value_of_mem_blocksFrom r.ordered r.last_lt hp, first_ofPrefix]
    exact Nat.dvd_mul_left _ _
  masked p hp := network_of_value (value_of_mem_blocksFrom r.ordered r.last_lt hp)
  tiles := tiles_blocksFrom r.ordered r.last_lt
  few := length_toPrefixes_le r
  joined := merge_toPrefixes r

/-- All IPv4 addresses but the first and the last take as many blocks as a range can. -/
example : (⟨.ipv4, 1, 2 ^ 32 - 2, by decide, by decide⟩ : Range).toPrefixes.length = 62 := by
  decide +kernel

end

end SeamlessTunnel.Range
