import SeamlessTunnel.Proofs.Range.Coverage
/-
  SeamlessTunnel.Proofs.Range.Blocks — the blocks that a range is written in.

  Every block is aligned on its size, the blocks ascend without overlap and hold together
  what the range holds (`covers_toPrefixes`). They are as large as can be: an aligned block
  inside the range that meets one of them lies inside it (`Clear`, `inside_of_meets`).
  `Clear` says of a place in a range that no aligned block of the range lies across it; the
  start of a range is clear and each step leads from a clear place to the next.
-/

namespace SeamlessTunnel.Range

/-! ## Alignment -/

theorem two_pow_trailingZeros_dvd (n : Nat) : 2 ^ trailingZeros n ∣ n := by
  fun_induction trailingZeros n with
  | case1 n h => exact Nat.one_dvd n
  | case2 n h ih =>
    rw [Nat.pow_succ]
    have hmul := Nat.mul_dvd_mul_right ih 2
    have heven : n / 2 * 2 = n := by omega
    rwa [heven] at hmul

theorem le_trailingZeros {n j : Nat} (hn : n ≠ 0) (h : 2 ^ j ∣ n) : j ≤ trailingZeros n := by
  fun_induction trailingZeros n generalizing j with
  | case1 n hodd =>
    cases j with
    | zero => exact Nat.le_refl 0
    | succ j =>
      have : 2 ∣ n := Nat.dvd_trans ⟨2 ^ j, by rw [Nat.pow_succ, Nat.mul_comm]⟩ h
      omega
  | case2 n heven ih =>
    cases j with
    | zero => exact Nat.zero_le _
    | succ j =>
      have hdiv : 2 ^ j ∣ n / 2 := by
        obtain ⟨m, rfl⟩ := h
        refine ⟨m, ?_⟩
        rw [Nat.pow_succ, Nat.mul_right_comm, Nat.mul_div_cancel _ (by omega)]
      exact Nat.succ_le_succ (ih (by omega) hdiv)

theorem blockBits_le_width (width cur last : Nat) : blockBits width cur last ≤ width := by
  unfold blockBits alignedBits
  split <;> omega

theorem two_pow_blockBits_dvd (width cur last : Nat) : 2 ^ blockBits width cur last ∣ cur := by
  by_cases h : cur = 0
  · subst h
    exact Nat.dvd_zero _
  · refine Nat.dvd_trans (Nat.pow_dvd_pow 2 ?_) (two_pow_trailingZeros_dvd cur)
    unfold blockBits alignedBits
    rw [if_neg h]
    omega

/-- A block does not run past the end. -/
theorem block_le_last {width cur last : Nat} (h : cur ≤ last) :
    cur + (2 ^ blockBits width cur last - 1) ≤ last := by
  have hlog : 2 ^ (last - cur + 1).log2 ≤ last - cur + 1 := Nat.log2_self_le (by omega)
  have hpow : 2 ^ blockBits width cur last ≤ 2 ^ (last - cur + 1).log2 :=
    Nat.pow_le_pow_right (by omega) (Nat.min_le_right _ _)
  omega

/-- No larger block that is aligned at `cur` ends by `last`. -/
theorem le_blockBits {width cur last j : Nat} (hw : j ≤ width) (hd : 2 ^ j ∣ cur)
    (hl : cur + (2 ^ j - 1) ≤ last) : j ≤ blockBits width cur last := by
  have hpos := Nat.two_pow_pos j
  have hfit : j ≤ (last - cur + 1).log2 := (Nat.le_log2 (by omega)).2 (by omega)
  have hal : j ≤ alignedBits width cur := by
    unfold alignedBits
    split
    · exact hw
    · rename_i hne
      exact Nat.le_min.2 ⟨le_trailingZeros hne hd, hw⟩
  exact Nat.le_min.2 ⟨hal, hfit⟩

/-! ## Single blocks -/

section

variable {f : Family} {n bits : Nat}

theorem hostBits_blockAt (hb : bits ≤ f.width) : (blockAt f n bits).hostBits = bits := by
  show f.width - (f.width - bits) = bits
  omega

@[simp] theorem family_ofPrefix_blockAt : (ofPrefix (blockAt f n bits)).family = f := rfl

theorem first_ofPrefix_blockAt (hb : bits ≤ f.width) (hn : n < 2 ^ f.width)
    (hd : 2 ^ bits ∣ n) : (ofPrefix (blockAt f n bits)).first = n := by
  have hspace : n < 1 <<< f.width := Nat.lt_of_lt_of_eq hn (Nat.one_shiftLeft _).symm
  have hvalue : (blockAt f n bits).address.value = n := Address.value_ofNat hspace
  rw [first_ofPrefix, hostBits_blockAt hb, hvalue, Nat.div_mul_cancel hd]

theorem last_ofPrefix_blockAt (hb : bits ≤ f.width) (hn : n < 2 ^ f.width)
    (hd : 2 ^ bits ∣ n) : (ofPrefix (blockAt f n bits)).last = n + (2 ^ bits - 1) := by
  rw [last_ofPrefix, first_ofPrefix_blockAt hb hn hd, hostBits_blockAt hb]

end

/-- The bounds of the block that is taken at `cur`. -/
theorem bounds_blockAt {f : Family} {cur last : Nat} (h : cur ≤ last)
    (hs : last < 2 ^ f.width) :
    (ofPrefix (blockAt f cur (blockBits f.width cur last))).first = cur ∧
      (ofPrefix (blockAt f cur (blockBits f.width cur last))).last =
        cur + (2 ^ blockBits f.width cur last - 1) :=
  have hb := blockBits_le_width f.width cur last
  have hd := two_pow_blockBits_dvd f.width cur last
  ⟨first_ofPrefix_blockAt hb (by omega) hd, last_ofPrefix_blockAt hb (by omega) hd⟩

/-! ## All blocks -/

theorem held_blocksFrom {f : Family} {cur last : Nat} (h : cur ≤ last)
    (hs : last < 2 ^ f.width) {a : Address} :
    Held ((blocksFrom f cur last).map ofPrefix) a ↔
      a.family = f ∧ cur ≤ a.value ∧ a.value ≤ last := by
  fun_induction blocksFrom f cur last with
  | case1 cur bits hlt ih =>
    have hf : (ofPrefix (blockAt f cur bits)).first = cur := (bounds_blockAt h hs).1
    have hl : (ofPrefix (blockAt f cur bits)).last = cur + (2 ^ bits - 1) :=
      (bounds_blockAt h hs).2
    have hpos := Nat.two_pow_pos bits
    rw [List.map_cons, held_cons, ih (by omega), contains_iff, family_ofPrefix_blockAt, hf, hl,
      ← and_or_left]
    refine and_congr_right ?_
    intro _
    omega
  | case2 cur bits hge =>
    have hf : (ofPrefix (blockAt f cur bits)).first = cur := (bounds_blockAt h hs).1
    have hl : (ofPrefix (blockAt f cur bits)).last = cur + (2 ^ bits - 1) :=
      (bounds_blockAt h hs).2
    have hle : cur + (2 ^ bits - 1) ≤ last := block_le_last h
    simp only [List.map_cons, List.map_nil, held_cons, held_nil, or_false, contains_iff,
      family_ofPrefix_blockAt, hf, hl]
    refine and_congr_right ?_
    intro _
    omega

/-- The prefixes of a range cover what the range holds. -/
theorem covers_toPrefixes {r : Range} {a : Address} :
    (∃ p ∈ r.toPrefixes, p.Covers a) ↔ r.contains a = true := by
  rw [← held_map_ofPrefix, toPrefixes, held_blocksFrom r.ordered r.last_lt, contains_iff]

theorem bounds_of_mem_blocksFrom {f : Family} {cur last : Nat} (h : cur ≤ last)
    (hs : last < 2 ^ f.width) {p : Prefix} (hp : p ∈ blocksFrom f cur last) :
    p.family = f ∧ cur ≤ (ofPrefix p).first ∧ (ofPrefix p).last ≤ last := by
  fun_induction blocksFrom f cur last with
  | case1 cur bits hlt ih =>
    have hf : (ofPrefix (blockAt f cur bits)).first = cur := (bounds_blockAt h hs).1
    have hl : (ofPrefix (blockAt f cur bits)).last = cur + (2 ^ bits - 1) :=
      (bounds_blockAt h hs).2
    rcases List.mem_cons.1 hp with rfl | hp
    · exact ⟨rfl, by omega, by omega⟩
    · have := Nat.two_pow_pos bits
      obtain ⟨h1, h2, h3⟩ := ih (by omega) hp
      exact ⟨h1, by omega, h3⟩
  | case2 cur bits hge =>
    have hf : (ofPrefix (blockAt f cur bits)).first = cur := (bounds_blockAt h hs).1
    have hl : (ofPrefix (blockAt f cur bits)).last = cur + (2 ^ bits - 1) :=
      (bounds_blockAt h hs).2
    have hle : cur + (2 ^ bits - 1) ≤ last := block_le_last h
    obtain rfl := List.mem_singleton.1 hp
    exact ⟨rfl, by omega, by omega⟩

/-- The address of a block is its first one. -/
theorem value_of_mem_blocksFrom {f : Family} {cur last : Nat} (h : cur ≤ last)
    (hs : last < 2 ^ f.width) {p : Prefix} (hp : p ∈ blocksFrom f cur last) :
    p.address.value = (ofPrefix p).first := by
  have taken : ∀ cur, cur ≤ last →
      (blockAt f cur (blockBits f.width cur last)).address.value =
        (ofPrefix (blockAt f cur (blockBits f.width cur last))).first := by
    intro cur h
    rw [(bounds_blockAt h hs).1]
    exact Address.value_ofNat
      (Nat.lt_of_lt_of_eq (Nat.lt_of_le_of_lt h hs) (Nat.one_shiftLeft _).symm)
  fun_induction blocksFrom f cur last with
  | case1 cur bits hlt ih =>
    rcases List.mem_cons.1 hp with rfl | hp
    · exact taken cur h
    · have hpos := Nat.two_pow_pos bits
      exact ih (by omega) hp
  | case2 cur bits hge =>
    obtain rfl := List.mem_singleton.1 hp
    exact taken cur h

theorem network_of_value {p : Prefix} (h : p.address.value = (ofPrefix p).first) :
    p.address = p.network := by
  have hnetwork : p.network = .ofNat p.family (ofPrefix p).first := rfl
  rw [hnetwork, ← h]
  exact p.address.ofNat_value.symm

/-- The blocks ascend and do not overlap. -/
theorem pairwise_blocksFrom {f : Family} {cur last : Nat} (h : cur ≤ last)
    (hs : last < 2 ^ f.width) :
    (blocksFrom f cur last).Pairwise fun p q => (ofPrefix p).last < (ofPrefix q).first := by
  fun_induction blocksFrom f cur last with
  | case1 cur bits hlt ih =>
    have hl : (ofPrefix (blockAt f cur bits)).last = cur + (2 ^ bits - 1) :=
      (bounds_blockAt h hs).2
    have := Nat.two_pow_pos bits
    refine List.pairwise_cons.2 ⟨?_, ih (by omega)⟩
    intro q hq
    obtain ⟨-, hq, -⟩ := bounds_of_mem_blocksFrom (by omega) hs hq
    omega
  | case2 cur bits hge => exact List.pairwise_singleton _ _

/-! ## The largest blocks -/

/-- No aligned block of the range from `first` to `last` lies across the place before
    `cur`. -/
def Clear (width first last cur : Nat) : Prop :=
  ∀ n j, j ≤ width → 2 ^ j ∣ n → first ≤ n → n + (2 ^ j - 1) ≤ last →
    n + (2 ^ j - 1) < cur ∨ cur ≤ n

theorem clear_first (width first last : Nat) : Clear width first last first :=
  fun _ _ _ _ hn _ => Or.inr hn

theorem Clear.next {width first last cur : Nat} (h : Clear width first last cur) :
    Clear width first last (cur + (1 <<< blockBits width cur last)) := by
  rw [Nat.one_shiftLeft]
  intro n j hw hd hn hl
  have hbd := two_pow_blockBits_dvd width cur last
  have hjpos := Nat.two_pow_pos j
  rcases h n j hw hd hn hl with hlt | hge
  · left
    omega
  · by_cases hin : n < cur + 2 ^ blockBits width cur last
    · left
      rcases Nat.lt_or_ge (blockBits width cur last) j with hbig | hsmall
      · -- a larger block that starts inside the one taken starts where it does
        have hdn : 2 ^ blockBits width cur last ∣ n :=
          Nat.dvd_trans (Nat.pow_dvd_pow 2 (Nat.le_of_lt hbig)) hd
        have hzero : n - cur = 0 :=
          Nat.eq_zero_of_dvd_of_lt (Nat.dvd_sub hdn hbd) (by omega)
        have hcur : n = cur := by omega
        subst hcur
        exact absurd (le_blockBits hw hd hl) (Nat.not_le.2 hbig)
      · have hdc : 2 ^ j ∣ cur + 2 ^ blockBits width cur last :=
          Nat.dvd_add (Nat.dvd_trans (Nat.pow_dvd_pow 2 hsmall) hbd) (Nat.pow_dvd_pow 2 hsmall)
        have hgap := Nat.le_of_dvd (by omega) (Nat.dvd_sub hdc hd)
        omega
    · right
      omega

/-- An aligned block of the range that meets a block taken from a clear place on lies
    inside it. -/
theorem inside_of_meets {f : Family} {first cur last : Nat} (h : cur ≤ last)
    (hs : last < 2 ^ f.width) (hc : Clear f.width first last cur) {p : Prefix}
    (hp : p ∈ blocksFrom f cur last) {n j : Nat} (hw : j ≤ f.width) (hd : 2 ^ j ∣ n)
    (hn : first ≤ n) (hl : n + (2 ^ j - 1) ≤ last) (hmeet : n ≤ (ofPrefix p).last)
    (hmeet' : (ofPrefix p).first ≤ n + (2 ^ j - 1)) :
    (ofPrefix p).first ≤ n ∧ n + (2 ^ j - 1) ≤ (ofPrefix p).last := by
  have htaken := hc.next
  fun_induction blocksFrom f cur last with
  | case1 cur bits hlt ih =>
    rcases List.mem_cons.1 hp with rfl | hp
    · have hf : (ofPrefix (blockAt f cur bits)).first = cur := (bounds_blockAt h hs).1
      have hl' : (ofPrefix (blockAt f cur bits)).last = cur + (2 ^ bits - 1) :=
        (bounds_blockAt h hs).2
      have hbefore := hc n j hw hd hn hl
      have hafter : n + (2 ^ j - 1) < cur + (1 <<< bits) ∨ cur + (1 <<< bits) ≤ n :=
        htaken n j hw hd hn hl
      have hpos := Nat.two_pow_pos bits
      omega
    · exact ih (by omega) htaken hp htaken.next
  | case2 cur bits hge =>
    obtain rfl := List.mem_singleton.1 hp
    have hf : (ofPrefix (blockAt f cur bits)).first = cur := (bounds_blockAt h hs).1
    have hl' : (ofPrefix (blockAt f cur bits)).last = cur + (2 ^ bits - 1) :=
      (bounds_blockAt h hs).2
    have hbefore := hc n j hw hd hn hl
    omega

end SeamlessTunnel.Range
