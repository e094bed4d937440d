import SeamlessTunnel.Proofs.Range.Blocks
import SeamlessTunnel.Proofs.Range.NormalForm
import SeamlessTunnel.Range.Word
/-
  SeamlessTunnel.Proofs.Range.Word — words are wide enough for ranges.

  The operations between words give for a range what those between numbers give, without a
  fault (`subtract_toWords`, `comesTo_toWords`, `merge_toWords`, `subtractList_toWords`;
  `ofBounds_eq`, `ofAddresses_eq` and `ofPrefix_eq` for where ranges come from).

  Each step rests on a guard. A number is taken from the first word of a range only where
  another range starts before it, one is added to the last only where another ends behind
  it, and a block is followed by a next one only where it ends before the range does. The
  whole space of 128 bits is the one span that no word can count, and it is asked for first.
-/

namespace SeamlessTunnel

open Word

/-! ## Numbers in words -/

section

variable {w a b : Nat}

theorem toNat_ofNat_of_lt (ha : a < 2 ^ w) : (BitVec.ofNat w a).toNat = a := by
  rw [BitVec.toNat_ofNat, Nat.mod_eq_of_lt ha]

theorem ofNat_lt_ofNat (ha : a < 2 ^ w) (hb : b < 2 ^ w) :
    BitVec.ofNat w a < BitVec.ofNat w b ↔ a < b := by
  rw [BitVec.ofNat_lt_ofNat, Nat.mod_eq_of_lt ha, Nat.mod_eq_of_lt hb]

theorem ofNat_le_ofNat (ha : a < 2 ^ w) (hb : b < 2 ^ w) :
    BitVec.ofNat w a ≤ BitVec.ofNat w b ↔ a ≤ b := by
  rw [BitVec.ofNat_le_ofNat, Nat.mod_eq_of_lt ha, Nat.mod_eq_of_lt hb]

theorem ofNat_eq_ofNat (ha : a < 2 ^ w) (hb : b < 2 ^ w) :
    BitVec.ofNat w a = BitVec.ofNat w b ↔ a = b := by
  rw [← BitVec.toNat_inj, toNat_ofNat_of_lt ha, toNat_ofNat_of_lt hb]

theorem allOnes_eq_ofNat (w : Nat) : BitVec.allOnes w = .ofNat w (2 ^ w - 1) :=
  (BitVec.ofNatLT_eq_ofNat _).symm ▸ rfl

namespace Word

theorem add_ofNat (h : a + b < 2 ^ w) :
    add (BitVec.ofNat w a) (.ofNat w b) = pure (.ofNat w (a + b)) := by
  have hno : (BitVec.ofNat w a).uaddOverflow (.ofNat w b) = false := by
    simpa [BitVec.uaddOverflow, toNat_ofNat_of_lt (Nat.lt_of_le_of_lt (Nat.le_add_right a b) h),
      toNat_ofNat_of_lt (Nat.lt_of_le_of_lt (Nat.le_add_left b a) h)] using h
  rw [add, hno, BitVec.ofNat_add_ofNat]
  rfl

theorem sub_ofNat (ha : a < 2 ^ w) (h : b ≤ a) :
    sub (BitVec.ofNat w a) (.ofNat w b) = pure (.ofNat w (a - b)) := by
  have hb := Nat.lt_of_le_of_lt h ha
  have hno : (BitVec.ofNat w a).usubOverflow (.ofNat w b) = false := by
    simpa [BitVec.usubOverflow, toNat_ofNat_of_lt ha, toNat_ofNat_of_lt hb] using h
  rw [sub, hno, BitVec.ofNat_sub_ofNat_of_le a b hb h]
  rfl

theorem lesser_ofNat (ha : a < 2 ^ w) (hb : b < 2 ^ w) :
    lesser (BitVec.ofNat w a) (.ofNat w b) = .ofNat w (min a b) := by
  rw [lesser, Nat.min_def]
  simp only [ofNat_le_ofNat ha hb]
  split <;> rfl

theorem greater_ofNat (ha : a < 2 ^ w) (hb : b < 2 ^ w) :
    greater (BitVec.ofNat w a) (.ofNat w b) = .ofNat w (max a b) := by
  rw [greater, Nat.max_def]
  simp only [ofNat_le_ofNat ha hb]
  split <;> rfl

/-- Where the sum does not fit, nothing is larger than the largest word. -/
theorem ofNat_le_saturatingAdd (ha : a < 2 ^ w) (hb : b < 2 ^ w) (hw : 1 < 2 ^ w) :
    BitVec.ofNat w a ≤ saturatingAdd (.ofNat w b) (.ofNat w 1) ↔ a ≤ b + 1 := by
  have hoverflow : (BitVec.ofNat w b).uaddOverflow (.ofNat w 1) = true ↔ 2 ^ w ≤ b + 1 := by
    simp [BitVec.uaddOverflow, toNat_ofNat_of_lt hb, toNat_ofNat_of_lt hw]
  unfold saturatingAdd
  split
  · rename_i hfull
    have hfull := hoverflow.1 hfull
    rw [allOnes_eq_ofNat, ofNat_le_ofNat ha (by omega)]
    omega
  · rename_i hfits
    have hfits := mt hoverflow.2 hfits
    rw [BitVec.ofNat_add_ofNat, ofNat_le_ofNat ha (by omega)]

theorem shiftLeft_ofNat {k : Nat} (h : k < 128) :
    shiftLeft 1#128 (.ofNat 8 k) = pure (.ofNat 128 (2 ^ k)) := by
  have hk : k < 2 ^ 8 := by omega
  have hshort : ¬ 128#8 ≤ BitVec.ofNat 8 k := by
    rw [ofNat_le_ofNat (by omega) hk]
    omega
  have hshift : 1#128 <<< BitVec.ofNat 8 k = .ofNat 128 (2 ^ k) := by
    refine BitVec.eq_of_toNat_eq ?_
    rw [BitVec.shiftLeft_eq', BitVec.toNat_shiftLeft, toNat_ofNat_of_lt hk,
      toNat_ofNat_of_lt (by omega), Nat.one_shiftLeft, BitVec.toNat_ofNat]
  rw [shiftLeft, if_neg hshort, hshift]

theorem lowBits_ofNat {k : Nat} (h : k ≤ 128) :
    lowBits (.ofNat 8 k) = pure (.ofNat 128 (2 ^ k - 1)) := by
  have hle : 128#8 ≤ BitVec.ofNat 8 k ↔ 128 ≤ k := ofNat_le_ofNat (by omega) (by omega)
  unfold lowBits
  rcases Nat.lt_or_eq_of_le h with hlt | rfl
  · have hpow : 2 ^ k < 2 ^ 128 := Nat.pow_lt_pow_right (by omega) hlt
    rw [if_neg (mt hle.1 (by omega)), shiftLeft_ofNat hlt, pure_bind,
      sub_ofNat hpow (Nat.two_pow_pos k)]
  · rw [if_pos (hle.2 (Nat.le_refl _)), allOnes_eq_ofNat]

/-! ## Bits -/

/-- A word with its low bits cleared. -/
theorem and_not_lowBits (n k : Nat) :
    BitVec.ofNat 128 n &&& ~~~(.ofNat 128 (2 ^ k - 1)) = .ofNat 128 (n >>> k <<< k) := by
  refine BitVec.eq_of_getLsbD_eq fun i hi => ?_
  simp only [BitVec.getLsbD_and, BitVec.getLsbD_not, BitVec.getLsbD_ofNat, hi, decide_true,
    Bool.true_and, Nat.testBit_two_pow_sub_one, Nat.testBit_shiftLeft, Nat.testBit_shiftRight]
  by_cases hk : k ≤ i
  · simp [hk, Nat.not_lt.2 hk]
  · simp [hk, Nat.lt_of_not_le hk]

/-- A word with its low bits set, where they were clear. -/
theorem or_lowBits {n k : Nat} (hd : 2 ^ k ∣ n) :
    BitVec.ofNat 128 n ||| .ofNat 128 (2 ^ k - 1) = .ofNat 128 (n + (2 ^ k - 1)) := by
  obtain ⟨m, rfl⟩ := hd
  rw [Nat.two_pow_add_eq_or_of_lt (Nat.sub_one_lt (Nat.two_pow_pos k).ne'), BitVec.ofNat_or]

theorem two_pow_dvd_iff (n k : Nat) : 2 ^ k ∣ n ↔ ∀ i < k, n.testBit i = false := by
  rw [Nat.dvd_iff_mod_eq_zero]
  constructor
  · intro h i hi
    have hbit := congrArg (Nat.testBit · i) h
    simpa [Nat.testBit_mod_two_pow, hi] using hbit
  · intro h
    refine Nat.eq_of_testBit_eq fun i => ?_
    by_cases hi : i < k
    · simp [Nat.testBit_mod_two_pow, h i hi]
    · simp [Nat.testBit_mod_two_pow, hi]

theorem ctz_ofNat {n : Nat} (h : n ≠ 0) (hn : n < 2 ^ 128) :
    (BitVec.ofNat 128 n).ctz.toNat = Range.trailingZeros n := by
  have hx : BitVec.ofNat 128 n ≠ 0#128 := mt (ofNat_eq_ofNat hn (by omega)).1 h
  have hlowest := BitVec.getLsbD_true_ctz_of_ne_zero hx
  rw [BitVec.getLsbD_ofNat, Bool.and_eq_true, decide_eq_true_eq] at hlowest
  refine Nat.le_antisymm (Range.le_trailingZeros h ((two_pow_dvd_iff n _).2 fun i hi => ?_))
    (Nat.le_of_not_lt fun hlt => ?_)
  · have hclear := BitVec.getLsbD_false_of_lt_ctz hi
    rwa [BitVec.getLsbD_ofNat, decide_eq_true (Nat.lt_trans hi hlowest.1), Bool.true_and] at hclear
  · have hclear := (two_pow_dvd_iff n _).1 (Range.two_pow_trailingZeros_dvd n) _ hlt
    rw [hlowest.2] at hclear
    cases hclear

theorem clz_le {n : Nat} (h : n ≠ 0) (hn : n < 2 ^ 128) :
    (BitVec.ofNat 128 n).clz.toNat ≤ 127 := by
  have hhigh := BitVec.toNat_lt_two_pow_sub_clz (x := BitVec.ofNat 128 n)
  rw [toNat_ofNat_of_lt hn] at hhigh
  refine Nat.le_of_not_lt fun hlt => ?_
  rw [Nat.sub_eq_zero_of_le hlt] at hhigh
  omega

theorem log2_eq_sub_clz {n : Nat} (h : n ≠ 0) (hn : n < 2 ^ 128) :
    n.log2 = 127 - (BitVec.ofNat 128 n).clz.toNat := by
  have hx : BitVec.ofNat 128 n ≠ 0#128 := mt (ofNat_eq_ofNat hn (by omega)).1 h
  have hlow := BitVec.two_pow_sub_clz_le_toNat_of_ne_zero (by omega) hx
  have hhigh := BitVec.toNat_lt_two_pow_sub_clz (x := BitVec.ofNat 128 n)
  have hle := clz_le h hn
  rw [toNat_ofNat_of_lt hn] at hlow hhigh
  refine (Nat.log2_eq_iff h).2 ⟨hlow, ?_⟩
  rwa [show 127 - (BitVec.ofNat 128 n).clz.toNat + 1 = 128 - (BitVec.ofNat 128 n).clz.toNat by omega]

end Word

end

/-! ## Ranges in words -/

theorem Family.byteWidth_eq (f : Family) : f.byteWidth = .ofNat 8 f.width := by
  cases f <;> rfl

theorem Family.maxWord_eq (f : Family) : f.maxWord = .ofNat 128 f.maxValue := by
  cases f <;> decide +kernel

theorem Family.maxValue_lt_word (f : Family) : f.maxValue < 2 ^ 128 := by
  cases f <;> decide

theorem Family.lt_word {f : Family} {n : Nat} (h : n < 2 ^ f.width) : n < 2 ^ 128 :=
  Nat.lt_of_lt_of_le h (Nat.pow_le_pow_right (by omega) f.width_le)

namespace WordRange

section

variable {f : Family} {cur last bits : Nat}

/-! ## Blocks -/

theorem alignedBits_ofNat (h : cur < 2 ^ f.width) :
    alignedBits f (.ofNat 128 cur) = .ofNat 8 (Range.alignedBits f.width cur) := by
  have hwidth := f.width_le
  have hzero : BitVec.ofNat 128 cur = 0#128 ↔ cur = 0 :=
    ofNat_eq_ofNat (Family.lt_word h) (by omega)
  unfold alignedBits Range.alignedBits
  simp only [hzero, f.byteWidth_eq]
  split
  · rfl
  · rename_i hne
    have hbits : Range.trailingZeros cur < f.width := by
      have hle := Nat.le_of_dvd (Nat.pos_of_ne_zero hne) (Range.two_pow_trailingZeros_dvd cur)
      exact (Nat.pow_lt_pow_iff_right (a := 2) (by omega)).1 (Nat.lt_of_le_of_lt hle h)
    rw [← BitVec.ofNat_toNat, ctz_ofNat hne (Family.lt_word h),
      lesser_ofNat (by omega) (by omega)]

theorem fittingBits_ofNat (h : cur ≤ last) (hl : last < 2 ^ 128) :
    fittingBits (.ofNat 128 cur) (.ofNat 128 last) = pure (.ofNat 8 (last - cur + 1).log2) := by
  have hspan : BitVec.ofNat 128 (last - cur) = .allOnes 128 ↔ last - cur = 2 ^ 128 - 1 := by
    rw [allOnes_eq_ofNat, ofNat_eq_ofNat (by omega) (by omega)]
  rw [fittingBits, sub_ofNat hl h, pure_bind]
  simp only [hspan]
  split
  · rename_i hfull
    rw [hfull, Nat.sub_add_cancel (Nat.two_pow_pos 128), Nat.log2_two_pow]
  · have hfits : last - cur + 1 < 2 ^ 128 := by omega
    have hclz := clz_le (Nat.succ_ne_zero _) hfits
    rw [add_ofNat hfits, pure_bind, ← BitVec.ofNat_toNat, sub_ofNat (by omega) hclz, pure_bind,
      BitVec.setWidth_ofNat_of_le (by omega), log2_eq_sub_clz (Nat.succ_ne_zero _) hfits]

theorem blockAt_ofNat (h : cur < 2 ^ 128) :
    blockAt f (.ofNat 128 cur) (.ofNat 8 (f.width - bits)) = pure (Range.blockAt f cur bits) := by
  have hwidth := f.width_le
  have hlength : (BitVec.ofNat 8 (f.width - bits)).toNat = f.width - bits :=
    toNat_ofNat_of_lt (by omega)
  unfold blockAt
  simp only [hlength, toNat_ofNat_of_lt h]
  exact dif_pos (Nat.sub_le _ _)

theorem turn_ofNat (h : cur ≤ last) (hs : last < 2 ^ f.width) :
    turn f (.ofNat 128 cur) (.ofNat 128 last) =
      let bits := Range.blockBits f.width cur last
      .ok (Range.blockAt f cur bits,
        if last ≤ cur + (2 ^ bits - 1) then none else some (.ofNat 128 (cur + 2 ^ bits))) := by
  have hwidth := f.width_le
  have hl := Family.lt_word hs
  have hbits := Range.blockBits_le_width f.width cur last
  have hpos := Nat.two_pow_pos (Range.blockBits f.width cur last)
  have hblock : cur + (2 ^ Range.blockBits f.width cur last - 1) ≤ last := Range.block_le_last h
  have haligned : Range.alignedBits f.width cur ≤ f.width := by
    unfold Range.alignedBits
    split <;> omega
  have hfitting : (last - cur + 1).log2 < 129 :=
    (Nat.log2_lt (Nat.succ_ne_zero _)).2 (by omega)
  have hlesser : lesser (alignedBits f (.ofNat 128 cur)) (.ofNat 8 (last - cur + 1).log2) =
      .ofNat 8 (Range.blockBits f.width cur last) := by
    rw [alignedBits_ofNat (by omega), lesser_ofNat (by omega) (by omega)]
    rfl
  rw [turn, fittingBits_ofNat h hl, pure_bind, hlesser, f.byteWidth_eq]
  dsimp only
  rw [sub_ofNat (by omega) hbits, pure_bind, blockAt_ofNat (by omega), pure_bind,
    lowBits_ofNat (by omega), pure_bind, or_lowBits (Range.two_pow_blockBits_dvd _ _ _)]
  simp only [ofNat_le_ofNat hl (Nat.lt_of_le_of_lt hblock hl)]
  split
  · rfl
  · rw [add_ofNat (by omega), pure_bind, Nat.add_assoc, Nat.sub_add_cancel hpos]
    rfl

/-- The loop ends, with the blocks that numbers give. -/
theorem turns_ofNat (h : cur ≤ last) (hs : last < 2 ^ f.width) :
    Turns f (.ofNat 128 last) (.ofNat 128 cur) (.ok (Range.blocksFrom f cur last)) := by
  fun_induction Range.blocksFrom f cur last with
  | case1 cur bits hlt ih =>
    rw [Nat.one_shiftLeft] at hlt ih
    have hturn := turn_ofNat h hs
    dsimp only at hturn
    rw [if_neg (Nat.not_le.2 hlt)] at hturn
    have hrest := ih (by omega)
    rw [Nat.one_shiftLeft]
    exact .next hturn hrest
  | case2 cur bits hge =>
    rw [Nat.one_shiftLeft] at hge
    have hturn := turn_ofNat h hs
    dsimp only at hturn
    rw [if_pos (Nat.le_of_not_lt hge)] at hturn
    exact .done hturn

/-- The loop ends in one way only. -/
theorem Turns.unique {last cur : Word} {x y : Checked (List Prefix)} (hx : Turns f last cur x)
    (hy : Turns f last cur y) : x = y := by
  induction hx generalizing y with
  | done h =>
    cases hy with
    | done h' =>
      cases h.symm.trans h'
      rfl
    | next h' hr => cases h.symm.trans h'
    | fault h' => cases h.symm.trans h'
  | next h hr ih =>
    cases hy with
    | done h' => cases h.symm.trans h'
    | next h' hr' =>
      cases h.symm.trans h'
      rw [ih hr']
    | fault h' => cases h.symm.trans h'
  | fault h =>
    cases hy with
    | done h' => cases h.symm.trans h'
    | next h' hr => cases h.symm.trans h'
    | fault h' =>
      cases h.symm.trans h'
      rfl

end

end WordRange

/-! ## Single ranges -/

namespace Range

open WordRange

theorem last_lt_word (r : Range) : r.last < 2 ^ 128 :=
  Family.lt_word r.last_lt

theorem first_lt_word (r : Range) : r.first < 2 ^ 128 :=
  Nat.lt_of_le_of_lt r.ordered r.last_lt_word

variable (r s : Range)

@[simp] theorem family_toWords : r.toWords.family = r.family := rfl

@[simp] theorem first_toWords : r.toWords.first = .ofNat 128 r.first := rfl

@[simp] theorem last_toWords : r.toWords.last = .ofNat 128 r.last := rfl

theorem overlaps_toWords : r.toWords.overlaps s.toWords = r.overlaps s := by
  rw [Bool.eq_iff_iff]
  simp only [WordRange.overlaps, Range.overlaps, Bool.and_eq_true, decide_eq_true_eq]
  simp only [family_toWords, first_toWords, last_toWords,
    ofNat_le_ofNat r.first_lt_word s.last_lt_word, ofNat_le_ofNat s.first_lt_word r.last_lt_word]

theorem before_toWords (h : s.first ≤ r.last) :
    r.toWords.before s.toWords = pure ((r.before s).map toWords) := by
  have hlt : r.toWords.first < s.toWords.first ↔ r.first < s.first ∧ s.first ≤ r.last :=
    (ofNat_lt_ofNat r.first_lt_word s.first_lt_word).trans (and_iff_left h).symm
  unfold WordRange.before Range.before
  simp only [hlt]
  split
  · rename_i hsome
    rw [first_toWords s, sub_ofNat s.first_lt_word (by omega)]
    rfl
  · rfl

theorem after_toWords : r.toWords.after s.toWords = pure ((r.after s).map toWords) := by
  have hlt : s.toWords.last < r.toWords.last ↔ s.last < r.last :=
    ofNat_lt_ofNat s.last_lt_word r.last_lt_word
  unfold WordRange.after Range.after
  simp only [hlt]
  split
  · rename_i hsome
    rw [last_toWords s, add_ofNat (Nat.lt_of_le_of_lt hsome r.last_lt_word)]
    rfl
  · rfl

theorem subtract_toWords : r.toWords.subtract s.toWords = pure ((r.subtract s).map toWords) := by
  unfold WordRange.subtract Range.subtract
  rw [overlaps_toWords]
  split
  · rename_i hoverlap
    have hmeet : s.first ≤ r.last := by
      simp only [Range.overlaps, Bool.and_eq_true, decide_eq_true_eq] at hoverlap
      exact hoverlap.2
    rw [before_toWords r s hmeet, pure_bind, after_toWords, pure_bind, List.map_append]
  · rfl

theorem comesTo_toWords {x : Checked (List Prefix)} :
    r.toWords.ComesTo x ↔ x = .ok r.toPrefixes := by
  have hends : r.toWords.ComesTo (.ok r.toPrefixes) := turns_ofNat r.ordered r.last_lt
  exact ⟨fun h => h.unique hends, fun h => h ▸ hends⟩

end Range

namespace WordRange

theorem ofBounds_eq (f : Family) (first last : Word) :
    ofBounds f first last = (Range.ofBounds f first.toNat last.toNat).map Range.toWords := by
  have hbeyond : f.maxWord < last ↔ ¬ last.toNat ≤ f.maxValue := by
    rw [f.maxWord_eq, BitVec.lt_def, toNat_ofNat_of_lt f.maxValue_lt_word, Nat.not_le]
  have hreversed : last < first ↔ ¬ first.toNat ≤ last.toNat := by
    rw [BitVec.lt_def, Nat.not_le]
  unfold ofBounds Range.ofBounds
  simp only [hreversed, hbeyond]
  by_cases hord : first.toNat ≤ last.toNat
  · by_cases hspace : last.toNat ≤ f.maxValue
    · simp [hord, hspace, Except.map, Range.toWords]
    · simp [hord, hspace, Except.map]
  · simp [hord, Except.map]

theorem ofAddresses_eq (first last : Address) :
    ofAddresses first last = (Range.ofAddresses first last).map Range.toWords := by
  have hword : ∀ a : Address, a.word.toNat = a.value := fun a =>
    toNat_ofNat_of_lt (Family.lt_word (Nat.lt_of_lt_of_eq a.isLt (Nat.one_shiftLeft _)))
  unfold ofAddresses Range.ofAddresses
  split
  · rw [ofBounds_eq, hword, hword]
  · rfl

theorem ofPrefix_eq (p : Prefix) : ofPrefix p = pure (Range.ofPrefix p).toWords := by
  have hwidth := p.family.width_le
  have hlength : p.length ≤ p.family.width := p.le_width
  have hbits : p.family.width - p.length = p.hostBits := rfl
  have hhost : p.hostBits ≤ 128 := Nat.le_trans (Nat.sub_le _ _) hwidth
  have hdvd : 2 ^ p.hostBits ∣ p.address.value >>> p.hostBits <<< p.hostBits := by
    rw [Nat.shiftLeft_eq]
    exact Nat.dvd_mul_left _ _
  rw [ofPrefix, Family.byteWidth_eq, sub_ofNat (by omega) hlength, pure_bind, hbits,
    lowBits_ofNat hhost, pure_bind, Address.word, and_not_lowBits]
  dsimp only
  rw [or_lowBits hdvd, ← Nat.one_shiftLeft]
  rfl

end WordRange

namespace Range

open WordRange

/-! ## Lists of ranges -/

theorem precedes_toWords (r s : Range) : r.toWords.precedes s.toWords = r.precedes s := by
  rw [Bool.eq_iff_iff]
  simp only [WordRange.precedes, Range.precedes, first_toWords, last_toWords, Bool.or_eq_true,
    Bool.and_eq_true, decide_eq_true_eq, ofNat_lt_ofNat r.first_lt_word s.first_lt_word,
    ofNat_eq_ofNat r.first_lt_word s.first_lt_word, ofNat_le_ofNat r.last_lt_word s.last_lt_word]

theorem mergeSort_toWords (rs : List Range) :
    (rs.map toWords).mergeSort WordRange.precedes = (rs.mergeSort precedes).map toWords :=
  (List.map_mergeSort fun r _ s _ => (precedes_toWords r s).symm).symm

theorem joinSorted_toWords {f : Family} {r : Range} {rest : List Range}
    (h : OfFamily f (r :: rest)) :
    WordRange.joinSorted r.toWords (rest.map toWords) = (joinSorted r rest).map toWords := by
  induction rest generalizing r with
  | nil => rfl
  | cons s rest ih =>
    obtain ⟨hr, hrest⟩ := List.forall_mem_cons.1 h
    obtain ⟨hs, htail⟩ := List.forall_mem_cons.1 hrest
    have hjoin : s.toWords.first ≤ saturatingAdd r.toWords.last 1#128 ↔
        r.family = s.family ∧ s.first ≤ r.last + 1 :=
      (ofNat_le_saturatingAdd s.first_lt_word r.last_lt_word (by omega)).trans
        (and_iff_right (hr.trans hs.symm)).symm
    rw [List.map_cons]
    unfold WordRange.joinSorted joinSorted
    simp only [hjoin]
    split
    · rename_i hj
      have hextend : (r.extend s hj.1).toWords =
          { r.toWords with last := greater r.toWords.last s.toWords.last } := by
        have hlast : greater r.toWords.last s.toWords.last = .ofNat 128 (max r.last s.last) :=
          greater_ofNat r.last_lt_word s.last_lt_word
        rw [hlast]
        rfl
      rw [← hextend]
      exact ih (List.forall_mem_cons.2 ⟨hr, htail⟩)
    · rw [List.map_cons, ih hrest]

theorem merge_toWords {f : Family} {rs : List Range} (h : OfFamily f rs) :
    WordRange.merge (rs.map toWords) = pure ((merge rs).map toWords) := by
  have hfamily : ((rs.map toWords).zip (rs.map toWords).tail).all
      (fun q => q.1.family = q.2.family) = true := by
    refine List.all_eq_true.2 ?_
    rintro ⟨v, w⟩ hvw
    obtain ⟨hv, hw⟩ := List.of_mem_zip hvw
    obtain ⟨r, hr, rfl⟩ := List.mem_map.1 hv
    obtain ⟨s, hs, rfl⟩ := List.mem_map.1 (List.mem_of_mem_tail hw)
    exact decide_eq_true ((h r hr).trans (h s hs).symm)
  have hsorted := ofFamily_mergeSort h
  unfold WordRange.merge merge
  rw [if_pos hfamily, mergeSort_toWords]
  cases hcons : rs.mergeSort precedes with
  | nil => rfl
  | cons r rest =>
    rw [hcons] at hsorted
    simp only [List.map_cons, joinSorted_toWords hsorted]

theorem mapM_toWords (g : Range → List Range) {c : WordRange → Checked (List WordRange)}
    (h : ∀ r, c r.toWords = pure ((g r).map toWords)) (rs : List Range) :
    (rs.map toWords).mapM c = pure (rs.map fun r => (g r).map toWords) := by
  have hcomp : c ∘ toWords = fun r => pure ((g r).map toWords) := funext h
  rw [List.mapM_map, hcomp, List.mapM_pure]

theorem flatten_map_toWords (g : Range → List Range) (rs : List Range) :
    (rs.map fun r => (g r).map toWords).flatten = (rs.flatMap g).map toWords := by
  rw [List.map_flatMap, List.flatMap_def]

theorem foldl_subtract_nil (cuts : List Range) :
    cuts.foldl (fun (rest : List Range) cut => rest.flatMap (·.subtract cut)) [] = [] := by
  induction cuts with
  | nil => rfl
  | cons cut cuts ih => exact ih

/-- To stop where nothing is left changes nothing. -/
theorem foldl_subtract_toWords (cuts rest : List Range) :
    WordRange.subtractAll (rest.map toWords) (cuts.map toWords) =
      pure ((cuts.foldl (fun rest cut => rest.flatMap (·.subtract cut)) rest).map toWords) := by
  induction cuts generalizing rest with
  | nil => rfl
  | cons cut cuts ih =>
    rw [List.map_cons, WordRange.subtractAll,
      mapM_toWords (·.subtract cut) fun r => r.subtract_toWords cut, pure_bind]
    dsimp only
    rw [flatten_map_toWords, List.foldl_cons]
    split
    · rename_i hempty
      rw [List.isEmpty_iff, List.map_eq_nil_iff] at hempty
      rw [hempty, foldl_subtract_nil]
      rfl
    · exact ih _

theorem subtractAll_toWords (r : Range) (cuts : List Range) :
    WordRange.subtractAll [r.toWords] (cuts.map toWords) =
      pure ((r.subtractAll cuts).map toWords) :=
  foldl_subtract_toWords cuts [r]

theorem subtractList_toWords {f : Family} {rs cuts : List Range} (h : OfFamily f rs) :
    WordRange.subtractList (rs.map toWords) (cuts.map toWords) =
      pure ((subtractList rs cuts).map toWords) := by
  unfold WordRange.subtractList subtractList
  simp only [List.isEmpty_map]
  split
  · rename_i hempty
    rw [List.isEmpty_iff] at hempty
    subst hempty
    have hmerge : merge [] = [] := by simp [merge]
    rw [List.flatMap_nil, hmerge, ite_self]
    rfl
  · split
    · rfl
    · rw [mapM_toWords (·.subtractAll cuts) fun r => r.subtractAll_toWords cuts,
        pure_bind, flatten_map_toWords]
      exact merge_toWords (ofFamily_flatMap_subtractAll h)

end Range

end SeamlessTunnel
