import Mathlib.Algebra.Group.Nat.Defs
import SeamlessTunnel.Text.Numeral
/-
  SeamlessTunnel.Proofs.Text.Numeral — written numbers read back.

  `digits` are the values of the digits that `render` writes. They are as few as the number
  allows (`length_digits_le`) and do not begin with a zero that could be left out
  (`head?_digits`). What follows a written number is left over, unless it goes on with
  another digit (`leadingDigits_render`). A whole text of digits is read as its value if the
  limit allows it (`natural?_of_isDigit`).
-/

namespace SeamlessTunnel.Text

/-- The digits of a number in a base from two on, the highest first. -/
def digits (base n : Nat) : List Nat :=
  if _ : n < base ∨ base < 2 then [n] else digits base (n / base) ++ [n % base]
termination_by n
decreasing_by exact Nat.div_lt_self (by omega) (by omega)

/-- Whether a text does not begin with a digit. -/
def NoDigitAhead (base : Nat) (cs : List Char) : Prop :=
  ∀ c, cs.head? = some c → digit? base c = none

section

variable {base n k d : Nat} {c : Char} {cs rest : List Char}

/-! ## Digits -/

theorem digits_of_lt (h : n < base) : digits base n = [n] := by
  rw [digits, dif_pos (.inl h)]

theorem digits_ne_nil (base n : Nat) : digits base n ≠ [] := by
  rw [digits]
  split
  · exact List.cons_ne_nil _ _
  · exact List.append_ne_nil_of_right_ne_nil _ (List.cons_ne_nil _ _)

theorem render_eq : render base n = (digits base n).map digitChar := by
  induction n using digits.induct base with
  | case1 n h => rw [render, digits, dif_pos h, dif_pos h, List.map_singleton]
  | case2 n h ih => rw [render, digits, dif_neg h, dif_neg h, ih, List.map_append, List.map_singleton]

theorem ofDigits_concat {ds : List Nat} : ofDigits base (ds ++ [d]) = ofDigits base ds * base + d := by
  simp [ofDigits]

theorem ofDigits_digits : ofDigits base (digits base n) = n := by
  induction n using digits.induct base with
  | case1 n h =>
    rw [digits, dif_pos h]
    simp [ofDigits]
  | case2 n h ih => rw [digits, dif_neg h, ofDigits_concat, ih, Nat.div_add_mod']

theorem lt_of_mem_digits (hb : 2 ≤ base) (h : d ∈ digits base n) : d < base := by
  induction n using digits.induct base with
  | case1 n hn =>
    rw [digits, dif_pos hn, List.mem_singleton] at h
    omega
  | case2 n hn ih =>
    rw [digits, dif_neg hn, List.mem_append, List.mem_singleton] at h
    rcases h with h | rfl
    · exact ih h
    · exact Nat.mod_lt _ (by omega)

/-- A number has no more digits than it needs. -/
theorem length_digits_le (hb : 2 ≤ base) (hk : 0 < k) (h : n < base ^ k) :
    (digits base n).length ≤ k := by
  induction n using digits.induct base generalizing k with
  | case1 n hn =>
    rw [digits, dif_pos hn]
    exact hk
  | case2 n hn ih =>
    rw [digits, dif_neg hn, List.length_append, List.length_singleton]
    obtain _ | _ | k := k
    · omega
    · simp only [Nat.zero_add, Nat.pow_one] at h
      omega
    · have hdiv : n / base < base ^ (k + 1) := by
        rw [Nat.div_lt_iff_lt_mul (by omega), ← Nat.pow_succ]
        exact h
      have := ih (Nat.succ_pos k) hdiv
      omega

/-- No zero is written in front. -/
theorem head?_digits (hb : 2 ≤ base) (h : 0 < n) : (digits base n).head? ≠ some 0 := by
  induction n using digits.induct base with
  | case1 n hn =>
    rw [digits, dif_pos hn]
    simpa using Nat.ne_of_gt h
  | case2 n hn ih =>
    rw [digits, dif_neg hn, List.head?_append]
    obtain ⟨d, ds, hds⟩ := List.exists_cons_of_ne_nil (digits_ne_nil base (n / base))
    have hfirst := ih (Nat.div_pos (by omega) (by omega))
    rw [hds] at hfirst ⊢
    exact hfirst

/-- A number of several digits does not begin with a zero. -/
theorem not_padded (hb : 2 ≤ base) : ¬ (1 < (digits base n).length ∧ (digits base n).head? = some 0) := by
  rintro ⟨hlong, hzero⟩
  obtain rfl | hpos := Nat.eq_zero_or_pos n
  · rw [digits_of_lt (by omega)] at hlong
    exact absurd hlong (by simp)
  · exact head?_digits hb hpos hzero

/-! ## Characters -/

theorem digit?_digitChar (hb : base ≤ 16) (h : d < base) : digit? base (digitChar d) = some d := by
  have hvalue : ∀ d < 16, hexValue? (digitChar d) = some d := by decide
  rw [digit?, hvalue d (Nat.lt_of_lt_of_le h hb)]
  simpa using h

theorem exists_digitChar (hb : 2 ≤ base) (h : c ∈ render base n) : ∃ d < base, c = digitChar d := by
  rw [render_eq] at h
  obtain ⟨d, hd, rfl⟩ := List.mem_map.1 h
  exact ⟨d, lt_of_mem_digits hb hd, rfl⟩

theorem render_ne_nil : render base n ≠ [] := by
  rw [render_eq]
  exact mt List.map_eq_nil_iff.1 (digits_ne_nil _ _)

/-! ## Reading -/

theorem NoDigitAhead.nil : NoDigitAhead base [] := nofun

theorem NoDigitAhead.cons (h : digit? base c = none) : NoDigitAhead base (c :: rest) := by
  intro d hd
  rwa [← Option.some.inj hd]

theorem leadingDigits_eq (h : NoDigitAhead base cs) : leadingDigits base cs = ([], cs) := by
  cases cs with
  | nil => rfl
  | cons c cs =>
    unfold leadingDigits
    rw [h c rfl]

theorem leadingDigits_map {ds : List Nat} (hb : base ≤ 16) (hds : ∀ d ∈ ds, d < base)
    (h : NoDigitAhead base rest) :
    leadingDigits base (ds.map digitChar ++ rest) = (ds, rest) := by
  induction ds with
  | nil => exact leadingDigits_eq h
  | cons d ds ih =>
    obtain ⟨hd, hds⟩ := List.forall_mem_cons.1 hds
    rw [List.map_cons, List.cons_append, leadingDigits, digit?_digitChar hb hd, ih hds]

theorem leadingDigits_render (hb : 2 ≤ base) (hb' : base ≤ 16) (h : NoDigitAhead base rest) :
    leadingDigits base (render base n ++ rest) = (digits base n, rest) := by
  rw [render_eq]
  exact leadingDigits_map hb' (fun _ hd => lt_of_mem_digits hb hd) h

/-! ## Whole texts of decimal digits -/

theorem digit?_of_isDigit (h : c.isDigit = true) : digit? 10 c = some (c.toNat - 48) := by
  simp only [Char.isDigit, Bool.and_eq_true, decide_eq_true_eq] at h
  have hlow : 48 ≤ c.toNat := UInt32.le_iff_toNat_le.1 h.1
  have hhigh : c.toNat ≤ 57 := UInt32.le_iff_toNat_le.1 h.2
  have hvalue : c.toNat - 48 < 10 := by omega
  simp [digit?, hexValue?, hlow, hhigh, hvalue]

theorem isDigit_of_digit? (h : digit? 10 c = some d) : c.isDigit = true := by
  unfold digit? hexValue? at h
  simp only [Char.isDigit, Bool.and_eq_true, decide_eq_true_eq]
  have hbounds : 48 ≤ c.toNat ∧ c.toNat ≤ 57 := by grind
  exact ⟨UInt32.le_iff_toNat_le.2 hbounds.1, UInt32.le_iff_toNat_le.2 hbounds.2⟩

/-- Where no other character stops the digits of a text, it is all digits. -/
theorem isDigit_of_leadingDigits (h : (leadingDigits 10 cs).2 = []) :
    ∀ c ∈ cs, c.isDigit = true := by
  induction cs with
  | nil => nofun
  | cons c cs ih =>
    unfold leadingDigits at h
    split at h
    · rename_i d hd
      exact List.forall_mem_cons.2 ⟨isDigit_of_digit? hd, ih h⟩
    · cases h

theorem leadingDigits_of_isDigit (h : ∀ c ∈ cs, c.isDigit = true) :
    leadingDigits 10 cs = (cs.map fun c => c.toNat - 48, []) := by
  induction cs with
  | nil => rfl
  | cons c cs ih =>
    obtain ⟨hc, hcs⟩ := List.forall_mem_cons.1 h
    rw [leadingDigits, digit?_of_isDigit hc, ih hcs]
    rfl

theorem ofDigits_map_toNat :
    ofDigits 10 (cs.map fun c => c.toNat - 48) = Nat.ofDigitChars 10 cs 0 := by
  simp only [ofDigits, List.foldl_map, Nat.ofDigitChars, Nat.mul_comm]
  rfl

/-- A text of digits is read as its value up to the limit, however long it is. -/
theorem natural?_of_isDigit {limit : Nat} (hne : cs ≠ []) (h : ∀ c ∈ cs, c.isDigit = true) :
    natural? limit cs =
      if Nat.ofDigitChars 10 cs 0 ≤ limit then some (Nat.ofDigitChars 10 cs 0) else none := by
  obtain ⟨c, rest, rfl⟩ := List.exists_cons_of_ne_nil hne
  have hplus : c ≠ '+' := by
    rintro rfl
    exact absurd (h '+' List.mem_cons_self) (by decide)
  have hread := leadingDigits_of_isDigit h
  rw [List.map_cons] at hread
  unfold natural?
  split
  · rename_i heq
    exact absurd (List.cons.inj heq).1 hplus
  · simp only [hread, ← ofDigits_map_toNat, List.map_cons]

theorem isDigit_of_mem_decimal (h : c ∈ decimal n) : c.isDigit = true := by
  obtain ⟨d, hd, rfl⟩ := exists_digitChar (by omega) h
  have hdigit : ∀ d < 10, (digitChar d).isDigit = true := by decide
  exact hdigit d hd

theorem ofDigitChars_decimal : Nat.ofDigitChars 10 (decimal n) 0 = n := by
  have hread : leadingDigits 10 (render 10 n ++ []) = (digits 10 n, []) :=
    leadingDigits_render (by omega) (by omega) .nil
  rw [List.append_nil] at hread
  have hdigits : leadingDigits 10 (decimal n) = (digits 10 n, []) := hread
  rw [leadingDigits_of_isDigit fun _ => isDigit_of_mem_decimal] at hdigits
  rw [← ofDigits_map_toNat, (Prod.mk.inj hdigits).1, ofDigits_digits]

theorem natural?_decimal {limit : Nat} (h : n ≤ limit) : natural? limit (decimal n) = some n := by
  have hne : decimal n ≠ [] := render_ne_nil
  rw [natural?_of_isDigit hne fun _ => isDigit_of_mem_decimal, ofDigitChars_decimal, if_pos h]

end

end SeamlessTunnel.Text
