import SeamlessTunnel.Address.Printer
import SeamlessTunnel.Address.Reader
import SeamlessTunnel.Proofs.Text.Numeral
/-
  SeamlessTunnel.Proofs.Address.RoundTrip — written addresses read back.

  Both grammars read the text of an address as this address and leave what follows it
  (`read_render`), if that does not go on with a digit, a colon or a dot (`Closes`). A text
  of IPv6 is no dotted one, because in front of its first colon no dot stands
  (`readDotted_hexGroups`). The groups that `::` stands for are zeros
  (`longestZeroRun_spec`), and their number is what the others leave of eight.
-/

namespace SeamlessTunnel.Address

open Text (NoDigitAhead digit? digits hexValue? leadingDigits ofDigits)

/-- Whether no address goes on with a text. -/
def Closes (rest : List Char) : Prop :=
  ∀ c, rest.head? = some c → hexValue? c = none ∧ c ≠ ':' ∧ c ≠ '.'

/-- Whether groups, and an address that they end, stop before a text. -/
structure Stops (cs : List Char) : Prop where
  digit : NoDigitAhead 16 cs
  dot : cs.head? ≠ some '.'
  colon : ∀ after, cs = ':' :: after → NoDigitAhead 16 after

section

variable {g : Grammar} {base maxDigits limit n room : Nat} {padded isFirst : Bool} {c : Char}
  {os gs : List Nat} {cs rest : List Char} {a : Address}

/-! ## Ends -/

theorem Closes.nil : Closes [] := nofun

theorem Closes.cons (h : hexValue? c = none) (hcolon : c ≠ ':') (hdot : c ≠ '.') :
    Closes (c :: rest) := by
  intro d hd
  rw [← Option.some.inj hd]
  exact ⟨h, hcolon, hdot⟩

theorem Closes.noDigit (h : Closes rest) : NoDigitAhead base rest := by
  intro c hc
  rw [digit?, (h c hc).1, Option.filter_none]

theorem Closes.stops (h : Closes rest) : Stops rest where
  digit := h.noDigit
  dot hdot := (h _ hdot).2.2 rfl
  colon after hafter := absurd rfl (h ':' (by rw [hafter, List.head?_cons])).2.1

theorem noDigit_colon : NoDigitAhead base (':' :: rest) :=
  .cons (by rw [digit?, show hexValue? ':' = none by decide, Option.filter_none])

theorem Stops.colons : Stops (':' :: ':' :: rest) where
  digit := noDigit_colon
  dot := by simp
  colon after hafter := by
    obtain rfl := (List.cons.inj hafter).2
    exact noDigit_colon

theorem noDigit_ten (h : NoDigitAhead 16 rest) : NoDigitAhead 10 rest := by
  intro c hc
  have hc := h c hc
  rw [digit?, Option.filter_eq_none_iff] at hc ⊢
  intro d hd hten
  refine hc d hd ?_
  simp only [decide_eq_true_eq] at hten ⊢
  omega

/-! ## One number -/

theorem readNumber_render (hb : 2 ≤ base) (hb' : base ≤ 16) (hmax : 0 < maxDigits)
    (hn : n < base ^ maxDigits) (hlimit : n < limit) (h : NoDigitAhead base rest) :
    readNumber base maxDigits limit padded (Text.render base n ++ rest) = some (n, rest) := by
  have hlength : (digits base n).length ≤ maxDigits := Text.length_digits_le hb hmax hn
  have hpadded := Text.not_padded (n := n) hb
  have hempty : (digits base n).isEmpty = false := by
    simpa using Text.digits_ne_nil _ _
  rw [readNumber, Text.leadingDigits_render hb hb' h]
  simp only [Text.ofDigits_digits, hempty]
  rw [if_neg (by simp; omega), if_neg (by simp; intro _ hlong hzero; exact hpadded ⟨hlong, hzero⟩)]

theorem readNumber_eq_none (h : NoDigitAhead base cs) :
    readNumber base maxDigits limit padded cs = none := by
  rw [readNumber, Text.leadingDigits_eq h]
  rfl

/-! ## Dotted addresses -/

theorem joined_cons {sep : Char} {t : List Char} {ts : List (List Char)} :
    joined sep (t :: ts) = t ++ ts.flatMap (sep :: ·) := by
  induction ts generalizing t with
  | nil => simp [joined]
  | cons t' ts ih => rw [joined, ih, List.flatMap_cons, List.cons_append]; nofun

theorem readOctet (hn : n < 256) (h : NoDigitAhead 10 rest) :
    readNumber 10 3 256 padded (Text.decimal n ++ rest) = some (n, rest) :=
  readNumber_render (by omega) (by omega) (by omega) (by omega) hn h

theorem noDigit_flatMap (sep : Char) {ts : List (List Char)} (hsep : hexValue? sep = none)
    (h : NoDigitAhead base rest) : NoDigitAhead base (ts.flatMap (sep :: ·) ++ rest) := by
  cases ts with
  | nil => exact h
  | cons t ts => exact .cons (by rw [digit?, hsep, Option.filter_none])

theorem readOctets_flatMap (hos : ∀ n ∈ os, n < 256) (h : NoDigitAhead 10 rest) :
    readOctets g os.length false ((os.map Text.decimal).flatMap ('.' :: ·) ++ rest) =
      some (os, rest) := by
  induction os with
  | nil => rfl
  | cons n os ih =>
    obtain ⟨hn, hos⟩ := List.forall_mem_cons.1 hos
    have hmore : NoDigitAhead 10 ((os.map Text.decimal).flatMap ('.' :: ·) ++ rest) :=
      noDigit_flatMap '.' (by decide) h
    simp only [List.map_cons, List.flatMap_cons, List.cons_append, List.append_assoc,
      List.length_cons, readOctets, readChar]
    simp [readOctet hn hmore, ih hos]

theorem ofOctets_octets : ofOctets (octets n) = n % 4294967296 := by
  simp only [ofOctets, octets, ofDigits, List.foldl_cons, List.foldl_nil,
    Nat.shiftRight_eq_div_pow]
  omega

theorem readDotted_dotted (h : NoDigitAhead 10 rest) :
    readDotted g (dotted n ++ rest) = some (n % 4294967296, rest) := by
  have hos : ∀ m ∈ octets n, m < 256 := by
    simp [octets, Nat.mod_lt]
  have hread : readOctets g 4 true (dotted n ++ rest) = some (octets n, rest) := by
    obtain ⟨hfirst, hos⟩ := List.forall_mem_cons.1 hos
    have hmore := readOctets_flatMap (g := g) hos h
    rw [dotted, octets, List.map_cons, joined_cons, List.append_assoc, readOctets]
    simp only [if_true, Option.bind_eq_bind, Option.bind_some,
      readOctet hfirst (noDigit_flatMap '.' (by decide) h)]
    exact congrArg (· >>= _) hmore
  rw [readDotted, hread, Option.map_some]
  exact congrArg (fun m => some (m, rest)) ofOctets_octets

theorem rest_of_readNumber (h : readNumber base maxDigits limit padded cs = some (n, rest)) :
    rest = (leadingDigits base cs).2 := by
  simp only [readNumber] at h
  split at h
  · cases h
  · split at h
    · cases h
    · exact (congrArg Prod.snd (Option.some.inj h)).symm

theorem value_of_readNumber (h : readNumber base maxDigits limit padded cs = some (n, rest)) :
    n = ofDigits base (leadingDigits base cs).1 := by
  simp only [readNumber] at h
  split at h
  · cases h
  · split at h
    · cases h
    · exact (congrArg Prod.fst (Option.some.inj h)).symm

/-- Without a dot behind its first digits a text is no dotted address. -/
theorem readDotted_eq_none (h : (leadingDigits 10 cs).2.head? ≠ some '.') :
    readDotted g cs = none := by
  have hread : readOctets g 4 true cs = none := by
    rw [readOctets]
    simp only [if_true, Option.bind_eq_bind, Option.bind_some]
    cases hfirst : readNumber 10 3 256 g.paddedOctets cs with
    | none => rfl
    | some first =>
      have hdot : readChar '.' first.2 = none := by
        rw [rest_of_readNumber hfirst]
        cases hrest : (leadingDigits 10 cs).2 with
        | nil => rfl
        | cons c after =>
          rw [hrest, List.head?_cons] at h
          exact if_neg fun hc => h (congrArg some hc)
      simp [readOctets, hdot]
  rw [readDotted, hread, Option.map_none]

/-! ## Groups -/

theorem head?_leadingDigits_map {ds : List Nat} (hds : ∀ d ∈ ds, d < 16) (h : NoDigitAhead 10 rest)
    (hdot : rest.head? ≠ some '.') :
    (leadingDigits 10 (ds.map Text.digitChar ++ rest)).2.head? ≠ some '.' := by
  induction ds with
  | nil => rwa [List.map_nil, List.nil_append, Text.leadingDigits_eq h]
  | cons d ds ih =>
    obtain ⟨hd, hds⟩ := List.forall_mem_cons.1 hds
    rw [List.map_cons, List.cons_append, leadingDigits]
    cases digit? 10 (Text.digitChar d) with
    | some _ => exact ih hds
    | none =>
      have hchar : ∀ d < 16, Text.digitChar d ≠ '.' := by decide
      exact fun heq => hchar d hd (Option.some.inj heq)

theorem readDotted_group (h : NoDigitAhead 10 rest) (hdot : rest.head? ≠ some '.') :
    readDotted g (Text.render 16 n ++ rest) = none := by
  rw [Text.render_eq]
  exact readDotted_eq_none
    (head?_leadingDigits_map (fun _ hd => Text.lt_of_mem_digits (by omega) hd) h hdot)

theorem readDotted_noDigit (h : NoDigitAhead 10 cs) : readDotted g cs = none := by
  have hread : readOctets g 4 true cs = none := by
    simp [readOctets, readNumber_eq_none h]
  rw [readDotted, hread, Option.map_none]

/-- Where no group can begin, none is read. -/
theorem readGroups_of_stops (h : Stops cs) : readGroups g room isFirst cs = ⟨[], false, cs⟩ := by
  have hnone : ∀ after, (if isFirst then some cs else readChar ':' cs) = some after →
      NoDigitAhead 16 after := by
    intro after hafter
    cases isFirst with
    | true => exact Option.some.inj hafter ▸ h.digit
    | false =>
      cases cs with
      | nil => cases hafter
      | cons c cs =>
        obtain rfl | hc := Decidable.em (c = ':')
        · exact h.colon after (congrArg _ (Option.some.inj hafter))
        · exact absurd hafter (by simp [readChar, hc])
  cases room with
  | zero => rfl
  | succ room =>
    unfold readGroups
    split
    · rfl
    · rename_i after hafter
      have hdigit := hnone after hafter
      simp only [readDotted_noDigit (noDigit_ten hdigit), ite_self, readNumber_eq_none hdigit]

theorem readGroup (hn : n < 65536) (h : NoDigitAhead 16 rest) :
    readNumber 16 4 65536 true (Text.render 16 n ++ rest) = some (n, rest) :=
  readNumber_render (by omega) (by omega) (by omega) (by omega) hn h

theorem Stops.flatMap (h : Stops rest) (ts : List (List Char)) :
    NoDigitAhead 16 (ts.flatMap (':' :: ·) ++ rest) ∧
      (ts.flatMap (':' :: ·) ++ rest).head? ≠ some '.' := by
  cases ts with
  | nil => exact ⟨h.digit, h.dot⟩
  | cons t ts => exact ⟨noDigit_colon, by simp⟩

theorem readGroups_flatMap (hgs : ∀ n ∈ gs, n < 65536) (hroom : gs.length ≤ room)
    (h : Stops rest) :
    readGroups g room false ((gs.map (Text.render 16)).flatMap (':' :: ·) ++ rest) =
      ⟨gs, false, rest⟩ := by
  induction gs generalizing room with
  | nil => exact readGroups_of_stops h
  | cons n gs ih =>
    obtain ⟨hn, hgs⟩ := List.forall_mem_cons.1 hgs
    obtain ⟨room, rfl⟩ := Nat.exists_eq_add_one_of_ne_zero (n := room) (by
      rintro rfl
      exact absurd hroom (by simp))
    obtain ⟨hdigit, hdot⟩ := h.flatMap (gs.map (Text.render 16))
    simp only [List.map_cons, List.flatMap_cons, List.cons_append, List.append_assoc, readGroups,
      readChar]
    simp [readDotted_group (noDigit_ten hdigit) hdot, readGroup hn hdigit,
      ih hgs (Nat.le_of_succ_le_succ hroom)]

theorem readGroups_hexGroups (hgs : ∀ n ∈ gs, n < 65536) (hroom : gs.length ≤ room)
    (h : Stops rest) : readGroups g room true (hexGroups gs ++ rest) = ⟨gs, false, rest⟩ := by
  cases gs with
  | nil => exact readGroups_of_stops h
  | cons n gs =>
    obtain ⟨hn, hgs⟩ := List.forall_mem_cons.1 hgs
    obtain ⟨room, rfl⟩ := Nat.exists_eq_add_one_of_ne_zero (n := room) (by
      rintro rfl
      exact absurd hroom (by simp))
    obtain ⟨hdigit, hdot⟩ := h.flatMap (gs.map (Text.render 16))
    rw [hexGroups, List.map_cons, joined_cons, List.append_assoc, readGroups]
    simp [readDotted_group (noDigit_ten hdigit) hdot, readGroup hn hdigit,
      readGroups_flatMap hgs (Nat.le_of_succ_le_succ hroom) h]

/-- A text of groups is no dotted address. -/
theorem readDotted_hexGroups (h : Stops rest) : readDotted g (hexGroups gs ++ rest) = none := by
  cases gs with
  | nil => exact readDotted_noDigit (noDigit_ten h.digit)
  | cons n gs =>
    obtain ⟨hdigit, hdot⟩ := h.flatMap (gs.map (Text.render 16))
    rw [hexGroups, List.map_cons, joined_cons, List.append_assoc]
    exact readDotted_group (noDigit_ten hdigit) hdot

/-! ## The run of zeros -/

theorem eq_replicate_append {k : Nat} (h : k ≤ zerosAhead gs) :
    gs = List.replicate k 0 ++ gs.drop k := by
  induction gs generalizing k with
  | nil => simp_all [zerosAhead]
  | cons n gs ih =>
    cases k with
    | zero => rfl
    | succ k =>
      obtain rfl | hn := Decidable.em (n = 0)
      · simp only [zerosAhead, List.takeWhile_cons, decide_true, if_true, List.length_cons] at h
        rw [List.replicate_succ, List.cons_append, List.drop_succ_cons,
          ← ih (Nat.le_of_succ_le_succ h)]
      · simp [zerosAhead, hn] at h

/-- The groups of the longest run of zeros are zeros. -/
theorem longestZeroRun_spec :
    (longestZeroRun gs).2 ≤ zerosAhead (gs.drop (longestZeroRun gs).1) := by
  unfold longestZeroRun
  generalize List.range gs.length = is
  have hstart : (0, 0).2 ≤ zerosAhead (gs.drop (0, 0).1) := Nat.zero_le _
  revert hstart
  generalize (0, 0) = best
  induction is generalizing best with
  | nil => exact id
  | cons i is ih =>
    intro hbest
    rw [List.foldl_cons]
    refine ih _ ?_
    split
    · exact Nat.le_refl _
    · exact hbest

theorem split_longestZeroRun (gs : List Nat) :
    gs = gs.take (longestZeroRun gs).1 ++ (List.replicate (longestZeroRun gs).2 0 ++
      gs.drop ((longestZeroRun gs).1 + (longestZeroRun gs).2)) := by
  rw [← List.drop_drop, ← eq_replicate_append longestZeroRun_spec, List.take_append_drop]

/-! ## Eight groups -/

/-- Groups on both sides of `::`, which stands for zeros in place of the others. -/
theorem readColons_gap (front : List Nat) {back : List Nat} {text : List Char} {dotted : Bool}
    (hfront : ∀ n ∈ front, n < 65536) (hlength : front.length < 8)
    (hback : ∀ room, 7 - front.length ≤ room → readGroups g room true text = ⟨back, dotted, rest⟩) :
    readColons g (hexGroups front ++ ':' :: ':' :: text) =
      some (ofGroups (front ++ List.replicate (8 - front.length - back.length) 0 ++ back), rest) := by
  have hread : readGroups g 8 true (hexGroups front ++ ':' :: ':' :: text) =
      ⟨front, false, ':' :: ':' :: text⟩ :=
    readGroups_hexGroups hfront (by omega) .colons
  have hroom : readGroups g (if g.emptyRun then 8 - front.length else 8 - front.length - 1) true text =
      ⟨back, dotted, rest⟩ :=
    hback _ (by split <;> omega)
  simp [readColons, hread, readChar, hroom, Nat.ne_of_lt hlength]

theorem readColons_compressed (hlength : gs.length = 8) (hgs : ∀ n ∈ gs, n < 65536)
    (h : Stops rest) : readColons g (compressed gs ++ rest) = some (ofGroups gs, rest) := by
  simp only [compressed]
  split
  · have hread : readGroups g 8 true (hexGroups gs ++ rest) = ⟨gs, false, rest⟩ :=
      readGroups_hexGroups hgs (by omega) h
    simp [readColons, hread, hlength]
  · rename_i hrun
    have hsplit := split_longestZeroRun gs
    generalize (longestZeroRun gs).1 = start at *
    generalize (longestZeroRun gs).2 = count at *
    have htotal := congrArg List.length hsplit
    simp only [List.length_append, List.length_replicate, hlength] at htotal
    rw [List.append_assoc, List.cons_append, List.cons_append,
      readColons_gap _ (fun n hn => hgs n (List.mem_of_mem_take hn)) (by omega) fun room hroom =>
        readGroups_hexGroups (fun n hn => hgs n (List.mem_of_mem_drop hn)) (by omega) h,
      show 8 - (gs.take start).length - (gs.drop (start + count)).length = count by omega,
      List.append_assoc, ← hsplit]

theorem readDotted_compressed (h : Stops rest) : readDotted g (compressed gs ++ rest) = none := by
  simp only [compressed]
  split
  · exact readDotted_hexGroups h
  · rw [List.append_assoc]
    exact readDotted_hexGroups .colons

/-! ## An embedded IPv4 address -/

theorem readGroups_mapped (hroom : 3 ≤ room) (h : NoDigitAhead 10 rest) :
    readGroups g room true ("ffff:".toList ++ (dotted n ++ rest)) =
      ⟨[65535, n % 4294967296 / 65536, n % 4294967296 % 65536], true, rest⟩ := by
  obtain ⟨room, rfl⟩ := Nat.exists_eq_add_of_le' hroom
  have hgroup : readDotted g ("ffff:".toList ++ (dotted n ++ rest)) = none :=
    readDotted_noDigit (.cons rfl)
  have hnumber : readNumber 16 4 65536 true ("ffff:".toList ++ (dotted n ++ rest)) =
      some (65535, ':' :: (dotted n ++ rest)) := rfl
  simp only [readGroups, if_true, hgroup, ite_self, hnumber]
  simp [readChar, readDotted_dotted h]

/-! ## Addresses -/

theorem shiftRight_step {k : Nat} :
    n >>> (k + 16) * 65536 + n >>> k % 65536 = n >>> k := by
  rw [Nat.shiftRight_add, Nat.shiftRight_eq_div_pow (n >>> k)]
  exact Nat.div_add_mod' _ _

theorem ofGroups_groups (h : n < 1 <<< Family.ipv6.width) : ofGroups (groups n) = n := by
  have htop : n >>> 112 % 65536 = n >>> 112 := by
    apply Nat.mod_eq_of_lt
    rw [Nat.shiftRight_eq_div_pow]
    exact Nat.div_lt_of_lt_mul h
  simp only [ofGroups, groups, ofDigits, List.foldl_cons, List.foldl_nil, htop]
  rw [Nat.zero_mul, Nat.zero_add, shiftRight_step (k := 96), shiftRight_step (k := 80),
    shiftRight_step (k := 64), shiftRight_step (k := 48), shiftRight_step (k := 32),
    shiftRight_step (k := 16)]
  exact shiftRight_step (k := 0)

theorem lt_of_mem_groups {m : Nat} (h : m ∈ groups n) : m < 65536 := by
  simp only [groups, List.mem_cons, List.not_mem_nil, or_false] at h
  omega

theorem groups_of_isMapped (h : isMapped (groups n)) :
    groups n = [0, 0, 0, 0, 0, 65535, n % 4294967296 / 65536, n % 4294967296 % 65536] := by
  have htake : (groups n).take 6 = [0, 0, 0, 0, 0, 65535] := of_decide_eq_true h
  have hdrop : (groups n).drop 6 = [n % 4294967296 / 65536, n % 4294967296 % 65536] := by
    have hhigh : n >>> 16 % 65536 = n % 4294967296 / 65536 := by
      rw [Nat.shiftRight_eq_div_pow]
      omega
    have hlow : n % 65536 = n % 4294967296 % 65536 := by omega
    simp only [groups, List.drop_succ_cons, List.drop_zero, hhigh, ← hlow]
  rw [← List.take_append_drop 6 (groups n), htake, hdrop]
  rfl

theorem ofNat_eq {f : Family} (h : n < 1 <<< f.width) : ofNat f n = ⟨f, n, h⟩ :=
  ofNat_value ⟨f, n, h⟩

/-- A written address reads back in either grammar, and leaves what follows it. -/
theorem read_render (h : Closes rest) : read g (a.render ++ rest) = some (a, rest) := by
  obtain ⟨family, v, hv⟩ := a
  cases family with
  | ipv4 =>
    have hread : readDotted g (dotted v ++ rest) = some (v, rest) := by
      rw [readDotted_dotted h.noDigit, Nat.mod_eq_of_lt (show v < 4294967296 from hv)]
    simp only [render, read, hread, ofNat_eq hv]
  | ipv6 =>
    suffices hread : readDotted g (render ⟨.ipv6, v, hv⟩ ++ rest) = none ∧
        readColons g (render ⟨.ipv6, v, hv⟩ ++ rest) = some (v, rest) by
      simp only [read, hread.1, hread.2, Option.map_some, ofNat_eq hv]
    simp only [render]
    split
    · rename_i hmapped
      have hback := fun room (hroom : 7 - ([] : List Nat).length ≤ room) =>
        readGroups_mapped (g := g) (n := v) (Nat.le_trans (by decide) hroom) h.noDigit
      have hcolons := readColons_gap [] (fun _ hn => by cases hn) (by decide) hback
      have hvalue := groups_of_isMapped hmapped ▸ ofGroups_groups hv
      refine ⟨readDotted_noDigit (.cons rfl), ?_⟩
      rw [List.append_assoc]
      exact hcolons.trans (congrArg (fun n => some (n, rest)) hvalue)
    · rw [readColons_compressed rfl (fun _ => lt_of_mem_groups) h.stops, ofGroups_groups hv]
      exact ⟨readDotted_compressed h.stops, rfl⟩

theorem ofChars?_render : ofChars? a.render = some a := by
  have hread : read .strict (a.render ++ []) = some (a, []) := read_render .nil
  rw [List.append_nil] at hread
  rw [ofChars?, hread]

/-! ## Characters -/

section

variable {P : Char → Prop}

theorem forall_mem_joined {sep : Char} {ts : List (List Char)} (hsep : P sep)
    (h : ∀ t ∈ ts, ∀ c ∈ t, P c) : ∀ c ∈ joined sep ts, P c := by
  induction ts with
  | nil => nofun
  | cons t ts ih =>
    obtain ⟨ht, hts⟩ := List.forall_mem_cons.1 h
    rw [joined_cons]
    intro c hc
    rcases List.mem_append.1 hc with hc | hc
    · exact ht c hc
    · obtain ⟨t', ht', hc⟩ := List.mem_flatMap.1 hc
      rcases List.mem_cons.1 hc with rfl | hc
      · exact hsep
      · exact hts t' ht' c hc

theorem forall_mem_numbers {sep : Char} {ns : List Nat} (hbase : 2 ≤ base) (hsep : P sep)
    (hdigit : ∀ d < base, P (Text.digitChar d)) :
    ∀ c ∈ joined sep (ns.map (Text.render base)), P c := by
  apply forall_mem_joined hsep
  intro t ht c hc
  obtain ⟨n, -, rfl⟩ := List.mem_map.1 ht
  obtain ⟨d, hd, rfl⟩ := Text.exists_digitChar hbase hc
  exact hdigit d hd

/-- An address is written in hexadecimal digits, colons and dots. -/
theorem forall_mem_render (hdigit : ∀ d < 16, P (Text.digitChar d)) (hcolon : P ':')
    (hdot : P '.') : ∀ c ∈ a.render, P c := by
  have hgroups : ∀ gs, ∀ c ∈ hexGroups gs, P c := fun gs =>
    forall_mem_numbers (by decide) hcolon hdigit
  have hdotted : ∀ n, ∀ c ∈ dotted n, P c := fun n =>
    forall_mem_numbers (by decide) hdot fun d hd => hdigit d (by omega)
  have hmapped : ∀ c ∈ "::ffff:".toList, P c := by
    have hf : P 'f' := hdigit 15 (by decide)
    simp [hcolon, hf]
  have hcompressed : ∀ gs, ∀ c ∈ compressed gs, P c := by
    intro gs
    simp only [compressed]
    split
    · exact hgroups gs
    · simp only [List.forall_mem_append, List.forall_mem_cons]
      exact ⟨hgroups _, hcolon, hcolon, hgroups _⟩
  unfold render
  split
  · exact hdotted _
  · split
    · exact List.forall_mem_append.2 ⟨hmapped, hdotted _⟩
    · exact hcompressed _

theorem render_ne_nil : a.render ≠ [] := by
  intro hnil
  have hread := ofChars?_render (a := a)
  rw [hnil] at hread
  cases hread

end

end

end SeamlessTunnel.Address
