import SeamlessTunnel.Prefix.Basic
import SeamlessTunnel.Proofs.Address.Characters
import SeamlessTunnel.Proofs.Text.Words
/-
  SeamlessTunnel.Proofs.Prefix.Lengths — an address, a slash and a number.

  Whatever the spelling of the address and however many digits there are, the number alone
  decides (`ofText?_withLength`): up to the width of the family it is the length of the
  prefix, and from there up to 255 it is refused as a length. Past 255 the text is refused
  as if there were no number (`length_past255`), because lengths are read as one byte. In a
  listing too, a prefix has the length that its digits give (`exists_of_ofListing?`).
-/

namespace SeamlessTunnel.Prefix

open Address (Spends isAddressChar readChar rest_of_readNumber spends_readColons spends_readDotted
  value_of_readNumber)

section

variable {cs ds before after text : List Char} {c : Char} {a : Address} {f : Family} {maxDigits n : Nat}
  {p : Prefix}

/-- The characters of an address lie between two groups of blanks. -/
theorem toNat_of_isAddressChar (h : isAddressChar c = true) : 46 ≤ c.toNat ∧ c.toNat ≤ 102 := by
  simp only [isAddressChar, Bool.or_eq_true, decide_eq_true_eq] at h
  rcases h with (hhex | rfl) | rfl
  · unfold Text.hexValue? at hhex
    grind
  · decide
  · decide

theorem notBlank_of_isAddressChar (h : isAddressChar c = true) : Text.isBlank c = false := by
  have hrange := toNat_of_isAddressChar h
  exact Text.notBlank_of_visible (by omega)

theorem ne_slash_of_isAddressChar (h : isAddressChar c = true) : c ≠ '/' := by
  rintro rfl
  exact absurd h (by decide)

theorem notBlank_of_isDigit (h : c.isDigit = true) : Text.isBlank c = false := by
  apply notBlank_of_isAddressChar
  exact Address.isAddressChar_of_digit? (Text.digit?_of_isDigit h)

/-- Blanks around a prefix do not show. -/
theorem ofChars?_padded (hbefore : ∀ c ∈ before, Text.isBlank c = true)
    (hafter : ∀ c ∈ after, Text.isBlank c = true) :
    ofChars? (before ++ (cs ++ after)) = ofChars? cs := by
  simp only [ofChars?, Text.trim_padded hbefore hafter]

/-- Behind an address and a slash, digits are judged as a number of one byte. -/
theorem ofChars?_parts (ha : Address.ofChars? cs = some a) (hne : ds ≠ [])
    (hds : ∀ c ∈ ds, c.isDigit = true) :
    ofChars? (cs ++ '/' :: ds) =
      if Nat.ofDigitChars 10 ds 0 ≤ 255 then ofParts a (Nat.ofDigitChars 10 ds 0)
      else .error (.invalidPrefix (String.ofList (cs ++ '/' :: ds)) .length) := by
  have hcs := Address.isAddressChar_of_ofChars? ha
  have hblank : ∀ c ∈ cs ++ '/' :: ds, Text.isBlank c = false := by
    intro c hc
    rcases List.mem_append.1 hc with hc | hc
    · exact notBlank_of_isAddressChar (hcs c hc)
    · rcases List.mem_cons.1 hc with rfl | hc
      · decide
      · exact notBlank_of_isDigit (hds c hc)
  have htrim : Text.trim (cs ++ '/' :: ds) = cs ++ '/' :: ds :=
    Text.trim_of_ends (fun c hc => hblank c (List.mem_of_head? hc))
      (fun c hc => hblank c (List.mem_of_getLast? hc))
  have hcut : Text.cutAt '/' (cs ++ '/' :: ds) = some (cs, ds) :=
    Text.cutAt_append fun c hc => ne_slash_of_isAddressChar (hcs c hc)
  have hempty : (cs ++ '/' :: ds).isEmpty = false := by simp
  simp only [ofChars?, htrim, hempty, hcut, ha, Text.natural?_of_isDigit hne hds]
  by_cases hbyte : Nat.ofDigitChars 10 ds 0 ≤ 255
  · simp [hbyte]
  · simp [hbyte]

/-- What an address, a slash and digits are read as, by the value of the digits. -/
theorem ofText?_withLength {s digits : String} (ha : Address.ofText? s = some a)
    (hne : digits ≠ "") (hdigits : ∀ c ∈ digits.toList, c.isDigit = true) :
    (∀ h : Nat.ofDigitChars 10 digits.toList 0 ≤ a.family.width,
      ofText? (s ++ "/" ++ digits) = .ok ⟨a, Nat.ofDigitChars 10 digits.toList 0, h⟩) ∧
    (a.family.width < Nat.ofDigitChars 10 digits.toList 0 →
      Nat.ofDigitChars 10 digits.toList 0 ≤ 255 →
      ofText? (s ++ "/" ++ digits) = .error
        (.prefixLength (Nat.ofDigitChars 10 digits.toList 0) a.family.width a.family)) ∧
    (255 < Nat.ofDigitChars 10 digits.toList 0 →
      ofText? (s ++ "/" ++ digits) = .error (.invalidPrefix (s ++ "/" ++ digits) .length)) := by
  have hchars : (s ++ "/" ++ digits).toList = s.toList ++ '/' :: digits.toList := by simp
  have hread := ofChars?_parts ha (mt String.toList_eq_nil_iff.1 hne) hdigits
  rw [← hchars, String.ofList_toList] at hread
  have hwidth : a.family.width ≤ 255 := Nat.le_trans a.family.width_le (by decide)
  refine ⟨fun h => ?_, fun hover hbyte => ?_, fun hpast => ?_⟩
  · rw [ofText?, hread, if_pos (Nat.le_trans h hwidth), ofParts, dif_pos h]
  · rw [ofText?, hread, if_pos hbyte, ofParts, dif_neg (by omega)]
  · rw [ofText?, hread, if_neg (by omega)]

/-- Leading zeros without end, the first length past a width, and the last one of a byte. -/
theorem ofText?_withLength_padded :
    ofText? ("2001:DB8::1.2.3.4" ++ "/" ++ "000000000000000000000000000000128") =
      .ok ⟨.ofNat .ipv6 0x20010db8000000000000000001020304, 128, by decide⟩ ∧
    ofText? ("10.0.0.0" ++ "/" ++ "33") = .error (.prefixLength 33 32 .ipv4) ∧
    ofText? ("::" ++ "/" ++ "255") = .error (.prefixLength 255 128 .ipv6) := by
  have hlong : Address.ofText? "2001:DB8::1.2.3.4" =
      some (.ofNat .ipv6 0x20010db8000000000000000001020304) := by decide
  have hfour : Address.ofText? "10.0.0.0" = some (.ofNat .ipv4 0x0a000000) := by decide
  have hzero : Address.ofText? "::" = some (.ofNat .ipv6 0) := by decide
  exact ⟨(ofText?_withLength hlong (by decide) (by simp)).1 (by decide),
    (ofText?_withLength hfour (by decide) (by simp)).2.1 (by decide) (by decide),
    (ofText?_withLength hzero (by decide) (by simp)).2.1 (by decide) (by decide)⟩

/-- A length past 255 is too long for every family, and is refused as no number. -/
theorem length_past255 :
    Address.ofText? "10.0.0.0" = some (.ofNat .ipv4 0x0a000000) ∧
    Family.ipv4.width < Nat.ofDigitChars 10 "256".toList 0 ∧
    ofText? ("10.0.0.0" ++ "/" ++ "256") = .error (.invalidPrefix "10.0.0.0/256" .length) := by
  refine ⟨by decide, by decide, by decide⟩

/-! ## In a listing -/

/-- The digits behind a slash give the length. -/
theorem exists_of_readLength (h : readLength maxDigits f cs = some (n, [])) :
    ∃ digits, cs = '/' :: digits ∧ Nat.ofDigitChars 10 digits 0 = n := by
  obtain ⟨digits, hslash, hnumber⟩ := Option.bind_eq_some_iff.1 h
  have hnone := (rest_of_readNumber hnumber).symm
  refine ⟨digits, ?_, ?_⟩
  · cases cs with
    | nil => cases hslash
    | cons c cs =>
      rw [readChar] at hslash
      split at hslash
      · rename_i hc
        rw [hc, Option.some.inj hslash]
      · cases hslash
  · rw [value_of_readNumber hnumber,
      Text.leadingDigits_of_isDigit (Text.isDigit_of_leadingDigits hnone), Text.ofDigits_map_toNat]

theorem exists_of_parts (hspends : Spends text cs)
    (hlength : readLength maxDigits a.family cs = some (n, []))
    (hparts : (ofParts a n).toOption = some p) :
    ∃ front digits, Text.cutAt '/' text = some (front, digits) ∧
      Nat.ofDigitChars 10 digits 0 = p.length := by
  obtain ⟨front, rfl, hfront⟩ := hspends
  obtain ⟨digits, rfl, hdigits⟩ := exists_of_readLength hlength
  refine ⟨front, digits, Text.cutAt_append fun c hc => ne_slash_of_isAddressChar (hfront c hc), ?_⟩
  rw [hdigits]
  unfold ofParts at hparts
  split at hparts
  · exact congrArg Prefix.length (Option.some.inj hparts)
  · cases hparts

/-- In a listing, the digits behind the slash give the length. -/
theorem exists_of_ofListing? (h : ofListing? text = some p) :
    ∃ front digits, Text.cutAt '/' text = some (front, digits) ∧
      Nat.ofDigitChars 10 digits 0 = p.length := by
  rcases Option.or_eq_some_iff.1 h with hdotted | ⟨-, hcolons⟩
  · obtain ⟨⟨a, rest⟩, hfound, hread⟩ := Option.bind_eq_some_iff.1 hdotted
    obtain ⟨⟨n, rest'⟩, hdots, heq⟩ := Option.map_eq_some_iff.1 hfound
    obtain ⟨rfl, rfl⟩ := Prod.mk.inj heq
    simp only at hread
    split at hread
    · rename_i hlength
      exact exists_of_parts (spends_readDotted hdots) hlength hread
    · cases hread
  · obtain ⟨⟨a, rest⟩, hfound, hread⟩ := Option.bind_eq_some_iff.1 hcolons
    obtain ⟨⟨n, rest'⟩, hgroups, heq⟩ := Option.map_eq_some_iff.1 hfound
    obtain ⟨rfl, rfl⟩ := Prod.mk.inj heq
    simp only at hread
    split at hread
    · rename_i hlength
      exact exists_of_parts (spends_readColons hgroups) hlength hread
    · cases hread

end

end SeamlessTunnel.Prefix
