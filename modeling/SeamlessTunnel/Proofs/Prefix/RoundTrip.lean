import SeamlessTunnel.Proofs.Prefix.Lengths
/-
  SeamlessTunnel.Proofs.Prefix.RoundTrip — written prefixes read back.

  A written prefix is read as this prefix, host bits included, with any blanks around it
  (`ofChars?_chars`), and the lenient grammar of listings reads it so too
  (`ofListing?_chars`). No separator of a list stands in it, so a list is read back from its
  prefixes in order with any commas and blanks between them and at the ends
  (`text_readsBack`).
-/

namespace SeamlessTunnel.Prefix

section

variable {p : Prefix} {c : Char}

theorem ofChars?_chars : ofChars? p.chars = .ok p := by
  have hbyte : p.length ≤ 255 := by
    have hbound := Nat.le_trans p.le_width p.address.family.width_le
    omega
  have hne : Text.decimal p.length ≠ [] := Text.render_ne_nil
  have hread := ofChars?_parts (Address.ofChars?_render (a := p.address)) hne
    fun _ => Text.isDigit_of_mem_decimal
  rw [Text.ofDigitChars_decimal, if_pos hbyte, ofParts, dif_pos p.le_width] at hread
  exact hread

/-- A prefix is written in the characters of addresses and one slash. -/
theorem forall_mem_chars {P : Char → Prop} (hdigit : ∀ d < 16, P (Text.digitChar d)) (hcolon : P ':')
    (hdot : P '.') (hslash : P '/') : ∀ c ∈ p.chars, P c := by
  intro c hc
  rcases List.mem_append.1 hc with hc | hc
  · exact Address.forall_mem_render hdigit hcolon hdot c hc
  · rcases List.mem_cons.1 hc with rfl | hc
    · exact hslash
    · obtain ⟨d, hd, rfl⟩ := Text.exists_digitChar (by decide) hc
      exact hdigit d (by omega)

theorem notSeparator_of_mem_chars (h : c ∈ p.chars) : isSeparator c = false := by
  have hdigit : ∀ d < 16, isSeparator (Text.digitChar d) = false := by decide
  exact forall_mem_chars (P := (isSeparator · = false)) hdigit (by decide) (by decide) (by decide) c h

theorem notBlank_of_mem_chars (h : c ∈ p.chars) : Text.isBlank c = false :=
  (Bool.or_eq_false_iff.1 (notSeparator_of_mem_chars h)).2

theorem chars_ne_nil : p.chars ≠ [] :=
  List.append_ne_nil_of_right_ne_nil _ (List.cons_ne_nil _ _)

/-! ## The lenient grammar -/

theorem readLength_decimal {f : Family} {maxDigits n : Nat} (hdigits : f.width < 10 ^ maxDigits)
    (hmax : 0 < maxDigits) (h : n ≤ f.width) :
    readLength maxDigits f ('/' :: Text.decimal n) = some (n, []) := by
  have hread : Address.readNumber 10 maxDigits (f.width + 1) true (Text.decimal n ++ []) =
      some (n, []) :=
    Address.readNumber_render (by decide) (by decide) hmax (by omega) (by omega) .nil
  rw [List.append_nil] at hread
  exact hread

theorem ofListing?_chars : ofListing? p.chars = some p := by
  have hcloses : Address.Closes ('/' :: Text.decimal p.length) :=
    .cons (by decide) (by decide) (by decide)
  have hread := Address.read_render (g := .lenient) (a := p.address) hcloses
  have hparts : (ofParts p.address p.length).toOption = some p := by
    rw [ofParts, dif_pos p.le_width]
    rfl
  have hwidth := p.le_width
  unfold Address.read at hread
  unfold ofListing? chars
  cases hdotted : Address.readDotted .lenient (p.address.render ++ '/' :: Text.decimal p.length) with
  | some found =>
    obtain ⟨n, rest⟩ := found
    rw [hdotted] at hread
    obtain ⟨haddress, rfl⟩ := Prod.mk.inj (Option.some.inj hread)
    have hfamily : p.address.family = .ipv4 := by rw [← haddress, Address.family_ofNat]
    rw [hfamily] at hwidth
    have hlength : readLength 2 .ipv4 ('/' :: Text.decimal p.length) = some (p.length, []) :=
      readLength_decimal (by decide) (by decide) hwidth
    simp [haddress, hfamily, hlength, hparts]
  | none =>
    rw [hdotted] at hread
    obtain ⟨⟨n, rest⟩, hcolons, heq⟩ := Option.map_eq_some_iff.1 hread
    obtain ⟨haddress, rfl⟩ := Prod.mk.inj heq
    have hfamily : p.address.family = .ipv6 := by rw [← haddress, Address.family_ofNat]
    rw [hfamily] at hwidth
    have hlength : readLength 3 .ipv6 ('/' :: Text.decimal p.length) = some (p.length, []) :=
      readLength_decimal (by decide) (by decide) hwidth
    simp [hcolons, haddress, hfamily, hlength, hparts]

/-! ## Lists -/

theorem mapM_ofChars?_chars (ps : List Prefix) : (ps.map chars).mapM ofChars? = .ok ps := by
  induction ps with
  | nil => rfl
  | cons p ps ih =>
    rw [List.map_cons, List.mapM_cons, ofChars?_chars, ih]
    rfl

/-- Prefixes are read back in order, each of them behind separators (which the first does not
    need) and more of them at the end; and one prefix is read back between blanks. -/
theorem text_readsBack :
    (∀ (ps : List (String × Prefix)) (after : String),
      (∀ x ∈ ps, ∀ c ∈ x.1.toList, isSeparator c = true) → (∀ x ∈ ps.tail, x.1 ≠ "") →
      (∀ c ∈ after.toList, isSeparator c = true) →
      listOfText? (String.join (ps.map fun x => x.1 ++ x.2.text) ++ after) = .ok (ps.map (·.2))) ∧
    (∀ (p : Prefix) (before after : String), (∀ c ∈ before.toList, Text.isBlank c = true) →
      (∀ c ∈ after.toList, Text.isBlank c = true) → ofText? (before ++ p.text ++ after) = .ok p) := by
  refine ⟨fun ps after hgap hne hafter => ?_, fun p before after hbefore hafter => ?_⟩
  · let ws := ps.map fun x => (x.1.toList, x.2.chars)
    have hchars : (String.join (ps.map fun x => x.1 ++ x.2.text) ++ after).toList =
        ws.flatMap (fun x => x.1 ++ x.2) ++ after.toList := by
      simp [ws, List.flatMap_map, text]
    have hwords : Text.wordsAt isSeparator (ws.flatMap (fun x => x.1 ++ x.2) ++ after.toList) =
        ws.map (·.2) := by
      apply Text.wordsAt_spaced
      · exact List.forall_mem_map.2 hgap
      · rw [← List.map_tail]
        exact List.forall_mem_map.2 fun x hx => mt String.toList_eq_nil_iff.1 (hne x hx)
      · exact List.forall_mem_map.2 fun x _ => ⟨chars_ne_nil, fun _ => notSeparator_of_mem_chars⟩
      · exact hafter
    have hprefixes : ws.map (·.2) = (ps.map (·.2)).map chars := by
      simp [ws]
    rw [listOfText?, hchars, listOfChars?, hwords, hprefixes, mapM_ofChars?_chars]
  · have hchars : (before ++ p.text ++ after).toList = before.toList ++ (p.chars ++ after.toList) := by
      simp [text]
    rw [ofText?, hchars, ofChars?_padded hbefore hafter, ofChars?_chars]

theorem text_hostBits : text ⟨.ofNat .ipv4 0x0a010203, 8, by decide⟩ = "10.1.2.3/8" := by
  simp [text, chars, Address.render, Address.ofNat, Family.width, Address.dotted, Address.octets,
    Address.joined, Text.decimal, Text.render, Text.digitChar]

theorem text_mapped : text ⟨.ofNat .ipv6 0xffff01020304, 96, by decide⟩ = "::ffff:1.2.3.4/96" := by
  simp [text, chars, Address.render, Address.ofNat, Family.width, Address.isMapped, Address.groups,
    Address.dotted, Address.octets, Address.joined, Text.decimal, Text.render, Text.digitChar]

/-- Host bits, an embedded IPv4 address and two runs of zeros; separators of both kinds
    between the prefixes and at the ends, some of them not in ASCII. -/
theorem text_readsBack_mixed :
    listOfText? " ,10.1.2.3/8,\u2003::ffff:1.2.3.4/96\n1::2:0:0:3/0,," =
      .ok [⟨.ofNat .ipv4 0x0a010203, 8, by decide⟩, ⟨.ofNat .ipv6 0xffff01020304, 96, by decide⟩,
        ⟨.ofNat .ipv6 0x00010000000000000002000000000003, 0, by decide⟩] ∧
    ofText? "\u00a010.1.2.3/8\r\n" = .ok ⟨.ofNat .ipv4 0x0a010203, 8, by decide⟩ := by
  have hruns : text ⟨.ofNat .ipv6 0x00010000000000000002000000000003, 0, by decide⟩ =
      "1::2:0:0:3/0" := by
    simp [text, chars, Address.render, Address.ofNat, Family.width, Address.isMapped, Address.groups,
      Address.compressed, Address.longestZeroRun, List.range, List.range.loop, Address.zerosAhead,
      Address.hexGroups, Address.joined, Text.decimal, Text.render, Text.digitChar]
  have hlist := text_readsBack.1 [(" ,", ⟨.ofNat .ipv4 0x0a010203, 8, by decide⟩),
    (",\u2003", ⟨.ofNat .ipv6 0xffff01020304, 96, by decide⟩),
    ("\n", ⟨.ofNat .ipv6 0x00010000000000000002000000000003, 0, by decide⟩)] ",,"
    (by simp [isSeparator, Text.isBlank]) (by simp) (by simp [isSeparator])
  have hone := text_readsBack.2 ⟨.ofNat .ipv4 0x0a010203, 8, by decide⟩ "\u00a0" "\r\n"
    (by simp [Text.isBlank]) (by simp [Text.isBlank])
  simp only [List.map_cons, List.map_nil, text_hostBits, text_mapped, hruns] at hlist hone
  exact ⟨hlist, hone⟩

end

end SeamlessTunnel.Prefix
