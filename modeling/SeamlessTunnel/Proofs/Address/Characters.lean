import SeamlessTunnel.Proofs.Address.RoundTrip
/-
  SeamlessTunnel.Proofs.Address.Characters — the characters of address texts.

  Every reader takes hexadecimal digits, colons and dots off the front of a text and nothing
  else (`Spends`). So a text that denotes an address is made of these, whatever zeros, runs
  of `::` and cases of letters it is written with (`isAddressChar_of_ofChars?`).
-/

namespace SeamlessTunnel.Address

open Text (digit? hexValue? leadingDigits)

/-- Whether addresses are written with a character. -/
def isAddressChar (c : Char) : Bool :=
  (hexValue? c).isSome || c = ':' || c = '.'

/-- Whether only characters of an address stand in front of the rest of a text. -/
def Spends (cs rest : List Char) : Prop :=
  ∃ front, cs = front ++ rest ∧ ∀ c ∈ front, isAddressChar c = true

section

variable {g : Grammar} {base maxDigits limit n room count : Nat} {padded isFirst : Bool} {c : Char}
  {os : List Nat} {cs mid rest : List Char} {a : Address}

namespace Spends

theorem refl (cs : List Char) : Spends cs cs :=
  ⟨[], rfl, nofun⟩

theorem trans (h : Spends cs mid) (h' : Spends mid rest) : Spends cs rest := by
  obtain ⟨front, rfl, hfront⟩ := h
  obtain ⟨back, rfl, hback⟩ := h'
  refine ⟨front ++ back, (List.append_assoc ..).symm, ?_⟩
  intro c hc
  rcases List.mem_append.1 hc with hc | hc
  · exact hfront c hc
  · exact hback c hc

theorem cons (hc : isAddressChar c = true) (h : Spends cs rest) : Spends (c :: cs) rest := by
  obtain ⟨front, rfl, hfront⟩ := h
  exact ⟨c :: front, rfl, List.forall_mem_cons.2 ⟨hc, hfront⟩⟩

end Spends

/-! ## Numbers and separators -/

theorem isAddressChar_of_digit? {d : Nat} (h : digit? base c = some d) : isAddressChar c = true := by
  rw [digit?, Option.filter_eq_some_iff] at h
  simp [isAddressChar, h.1]

theorem spends_leadingDigits : Spends cs (leadingDigits base cs).2 := by
  induction cs with
  | nil => exact .refl _
  | cons c cs ih =>
    unfold leadingDigits
    split
    · rename_i d hd
      exact .cons (isAddressChar_of_digit? hd) ih
    · exact .refl _

theorem spends_readNumber (h : readNumber base maxDigits limit padded cs = some (n, rest)) :
    Spends cs rest := by
  rw [rest_of_readNumber h]
  exact spends_leadingDigits

theorem spends_readChar (hc : isAddressChar c = true) (h : readChar c cs = some rest) :
    Spends cs rest := by
  cases cs with
  | nil => cases h
  | cons d cs =>
    rw [readChar] at h
    split at h
    · rename_i hd
      rw [hd, ← Option.some.inj h]
      exact .cons hc (.refl _)
    · cases h

/-! ## Dotted addresses -/

theorem spends_readOctets (h : readOctets g count isFirst cs = some (os, rest)) :
    Spends cs rest := by
  induction count generalizing isFirst cs os with
  | zero =>
    cases h
    exact .refl _
  | succ count ih =>
    obtain ⟨after, hdot, hread⟩ : ∃ after, Spends cs after ∧
        (readNumber 10 3 256 g.paddedOctets after).bind (fun octet =>
          (readOctets g count false octet.2).bind fun more =>
            some (octet.1 :: more.1, more.2)) = some (os, rest) := by
      cases isFirst with
      | true => exact ⟨cs, .refl _, h⟩
      | false =>
        obtain ⟨after, hafter, hread⟩ := Option.bind_eq_some_iff.1 h
        exact ⟨after, spends_readChar (by decide) hafter, hread⟩
    obtain ⟨⟨n, mid⟩, hnumber, hread⟩ := Option.bind_eq_some_iff.1 hread
    obtain ⟨⟨os', last⟩, hmore, heq⟩ := Option.bind_eq_some_iff.1 hread
    obtain rfl := (Prod.mk.inj (Option.some.inj heq)).2
    exact hdot.trans ((spends_readNumber hnumber).trans (ih hmore))

theorem spends_readDotted (h : readDotted g cs = some (n, rest)) : Spends cs rest := by
  rw [readDotted, Option.map_eq_some_iff] at h
  obtain ⟨⟨os, last⟩, hread, heq⟩ := h
  obtain rfl := (Prod.mk.inj heq).2
  exact spends_readOctets hread

/-! ## Groups -/

theorem spends_readGroups : Spends cs (readGroups g room isFirst cs).rest := by
  induction room generalizing isFirst cs with
  | zero => exact .refl _
  | succ room ih =>
    unfold readGroups
    split
    · exact .refl _
    · rename_i after hafter
      have hcolon : Spends cs after := by
        cases isFirst with
        | true =>
          obtain rfl := Option.some.inj hafter
          exact .refl _
        | false => exact spends_readChar (by decide) hafter
      split
      · rename_i n last hdotted
        have hread : readDotted g after = some (n, last) := by
          by_cases hroom : 0 < room
          · rwa [if_pos hroom] at hdotted
          · rw [if_neg hroom] at hdotted
            cases hdotted
        exact hcolon.trans (spends_readDotted hread)
      · split
        · exact .refl _
        · rename_i n last hnumber
          exact hcolon.trans ((spends_readNumber hnumber).trans ih)

theorem spends_readColons (h : readColons g cs = some (n, rest)) : Spends cs rest := by
  have hhead : Spends cs (readGroups g 8 true cs).rest := spends_readGroups
  rw [readColons] at h
  simp only at h
  split at h
  · obtain rfl := (Prod.mk.inj (Option.some.inj h)).2
    exact hhead
  · split at h
    · cases h
    · simp only [Option.bind_eq_bind, Option.bind_eq_some_iff, Option.pure_def] at h
      obtain ⟨first, hfirst, second, hsecond, heq⟩ := h
      obtain rfl := (Prod.mk.inj (Option.some.inj heq)).2
      have hcolons : Spends (readGroups g 8 true cs).rest second :=
        (spends_readChar (by decide) hfirst).trans (spends_readChar (by decide) hsecond)
      exact hhead.trans (hcolons.trans spends_readGroups)

/-! ## Addresses -/

theorem spends_read (h : read g cs = some (a, rest)) : Spends cs rest := by
  unfold read at h
  split at h
  · rename_i n last hdotted
    obtain rfl := (Prod.mk.inj (Option.some.inj h)).2
    exact spends_readDotted hdotted
  · rw [Option.map_eq_some_iff] at h
    obtain ⟨⟨n, last⟩, hcolons, heq⟩ := h
    obtain rfl := (Prod.mk.inj heq).2
    exact spends_readColons hcolons

/-- A text that denotes an address is made of hexadecimal digits, colons and dots. -/
theorem isAddressChar_of_ofChars? (h : ofChars? cs = some a) :
    ∀ c ∈ cs, isAddressChar c = true := by
  unfold ofChars? at h
  split at h
  · rename_i hread
    obtain ⟨front, hcs, hfront⟩ := spends_read hread
    rw [List.append_nil] at hcs
    rwa [hcs]
  · cases h

end

end SeamlessTunnel.Address
