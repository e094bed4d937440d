import SeamlessTunnel.Proofs.Range.Word
/-
  SeamlessTunnel.Proofs.Range.Faults — no range leads to a fault.

  `Obtained` says which ranges between words come out of the operations, however these are
  composed over one family. They are just the ranges between numbers (`Obtained.ordered`), so
  their bounds are in order and in the space of the family, and no operation on them ends in
  a fault or goes on for ever (`faultless`). That holds of the last address of a family and of
  the whole space as well. Bounds that are not in order do lead to a fault.
-/

namespace SeamlessTunnel

open Word

namespace WordRange

/-- The ranges of one family that the operations lead to. -/
inductive Obtained (f : Family) : WordRange → Prop
  | ofBounds {first last : Word} {w : WordRange} (h : ofBounds f first last = .ok w) :
      Obtained f w
  | ofAddresses {first last : Address} {w : WordRange} (hf : first.family = f)
      (h : ofAddresses first last = .ok w) : Obtained f w
  | ofPrefix {p : Prefix} {w : WordRange} (hf : p.family = f) (h : ofPrefix p = .ok w) :
      Obtained f w
  | subtract {v w u : WordRange} {ws : List WordRange} (hv : Obtained f v) (hw : Obtained f w)
      (h : v.subtract w = .ok ws) (hu : u ∈ ws) : Obtained f u
  | merge {vs ws : List WordRange} {w : WordRange} (hvs : ∀ v ∈ vs, Obtained f v)
      (h : merge vs = .ok ws) (hw : w ∈ ws) : Obtained f w
  | subtractList {vs cuts ws : List WordRange} {w : WordRange} (hvs : ∀ v ∈ vs, Obtained f v)
      (hcuts : ∀ v ∈ cuts, Obtained f v) (h : subtractList vs cuts = .ok ws) (hw : w ∈ ws) :
      Obtained f w

/-- Whether this is a range between numbers. -/
def Ordered (f : Family) (w : WordRange) : Prop :=
  ∃ r : Range, r.family = f ∧ w = r.toWords

variable {f : Family}

/-! ## Where ranges come from -/

theorem family_ofBounds {first last : Nat} {r : Range}
    (h : Range.ofBounds f first last = .ok r) : r.family = f := by
  unfold Range.ofBounds at h
  split at h
  · split at h
    · cases h
      rfl
    · cases h
  · cases h

theorem family_ofAddresses {first last : Address} {r : Range}
    (h : Range.ofAddresses first last = .ok r) : r.family = first.family := by
  unfold Range.ofAddresses at h
  split at h
  · exact family_ofBounds h
  · cases h

theorem ordered_of_map {x : Except RouteError Range} {w : WordRange}
    (hf : ∀ r, x = .ok r → r.family = f) (h : x.map Range.toWords = .ok w) : Ordered f w := by
  cases x with
  | error e => cases h
  | ok r =>
    cases h
    exact ⟨r, hf r rfl, rfl⟩

theorem ordered_of_mem {rs : List Range} {ws : List WordRange} {w : WordRange}
    (hrs : Range.OfFamily f rs) (h : (.ok (rs.map Range.toWords) : Checked _) = .ok ws)
    (hw : w ∈ ws) : Ordered f w := by
  cases h
  obtain ⟨r, hr, rfl⟩ := List.mem_map.1 hw
  exact ⟨r, hrs r hr, rfl⟩

theorem exists_map_toWords {ws : List WordRange} (h : ∀ w ∈ ws, Ordered f w) :
    ∃ rs : List Range, Range.OfFamily f rs ∧ ws = rs.map Range.toWords := by
  induction ws with
  | nil => exact ⟨[], List.forall_mem_nil _, rfl⟩
  | cons w ws ih =>
    obtain ⟨⟨r, hr, rfl⟩, hws⟩ := List.forall_mem_cons.1 h
    obtain ⟨rs, hrs, rfl⟩ := ih hws
    exact ⟨r :: rs, List.forall_mem_cons.2 ⟨hr, hrs⟩, rfl⟩

theorem Obtained.ordered {w : WordRange} (h : Obtained f w) : Ordered f w := by
  induction h with
  | ofBounds h =>
    rw [ofBounds_eq] at h
    exact ordered_of_map (fun _ => family_ofBounds) h
  | ofAddresses hf h =>
    rw [ofAddresses_eq] at h
    exact ordered_of_map (fun _ hr => (family_ofAddresses hr).trans hf) h
  | ofPrefix hf h =>
    rw [ofPrefix_eq] at h
    cases h
    exact ⟨_, hf, rfl⟩
  | subtract hv hw h hu ihv ihw =>
    obtain ⟨r, hr, rfl⟩ := ihv
    obtain ⟨s, -, rfl⟩ := ihw
    rw [Range.subtract_toWords] at h
    exact ordered_of_mem (Range.ofFamily_subtract hr) h hu
  | merge hvs h hw ihvs =>
    obtain ⟨rs, hrs, rfl⟩ := exists_map_toWords ihvs
    rw [Range.merge_toWords hrs] at h
    exact ordered_of_mem (Range.ofFamily_merge hrs) h hw
  | subtractList hvs hcuts h hw ihvs ihcuts =>
    obtain ⟨rs, hrs, rfl⟩ := exists_map_toWords ihvs
    obtain ⟨cuts, -, rfl⟩ := exists_map_toWords ihcuts
    rw [Range.subtractList_toWords hrs] at h
    exact ordered_of_mem (Range.ofFamily_subtractList hrs) h hw

/-- A range may end at the last address. -/
theorem obtained_upToLast {n : Word} (h : n ≤ f.maxWord) : Obtained f ⟨f, n, f.maxWord⟩ := by
  have hbounds : ofBounds f n f.maxWord = .ok ⟨f, n, f.maxWord⟩ := by
    rw [ofBounds, if_neg (BitVec.not_lt.2 h), if_neg (BitVec.not_lt.2 (BitVec.le_refl _))]
  exact .ofBounds hbounds

/-! ## Faults -/

theorem bounds_toWords (r : Range) : r.toWords.first ≤ r.toWords.last ∧
    r.toWords.last ≤ r.family.maxWord := by
  rw [Range.first_toWords, Range.last_toWords, Family.maxWord_eq,
    ofNat_le_ofNat r.first_lt_word r.last_lt_word,
    ofNat_le_ofNat r.last_lt_word r.family.maxValue_lt_word]
  exact ⟨r.ordered, r.inSpace⟩

/-- What is known of the ranges of one family: their bounds, and that each operation comes to
    the value that it has between numbers. -/
structure Faultless (f : Family) : Prop where
  bounds : ∀ {w}, Obtained f w → w.family = f ∧ w.first ≤ w.last ∧ w.last ≤ f.maxWord
  /-- Any range that ends at the last address is among them, the whole space too. -/
  upToLast : ∀ n, n ≤ f.maxWord → Obtained f ⟨f, n, f.maxWord⟩
  ofPrefix : ∀ p : Prefix, ofPrefix p = .ok (Range.ofPrefix p).toWords
  subtract : ∀ {v w}, Obtained f v → Obtained f w → ∃ r s : Range,
    v = r.toWords ∧ w = s.toWords ∧ v.subtract w = .ok ((r.subtract s).map Range.toWords)
  /-- The loop ends, and not in a fault. -/
  toPrefixes : ∀ {w}, Obtained f w → ∃ r : Range,
    w = r.toWords ∧ ∀ x, w.ComesTo x ↔ x = .ok r.toPrefixes
  merge : ∀ {ws}, (∀ w ∈ ws, Obtained f w) → ∃ rs : List Range,
    ws = rs.map Range.toWords ∧ merge ws = .ok ((Range.merge rs).map Range.toWords)
  subtractList : ∀ {ws vs}, (∀ w ∈ ws, Obtained f w) → (∀ v ∈ vs, Obtained f v) →
    ∃ rs cuts : List Range, ws = rs.map Range.toWords ∧ vs = cuts.map Range.toWords ∧
      subtractList ws vs = .ok ((Range.subtractList rs cuts).map Range.toWords)

/-- However ranges are composed, no operation on them ends in a fault or goes on for ever. -/
theorem faultless (f : Family) : Faultless f where
  bounds h := by
    obtain ⟨r, rfl, rfl⟩ := h.ordered
    exact ⟨rfl, bounds_toWords r⟩
  upToLast _ h := obtained_upToLast h
  ofPrefix p := ofPrefix_eq p
  subtract hv hw := by
    obtain ⟨r, -, rfl⟩ := hv.ordered
    obtain ⟨s, -, rfl⟩ := hw.ordered
    exact ⟨r, s, rfl, rfl, r.subtract_toWords s⟩
  toPrefixes h := by
    obtain ⟨r, -, rfl⟩ := h.ordered
    exact ⟨r, rfl, fun _ => r.comesTo_toWords⟩
  merge h := by
    obtain ⟨rs, hrs, rfl⟩ := exists_map_toWords fun w hw => (h w hw).ordered
    exact ⟨rs, rfl, Range.merge_toWords hrs⟩
  subtractList h h' := by
    obtain ⟨rs, hrs, rfl⟩ := exists_map_toWords fun w hw => (h w hw).ordered
    obtain ⟨cuts, -, rfl⟩ := exists_map_toWords fun v hv => (h' v hv).ordered
    exact ⟨rs, cuts, rfl, rfl, Range.subtractList_toWords hrs⟩

example : turn .ipv6 0#128 (.allOnes 128) = .ok (⟨.ofNat .ipv6 0, 0, Nat.zero_le _⟩, none) := by
  cbv

example : turn .ipv4 5#128 3#128 = .error .underflow := by
  cbv

end WordRange

end SeamlessTunnel
