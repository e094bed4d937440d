import SeamlessTunnel.Proofs.Range.Blocks
import SeamlessTunnel.Proofs.Range.NormalForm
import SeamlessTunnel.Routes.Basic
/-
  SeamlessTunnel.Proofs.Routes.Coverage — what the routes cover, and that they are few.

  (1) The routes of a family cover what is allowed and not excluded, address by address
  (`covers_compute`).

  (2) No list of prefixes that covers the same addresses is shorter (`length_compute_le`).
  Such a list has, for each route, a prefix with an address of that route. Its block lies
  in what the routes cover, so in one of the separated ranges, so inside the route. Two
  routes share no address, so two routes never have the same prefix.
-/

namespace SeamlessTunnel.Routes

open Range

/-! ## (1) Coverage -/

/-- The ranges that the routes of a family are made of. -/
def remainder (f : Family) (allowed excluded : List Prefix) : List Range :=
  subtractList (rangesOf f allowed) (rangesOf f excluded)

theorem computeFamily_eq (f : Family) (allowed excluded : List Prefix) :
    computeFamily f allowed excluded = (remainder f allowed excluded).flatMap (·.toPrefixes) :=
  rfl

theorem ofFamily_ofPrefixes (f : Family) (ps : List Prefix) :
    OfFamily f ((ps.filter (·.family = f)).map ofPrefix) := by
  intro r hr
  obtain ⟨p, hp, rfl⟩ := List.mem_map.1 hr
  exact of_decide_eq_true (List.mem_filter.1 hp).2

theorem ofFamily_remainder (f : Family) (allowed excluded : List Prefix) :
    OfFamily f (remainder f allowed excluded) :=
  ofFamily_subtractList (ofFamily_merge (ofFamily_ofPrefixes f allowed))

theorem separated_remainder (f : Family) (allowed excluded : List Prefix) :
    Separated (remainder f allowed excluded) :=
  separated_subtractList (ofFamily_merge (ofFamily_ofPrefixes f allowed))
    (separated_merge (ofFamily_ofPrefixes f allowed))

theorem held_rangesOf {f : Family} {ps : List Prefix} {a : Address} (ha : a.family = f) :
    Held (rangesOf f ps) a ↔ ∃ p ∈ ps, p.Covers a := by
  rw [rangesOf, held_merge, held_map_ofPrefix]
  constructor
  · rintro ⟨p, hp, hc⟩
    exact ⟨p, (List.mem_filter.1 hp).1, hc⟩
  · rintro ⟨p, hp, hc⟩
    exact ⟨p, List.mem_filter.2 ⟨hp, decide_eq_true (hc.1.symm.trans ha)⟩, hc⟩

theorem covers_computeFamily {f : Family} {allowed excluded : List Prefix} {a : Address} :
    (∃ p ∈ computeFamily f allowed excluded, p.Covers a) ↔
      Held (remainder f allowed excluded) a := by
  rw [computeFamily_eq]
  constructor
  · rintro ⟨p, hp, hc⟩
    obtain ⟨r, hr, hp⟩ := List.mem_flatMap.1 hp
    exact ⟨r, hr, covers_toPrefixes.1 ⟨p, hp, hc⟩⟩
  · rintro ⟨r, hr, hc⟩
    obtain ⟨p, hp, hc⟩ := covers_toPrefixes.2 hc
    exact ⟨p, List.mem_flatMap.2 ⟨r, hr, hp⟩, hc⟩

theorem held_remainder {f : Family} {allowed excluded : List Prefix} {a : Address}
    (ha : a.family = f) :
    Held (remainder f allowed excluded) a ↔
      (∃ p ∈ allowed, p.Covers a) ∧ ¬ ∃ p ∈ excluded, p.Covers a := by
  rw [remainder, held_subtractList, held_rangesOf ha, held_rangesOf ha]

/-- An address lies in a route of its family exactly when it lies in an allowed prefix and
    in no excluded one. -/
theorem covers_compute (allowed excluded : List Prefix) (a : Address) :
    (∃ p ∈ (compute allowed excluded).ofFamily a.family, p.Covers a) ↔
      (∃ p ∈ allowed, p.Covers a) ∧ ¬ ∃ p ∈ excluded, p.Covers a := by
  rw [ofFamily_compute, covers_computeFamily, held_remainder rfl]

/-- All IPv4 addresses but the last one: every other address is in a route. -/
example : (compute [⟨.ofNat .ipv4 7, 0, by decide⟩]
    [⟨.ofNat .ipv4 (2 ^ 32 - 1), 32, by decide⟩]).ipv4.length = 32 := by
  decide +kernel

/-! ## (2) Number -/

/-- The routes of a family ascend and do not overlap. -/
theorem pairwise_computeFamily (f : Family) (allowed excluded : List Prefix) :
    (computeFamily f allowed excluded).Pairwise fun p q =>
      (ofPrefix p).last < (ofPrefix q).first := by
  rw [computeFamily_eq, List.pairwise_flatMap]
  refine ⟨fun r _ => pairwise_blocksFrom r.ordered r.last_lt,
    (separated_remainder f allowed excluded).imp ?_⟩
  intro r s hrs p hp q hq
  obtain ⟨-, -, hr⟩ := bounds_of_mem_blocksFrom r.ordered r.last_lt hp
  obtain ⟨-, hs, -⟩ := bounds_of_mem_blocksFrom s.ordered s.last_lt hq
  omega

/-- Whether the block of a prefix lies inside that of another. -/
def Inside (q p : Prefix) : Prop :=
  (ofPrefix p).first ≤ (ofPrefix q).first ∧ (ofPrefix q).last ≤ (ofPrefix p).last

/-- A list with a prefix inside each of some disjoint prefixes is as long as they are
    many. -/
theorem length_le_of_inside {ps qs : List Prefix}
    (hps : ps.Pairwise fun p p' => (ofPrefix p).last < (ofPrefix p').first)
    (h : ∀ p ∈ ps, ∃ q ∈ qs, Inside q p) : ps.length ≤ qs.length := by
  induction ps generalizing qs with
  | nil => exact Nat.zero_le _
  | cons p ps ih =>
    obtain ⟨hp, hps⟩ := List.pairwise_cons.1 hps
    obtain ⟨q, hq, hin⟩ := h p List.mem_cons_self
    have hrest : ∀ p' ∈ ps, ∃ q' ∈ qs.erase q, Inside q' p' := by
      intro p' hp'
      obtain ⟨q', hq', hin'⟩ := h p' (List.mem_cons_of_mem p hp')
      refine ⟨q', (List.mem_erase_of_ne ?_).2 hq', hin'⟩
      rintro rfl
      have hlt := hp p' hp'
      have hord := (ofPrefix q').ordered
      have h1 := hin.2
      have h2 := hin'.1
      omega
    have hlen := ih hps hrest
    have hpos := List.length_pos_of_mem hq
    rw [List.length_erase_of_mem hq] at hlen
    rw [List.length_cons]
    omega

/-- What a prefix covers of a family lies between the bounds of its block. -/
theorem covers_iff_bounds {p : Prefix} {a : Address} :
    p.Covers a ↔ a.family = p.family ∧ (ofPrefix p).first ≤ a.value ∧
      a.value ≤ (ofPrefix p).last := by
  rw [← contains_ofPrefix, contains_iff]
  rfl

/-- A prefix that shares an address with a route and leaves the routes nowhere lies inside
    that route. -/
theorem inside_of_covered {f : Family} {allowed excluded : List Prefix} {p q : Prefix}
    (hp : p ∈ computeFamily f allowed excluded) {a : Address} (hpa : p.Covers a)
    (hqa : q.Covers a) (h : ∀ b, q.Covers b → Held (remainder f allowed excluded) b) :
    Inside q p := by
  rw [computeFamily_eq] at hp
  obtain ⟨r, hr, hp⟩ := List.mem_flatMap.1 hp
  have hrf := ofFamily_remainder f allowed excluded r hr
  obtain ⟨hpf, hpr, hpr'⟩ := bounds_of_mem_blocksFrom r.ordered r.last_lt hp
  rw [covers_iff_bounds] at hpa hqa
  have hqf : q.family = r.family := hqa.1.symm.trans (hpa.1.trans hpf)
  have hheld : ∀ y, (ofPrefix q).first ≤ y → y ≤ (ofPrefix q).last →
      ∃ s ∈ remainder f allowed excluded, s.first ≤ y ∧ y ≤ s.last := by
    intro y hy hy'
    have hspace : y < 1 <<< q.family.width := by
      rw [Nat.one_shiftLeft]
      exact Nat.lt_of_le_of_lt hy' (ofPrefix q).last_lt
    have hcov : q.Covers (.ofNat q.family y) := by
      rw [covers_iff_bounds, Address.value_ofNat hspace]
      exact ⟨rfl, hy, hy'⟩
    obtain ⟨s, hs, hc⟩ := h _ hcov
    rw [contains_iff, Address.value_ofNat hspace] at hc
    exact ⟨s, hs, hc.2⟩
  obtain ⟨hlo, hhi⟩ := (separated_remainder f allowed excluded).within hr hqa.2
    ⟨Nat.le_trans hpr hpa.2.1, Nat.le_trans hpa.2.2 hpr'⟩ hheld
  have hw : q.hostBits ≤ r.family.width := by
    rw [← hqf]
    exact Nat.sub_le _ _
  have hd : 2 ^ q.hostBits ∣ (ofPrefix q).first := by
    rw [first_ofPrefix]
    exact Nat.dvd_mul_left _ _
  rw [last_ofPrefix] at hhi hqa
  rw [Inside, last_ofPrefix q]
  exact inside_of_meets r.ordered r.last_lt (clear_first _ _ _) hp hw hd hlo hhi
    (Nat.le_trans hqa.2.1 hpa.2.2) (Nat.le_trans hpa.2.1 hqa.2.2)

/-- The routes of a family are the fewest prefixes that cover what they cover. -/
theorem length_compute_le (f : Family) (allowed excluded qs : List Prefix)
    (h : ∀ a : Address, a.family = f → ((∃ q ∈ qs, q.Covers a) ↔
      ∃ p ∈ (compute allowed excluded).ofFamily f, p.Covers a)) :
    ((compute allowed excluded).ofFamily f).length ≤ qs.length := by
  simp only [ofFamily_compute] at h ⊢
  refine length_le_of_inside (pairwise_computeFamily f allowed excluded) ?_
  intro p hp
  have hpf : p.family = f := by
    obtain ⟨r, hr, hpr⟩ := List.mem_flatMap.1 hp
    exact (bounds_of_mem_blocksFrom r.ordered r.last_lt hpr).1.trans
      (ofFamily_remainder f allowed excluded r hr)
  have hpa : p.Covers p.address := ⟨rfl, rfl⟩
  obtain ⟨q, hq, hqa⟩ := (h _ hpf).2 ⟨p, hp, hpa⟩
  have hqf : q.family = f := hqa.1.symm.trans hpf
  refine ⟨q, hq, inside_of_covered hp hpa hqa ?_⟩
  intro b hb
  exact covers_computeFamily.1 ((h b (hb.1.trans hqf)).1 ⟨q, hq, hb⟩)

/-- The two halves of 10.0.0.0/23. -/
def halves : List Prefix :=
  [⟨.ofNat .ipv4 (10 * 2 ^ 24), 24, by decide⟩, ⟨.ofNat .ipv4 (10 * 2 ^ 24 + 2 ^ 8), 24, by decide⟩]

/-- The halves cover what the routes made of them cover, so there are at most two routes. -/
theorem length_compute_halves :
    (∀ a : Address, a.family = .ipv4 → ((∃ q ∈ halves, q.Covers a) ↔
      ∃ p ∈ (compute halves []).ofFamily .ipv4, p.Covers a)) ∧
    ((compute halves []).ofFamily .ipv4).length ≤ halves.length := by
  have h : ∀ a : Address, a.family = .ipv4 → ((∃ q ∈ halves, q.Covers a) ↔
      ∃ p ∈ (compute halves []).ofFamily .ipv4, p.Covers a) := by
    intro a ha
    rw [ofFamily_compute, covers_computeFamily, held_remainder ha]
    simp
  exact ⟨h, length_compute_le .ipv4 halves [] halves h⟩

end SeamlessTunnel.Routes
