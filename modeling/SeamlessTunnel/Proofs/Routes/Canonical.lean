import SeamlessTunnel.Proofs.Routes.Coverage
/-
  SeamlessTunnel.Proofs.Routes.Canonical — a set of addresses has one list of routes.

  What is allowed less what is excluded decides the routes of a family
  (`computeFamily_congr`): the remainders of two inputs that agree on it hold the same
  addresses, and separated ranges that do are the same ranges. So it does not matter how an
  input spells what it covers (`compute_congr`), nor whether a part of the exclusion comes
  in a second round.
-/

namespace SeamlessTunnel.Routes

open Range

/-- Whether an address lies in an allowed prefix and in no excluded one. -/
def Wanted (allowed excluded : List Prefix) (a : Address) : Prop :=
  (∃ p ∈ allowed, p.Covers a) ∧ ¬ ∃ p ∈ excluded, p.Covers a

/-- Whether two lists cover the same addresses, however they are split into prefixes. -/
def SameCover (ps qs : List Prefix) : Prop :=
  ∀ a : Address, (∃ p ∈ ps, p.Covers a) ↔ ∃ q ∈ qs, q.Covers a

/-- Whether two lists have the same blocks. Order, repetition and host bits do not count. -/
def SameBlocks (ps qs : List Prefix) : Prop :=
  ∀ (network : Address) (length : Nat),
    (∃ p ∈ ps, p.network = network ∧ p.length = length) ↔
      ∃ q ∈ qs, q.network = network ∧ q.length = length

/-- Prefixes of one family without host bits, in ascending order and disjoint. -/
structure Canonical (f : Family) (ps : List Prefix) : Prop where
  family : ∀ p ∈ ps, p.family = f
  masked : ∀ p ∈ ps, p.address = p.network
  ascending : ps.Pairwise fun p q => p.address.value < q.address.value
  disjoint : ps.Pairwise fun p q => ∀ a : Address, p.Covers a → ¬ q.Covers a

/-! ## Form -/

theorem value_network (p : Prefix) : p.network.value = (ofPrefix p).first := by
  refine Address.value_ofNat ?_
  rw [Nat.one_shiftLeft]
  exact Nat.lt_of_le_of_lt (ofPrefix p).ordered (ofPrefix p).last_lt

theorem parts_of_mem_computeFamily {f : Family} {allowed excluded : List Prefix} {p : Prefix}
    (hp : p ∈ computeFamily f allowed excluded) :
    p.family = f ∧ p.address.value = (ofPrefix p).first := by
  rw [computeFamily_eq] at hp
  obtain ⟨r, hr, hp⟩ := List.mem_flatMap.1 hp
  obtain ⟨hpf, -⟩ := bounds_of_mem_blocksFrom r.ordered r.last_lt hp
  exact ⟨hpf.trans (ofFamily_remainder f allowed excluded r hr),
    value_of_mem_blocksFrom r.ordered r.last_lt hp⟩

theorem canonical_computeFamily (f : Family) (allowed excluded : List Prefix) :
    Canonical f (computeFamily f allowed excluded) where
  family p hp := (parts_of_mem_computeFamily hp).1
  masked p hp := network_of_value (parts_of_mem_computeFamily hp).2
  ascending := by
    refine (pairwise_computeFamily f allowed excluded).imp_of_mem ?_
    intro p q hp hq hlt
    rw [(parts_of_mem_computeFamily hp).2, (parts_of_mem_computeFamily hq).2]
    exact Nat.lt_of_le_of_lt (ofPrefix p).ordered hlt
  disjoint := by
    refine (pairwise_computeFamily f allowed excluded).imp ?_
    intro p q hlt a hpa hqa
    rw [covers_iff_bounds] at hpa hqa
    omega

/-! ## One list for one set -/

/-- The routes of a family are decided by the wanted addresses of that family. -/
theorem computeFamily_congr {f : Family} {allowed excluded allowed' excluded' : List Prefix}
    (h : ∀ a : Address, a.family = f →
      (Wanted allowed excluded a ↔ Wanted allowed' excluded' a)) :
    computeFamily f allowed excluded = computeFamily f allowed' excluded' := by
  have hsame : remainder f allowed excluded = remainder f allowed' excluded' := by
    refine (separated_remainder f allowed excluded).unique
      (separated_remainder f allowed' excluded') (ofFamily_remainder f allowed excluded)
      (ofFamily_remainder f allowed' excluded') ?_
    intro a ha
    rw [held_remainder ha, held_remainder ha]
    exact h a ha
  rw [computeFamily_eq, computeFamily_eq, hsame]

theorem compute_congr {allowed excluded allowed' excluded' : List Prefix}
    (h : ∀ a : Address, Wanted allowed excluded a ↔ Wanted allowed' excluded' a) :
    compute allowed excluded = compute allowed' excluded' := by
  simp only [compute, computeFamily_congr fun a _ => h a]

theorem wanted_congr {allowed excluded allowed' excluded' : List Prefix}
    (h : SameCover allowed allowed') (h' : SameCover excluded excluded') (a : Address) :
    Wanted allowed excluded a ↔ Wanted allowed' excluded' a :=
  and_congr (h a) (not_congr (h' a))

theorem covers_congr {p q : Prefix} (hn : p.network = q.network) (hl : p.length = q.length)
    (a : Address) : p.Covers a ↔ q.Covers a := by
  have hf : p.family = q.family := show p.network.family = q.network.family by rw [hn]
  have hb : p.hostBits = q.hostBits := by rw [Prefix.hostBits, Prefix.hostBits, hf, hl]
  have hfirst : (ofPrefix p).first = (ofPrefix q).first := by
    rw [← value_network, ← value_network, hn]
  rw [covers_iff_bounds, covers_iff_bounds, last_ofPrefix, last_ofPrefix, hf, hb, hfirst]

theorem SameBlocks.sameCover {ps qs : List Prefix} (h : SameBlocks ps qs) :
    SameCover ps qs := by
  intro a
  constructor
  · rintro ⟨p, hp, hc⟩
    obtain ⟨q, hq, hn, hl⟩ := (h p.network p.length).1 ⟨p, hp, rfl, rfl⟩
    exact ⟨q, hq, (covers_congr hn hl a).2 hc⟩
  · rintro ⟨q, hq, hc⟩
    obtain ⟨p, hp, hn, hl⟩ := (h q.network q.length).2 ⟨q, hq, rfl, rfl⟩
    exact ⟨p, hp, (covers_congr hn hl a).2 hc⟩

/-! ## Routes as input -/

theorem covers_toList {allowed excluded : List Prefix} {a : Address} :
    (∃ p ∈ (compute allowed excluded).toList, p.Covers a) ↔ Wanted allowed excluded a := by
  rw [Wanted, ← held_remainder rfl, ← covers_computeFamily]
  constructor
  · rintro ⟨p, hp, hc⟩
    have family : ∀ f, p ∈ computeFamily f allowed excluded →
        p ∈ computeFamily a.family allowed excluded := by
      intro f hp
      rwa [hc.1, (parts_of_mem_computeFamily hp).1]
    rcases List.mem_append.1 hp with hp | hp
    · exact ⟨p, family .ipv4 hp, hc⟩
    · exact ⟨p, family .ipv6 hp, hc⟩
  · rintro ⟨p, hp, hc⟩
    refine ⟨p, ?_, hc⟩
    cases hf : a.family with
    | ipv4 =>
      rw [hf] at hp
      exact List.mem_append_left _ hp
    | ipv6 =>
      rw [hf] at hp
      exact List.mem_append_right _ hp

theorem wanted_toList {allowed excluded more : List Prefix} (a : Address) :
    Wanted (compute allowed excluded).toList more a ↔ Wanted allowed (excluded ++ more) a := by
  rw [Wanted, covers_toList, Wanted, Wanted, and_assoc, ← not_or]
  simp only [List.mem_append, or_and_right, exists_or]

/-- (1) The routes of a family are in canonical form, and (2) decided by the wanted
    addresses of the family. (3) Order, repetition and host bits of the input do not
    matter, (4) nor how it is split into prefixes. (5) What is excluded in a second round
    may as well be excluded in the first; (6, 7) without such, routes come out as they went
    in. -/
theorem canonical_compute (allowed excluded : List Prefix) :
    (∀ f, Canonical f ((compute allowed excluded).ofFamily f)) ∧
    (∀ f allowed' excluded',
      (∀ a : Address, a.family = f →
        (Wanted allowed excluded a ↔ Wanted allowed' excluded' a)) →
      (compute allowed excluded).ofFamily f = (compute allowed' excluded').ofFamily f) ∧
    (∀ allowed' excluded', SameBlocks allowed allowed' → SameBlocks excluded excluded' →
      compute allowed excluded = compute allowed' excluded') ∧
    (∀ allowed' excluded', SameCover allowed allowed' → SameCover excluded excluded' →
      compute allowed excluded = compute allowed' excluded') ∧
    (∀ more, compute (compute allowed excluded).toList more =
      compute allowed (excluded ++ more)) ∧
    (∀ f, (compute ((compute allowed excluded).ofFamily f) []).ofFamily f =
      (compute allowed excluded).ofFamily f) ∧
    compute (compute allowed excluded).toList [] = compute allowed excluded := by
  simp only [ofFamily_compute]
  refine ⟨fun f => canonical_computeFamily f allowed excluded,
    fun _ _ _ h => computeFamily_congr h,
    fun _ _ h h' => compute_congr (wanted_congr h.sameCover h'.sameCover),
    fun _ _ h h' => compute_congr (wanted_congr h h'),
    fun _ => compute_congr wanted_toList, fun f => computeFamily_congr ?_, ?_⟩
  · rintro a rfl
    rw [Wanted, covers_computeFamily, held_remainder rfl, Wanted]
    simp
  · refine (compute_congr wanted_toList).trans ?_
    rw [List.append_nil]

/-- Some address of each half of 10.0.0.0/23, the other way round. -/
def halvesWithHostBits : List Prefix :=
  [⟨.ofNat .ipv4 (10 * 2 ^ 24 + 2 ^ 8 + 1), 24, by decide⟩,
    ⟨.ofNat .ipv4 (10 * 2 ^ 24 + 77), 24, by decide⟩]

/-- The halves of a block give the same routes in either order and with host bits. -/
theorem compute_halvesWithHostBits :
    SameBlocks halves halvesWithHostBits ∧ SameBlocks [] [] ∧
      compute halves [] = compute halvesWithHostBits [] := by
  have h : SameBlocks halves halvesWithHostBits := by
    intro network length
    simp only [halves, halvesWithHostBits, List.mem_cons, List.not_mem_nil, or_false,
      exists_eq_or_imp, exists_eq_left]
    exact or_comm
  exact ⟨h, fun _ _ => Iff.rfl,
    (canonical_compute halves []).2.2.1 halvesWithHostBits [] h fun _ _ => Iff.rfl⟩

end SeamlessTunnel.Routes
