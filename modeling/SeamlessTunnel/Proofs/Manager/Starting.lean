import SeamlessTunnel.Manager.Basic
/-
  SeamlessTunnel.Proofs.Manager.Starting — which settings a manager starts with.

  Settings of a client that pass their check are also fit for its multiplexer. A manager
  starts with them if its queues can be made, that is up to `maxDepth` places; deeper ones
  pass the check and crash the start (`start_iff`, `deep_queue_crashes`). Settings that do
  not pass are refused with the error of the check.
-/

namespace SeamlessTunnel

open MultiplexerSettings (maxDepth)
open Multiplexer (StartFault)

/-- What comes of a start with settings that are checked first: it is refused, or gives a
    state, or crashes because its queues are too deep. -/
structure StartsAsChecked {ε σ : Type} (check : Except ε Unit) (depth : UInt64) (state : σ)
    (result : Except (StartFault ε) σ) : Prop where
  started : ∀ s, result = .ok s ↔ check = .ok () ∧ depth.toNat ≤ maxDepth ∧ s = state
  tooDeep : result = .error .tooDeep ↔ check = .ok () ∧ maxDepth < depth.toNat
  refused : ∀ e, result = .error (.refused e) ↔ check = .error e

section

variable {settings : MultiplexerSettings} {tunnel : TunnelOptions} {o : Options} {mtu : UInt16}

/-! ## Checks -/

theorem checkMtu_eq_ok_iff : checkMtu mtu = .ok () ↔ 576 ≤ mtu ∧ mtu ≤ 9000 := by
  unfold checkMtu
  split
  · rename_i hsmall
    simp [UInt16.not_le.2 hsmall]
  · rename_i hsmall
    split
    · rename_i hlarge
      simp [UInt16.not_le.2 hlarge]
    · rename_i hlarge
      simp [UInt16.not_lt.1 hsmall, UInt16.not_lt.1 hlarge]

theorem MultiplexerSettings.check_eq_ok_iff : settings.check = .ok () ↔
    (576 ≤ settings.defaultMtu ∧ settings.defaultMtu ≤ 9000) ∧ settings.queueDepth ≠ 0 := by
  rw [← checkMtu_eq_ok_iff, check]
  cases checkMtu settings.defaultMtu with
  | error e => simp [bind, Except.bind]
  | ok => by_cases hd : settings.queueDepth = 0 <;> simp [bind, Except.bind, hd, pure, Except.pure]

theorem TunnelOptions.check_eq_ok_iff : tunnel.check = .ok () ↔
    (576 ≤ tunnel.defaultMtu ∧ tunnel.defaultMtu ≤ 9000) ∧ tunnel.queueDepth ≠ 0 := by
  unfold check
  split
  · rename_i hsmall
    simp [UInt16.not_le.2 hsmall]
  · rename_i hsmall
    split
    · rename_i hlarge
      simp [UInt16.not_le.2 hlarge]
    · rename_i hlarge
      split
      · rename_i hd
        simp [hd]
      · rename_i hd
        simp [UInt16.not_lt.1 hsmall, UInt16.not_lt.1 hlarge, hd]

theorem Options.tunnel_of_check (h : o.check = .ok ()) : o.tunnel.check = .ok () := by
  unfold check at h
  cases ht : o.tunnel.check with
  | error e =>
    rw [ht] at h
    cases h
  | ok => rfl

/-- What a client accepts its multiplexer accepts. -/
theorem Options.multiplexer_of_check (h : o.check = .ok ()) : o.multiplexer.check = .ok () :=
  MultiplexerSettings.check_eq_ok_iff.2 (TunnelOptions.check_eq_ok_iff.1 (tunnel_of_check h))

/-- Queues that pass the check can be made unless they are too deep. -/
theorem MultiplexerSettings.fits_iff (h : settings.check = .ok ()) :
    settings.fits = true ↔ settings.queueDepth.toNat ≤ maxDepth := by
  have hd : 0 < settings.queueDepth.toNat :=
    Nat.pos_of_ne_zero fun hz => (check_eq_ok_iff.1 h).2 (UInt64.toNat_inj.1 hz)
  simp [fits, hd]

/-! ## Starts -/

/-- A multiplexer starts, crashes or is refused as its settings say. -/
theorem Multiplexer.startsAsChecked (settings : MultiplexerSettings) :
    StartsAsChecked settings.check settings.queueDepth (.init settings) (start settings) := by
  cases hc : settings.check with
  | error e => constructor <;> simp [start, hc]
  | ok =>
    have hfits := MultiplexerSettings.fits_iff hc
    by_cases hd : settings.queueDepth.toNat ≤ maxDepth
    · constructor <;> simp [start, hc, hfits.2 hd, hd, eq_comm]
    · have hunfit : settings.fits = false := by simpa using mt hfits.1 hd
      constructor <;> simp [start, hc, hunfit, hd, Nat.lt_of_not_le hd]

end

/-- A client and its multiplexer agree on what they accept. What they refuse is refused with
    the error of the check; what they accept starts, or crashes if its queues are too deep. -/
theorem Manager.start_iff (o : Options) (settings : MultiplexerSettings) :
    (o.check = .ok () → o.multiplexer.check = .ok ()) ∧
    StartsAsChecked o.check o.tunnel.queueDepth
      { options := o, multiplexer := .init o.multiplexer } (Manager.start o) ∧
    StartsAsChecked settings.check settings.queueDepth (.init settings)
      (Multiplexer.start settings) := by
  refine ⟨Options.multiplexer_of_check, ?_, Multiplexer.startsAsChecked settings⟩
  cases hc : o.check with
  | error e => constructor <;> simp [Manager.start, hc]
  | ok =>
    have hm := Options.multiplexer_of_check hc
    have hstarts := Multiplexer.startsAsChecked o.multiplexer
    by_cases hd : o.tunnel.queueDepth.toNat ≤ maxDepth
    · have hs := (hstarts.started _).2 ⟨hm, hd, rfl⟩
      constructor <;> simp [Manager.start, hc, hs, hd, eq_comm]
    · have hs := hstarts.tooDeep.2 ⟨hm, Nat.lt_of_not_le hd⟩
      constructor <;> simp [Manager.start, hc, hs, hd, Nat.lt_of_not_le hd]

namespace Manager

/-- A client with queues of a depth. -/
def withDepth (depth : UInt64) : Options :=
  { tunnel := { queueDepth := depth } }

theorem check_withDepth {depth : UInt64} (hd : depth ≠ 0) : (withDepth depth).check = .ok () := by
  have htunnel : (withDepth depth).tunnel.check = .ok () := TunnelOptions.check_eq_ok_iff.2
    ⟨(by decide : (576 : UInt16) ≤ 1280 ∧ (1280 : UInt16) ≤ 9000), hd⟩
  have hlogging : LoggingOptions.check {} = .ok () := if_pos (by decide +kernel)
  unfold Options.check
  rw [htunnel]
  exact hlogging

/-- The deepest queues that can be made, and no queues. -/
theorem start_deepest :
    (∃ s, start (withDepth 2305843009213693951) = .ok s) ∧
    start (withDepth 0) = .error (.refused (.invalid .noDepth)) :=
  ⟨⟨_, ((start_iff (withDepth 2305843009213693951) {}).2.1.started _).2
    ⟨check_withDepth (by decide), by decide, rfl⟩⟩,
    ((start_iff (withDepth 0) {}).2.1.refused _).2 rfl⟩

/-- Queues that are one place deeper pass all checks, and the start crashes. -/
theorem deep_queue_crashes :
    (withDepth 2305843009213693952).check = .ok () ∧
    (withDepth 2305843009213693952).multiplexer.check = .ok () ∧
    start (withDepth 2305843009213693952) = .error .tooDeep ∧
    Multiplexer.start (withDepth 2305843009213693952).multiplexer = .error .tooDeep := by
  have hc : (withDepth 2305843009213693952).check = .ok () := check_withDepth (by decide)
  have hm := Options.multiplexer_of_check hc
  have hs : Multiplexer.start (withDepth 2305843009213693952).multiplexer = .error .tooDeep :=
    (Multiplexer.startsAsChecked _).tooDeep.2 ⟨hm, by decide⟩
  refine ⟨hc, hm, ?_, hs⟩
  simp [start, hc, hs]

end Manager

end SeamlessTunnel
