import SeamlessTunnel.Manager.Basic
/-
  SeamlessTunnel.Proofs.Manager.Building — building a tunnel succeeds or fails as a whole.

  A platform that refuses one of the builder calls, or establishes no tunnel, obstructs the
  building (`Platform.Obstructs`). Then, and only then, there is a fault, and one error that
  tells of it (`Fault`, `obstructs_iff`, `Fault.unique`). A build that fails ends the job
  with that error and touches neither the record of the configuration nor the multiplexer
  (`build_cases`).
-/

namespace SeamlessTunnel.Manager

open Multiplexer (Caller DeviceRef)

/-- Whether none of some builder calls is refused. -/
def Platform.Accepts (p : Platform) (calls : List BuilderCall) : Prop :=
  ∀ i call, calls[i]? = some call → p.refuses i call = none

/-- Whether no tunnel comes of some builder calls. -/
def Platform.Obstructs (p : Platform) (calls : List BuilderCall) : Prop :=
  (∃ i call message, calls[i]? = some call ∧ p.refuses i call = some message) ∨
    ∀ device, p.establish ≠ .tunnel device

/-- What goes wrong, and the error that tells of it. -/
inductive Fault (p : Platform) (calls : List BuilderCall) : VpnError → Prop
  /-- The first call that is refused. -/
  | refused {before after : List BuilderCall} {call : BuilderCall} {message : String}
      (hc : calls = before ++ call :: after) (ha : p.Accepts before)
      (hr : p.refuses before.length call = some message) : Fault p calls (.builder call.name message)
  | unavailable (ha : p.Accepts calls) (he : p.establish = .unavailable) : Fault p calls .notPrepared
  | multipleUsers {message : String} (ha : p.Accepts calls) (he : p.establish = .failed message)
      (hm : multipleUsersMarker.toList <:+: message.toList) : Fault p calls .multipleUsers
  | failed {message : String} (ha : p.Accepts calls) (he : p.establish = .failed message)
      (hm : ¬ multipleUsersMarker.toList <:+: message.toList) : Fault p calls (.establish message)

/-- The tunnel that a call on the platform establishes. -/
def PlatformCall.device? : PlatformCall → Option DeviceRef
  | .establish (.tunnel device) => some device
  | .establish .unavailable | .establish (.failed _) | .newBuilder _ | .build _ _
  | .updateStatus _ _ => none

/-- The status that a call on the platform reports, with the service it is reported to. -/
def PlatformCall.status? : PlatformCall → Option (String × Bool)
  | .updateStatus service active => some (service, active)
  | .newBuilder _ | .build _ _ | .establish _ => none

/-- What is known of the calls after that for a builder when no tunnel is built: they
    establish none, and of all errors they report only one to the service. -/
structure MadeInVain (service : String) (error : VpnError) (made : List PlatformCall) : Prop where
  devices : ∀ call ∈ made, call.device? = none
  statuses : made.filterMap PlatformCall.status? =
    if error = .multipleUsers then [(service, false)] else []

/-- The calls on the platform when a tunnel is built. -/
def building (service : String) (calls : List BuilderCall) (device : DeviceRef) :
    List PlatformCall :=
  .newBuilder service :: calls.map (.build · none) ++
    [.establish (.tunnel device), .updateStatus service true]

section

variable {p : Platform} {calls : List BuilderCall} {e e' : VpnError}

/-! ## Faults -/

theorem occursIn_iff {needle hay : List Char} : occursIn needle hay = true ↔ needle <:+: hay := by
  induction hay with
  | nil => simp [occursIn]
  | cons c cs ih => rw [occursIn, Bool.or_eq_true, ih, List.isPrefixOf_iff_prefix, List.infix_cons_iff]

/-- Builder calls are made up to the first that is refused. -/
theorem submit_cases (refuses : Nat → BuilderCall → Option String) (n : Nat)
    (calls : List BuilderCall) :
    ((∀ i call, calls[i]? = some call → refuses (n + i) call = none) ∧
      submit refuses n calls = (calls.map (.build · none), none)) ∨
    ∃ before call after message, calls = before ++ call :: after ∧
      (∀ i call, before[i]? = some call → refuses (n + i) call = none) ∧
      refuses (n + before.length) call = some message ∧
      submit refuses n calls = (before.map (.build · none) ++ [.build call (some message)],
        some (.builder call.name message)) := by
  induction calls generalizing n with
  | nil => exact .inl ⟨fun _ _ h => (by cases h), rfl⟩
  | cons call calls ih =>
    cases hr : refuses n call with
    | some message =>
      exact .inr ⟨[], call, calls, message, rfl, fun _ _ h => (by cases h), hr, by simp [submit, hr]⟩
    | none =>
      -- the call goes through, and so do those up to the first that is refused
      have hcons : ∀ {l : List BuilderCall},
          (∀ i call, l[i]? = some call → refuses (n + 1 + i) call = none) →
          ∀ i call', (call :: l)[i]? = some call' → refuses (n + i) call' = none := by
        intro l hl i call' hi
        cases i with
        | zero =>
          obtain rfl := Option.some.inj hi
          exact hr
        | succ i =>
          have hnext := hl i call' hi
          rwa [show n + (i + 1) = n + 1 + i by omega]
      rcases ih (n + 1) with ⟨ha, he⟩ | ⟨before, call', after, message, rfl, ha, hr', he⟩
      · exact .inl ⟨hcons ha, by simp [submit, hr, he]⟩
      · refine .inr ⟨call :: before, call', after, message, rfl, hcons ha, ?_, by simp [submit, hr, he]⟩
        rwa [List.length_cons, show n + (before.length + 1) = n + 1 + before.length by omega]

theorem Platform.submit_cases (p : Platform) (calls : List BuilderCall) :
    (p.Accepts calls ∧ submit p.refuses 0 calls = (calls.map (.build · none), none)) ∨
    ∃ made name message, Fault p calls (.builder name message) ∧
      submit p.refuses 0 calls = (made, some (.builder name message)) := by
  rcases Manager.submit_cases p.refuses 0 calls with
    ⟨ha, he⟩ | ⟨before, call, after, message, hc, ha, hr, he⟩
  · exact .inl ⟨fun i call hi => by simpa using ha i call hi, he⟩
  · rw [Nat.zero_add] at hr
    exact .inr ⟨_, _, _, .refused hc (fun i call hi => by simpa using ha i call hi) hr, he⟩

theorem device?_submit (refuses : Nat → BuilderCall → Option String) (n : Nat)
    (calls : List BuilderCall) : ∀ call ∈ (submit refuses n calls).1, call.device? = none := by
  induction calls generalizing n with
  | nil => exact nofun
  | cons call calls ih =>
    intro made hmade
    cases hr : refuses n call with
    | some message =>
      simp only [submit, hr, List.mem_singleton] at hmade
      rw [hmade]
      rfl
    | none =>
      simp only [submit, hr] at hmade
      rcases List.mem_cons.1 hmade with rfl | hmade
      · rfl
      · exact ih (n + 1) made hmade

theorem status?_submit (refuses : Nat → BuilderCall → Option String) (n : Nat)
    (calls : List BuilderCall) : (submit refuses n calls).1.filterMap PlatformCall.status? = [] := by
  induction calls generalizing n with
  | nil => rfl
  | cons call calls ih =>
    cases hr : refuses n call with
    | some message => simp [submit, hr, PlatformCall.status?]
    | none =>
      simp only [submit, hr]
      exact ih (n + 1)

theorem statuses_building (service : String) (device : DeviceRef) :
    (building service calls device).filterMap PlatformCall.status? = [(service, true)] := by
  simp [building, List.filterMap_cons, PlatformCall.status?]

theorem devices_building (service : String) (device : DeviceRef) :
    (building service calls device).filterMap PlatformCall.device? = [device] := by
  simp [building, List.filterMap_cons, PlatformCall.device?]

/-- No tunnel comes of the calls when, and only when, there is a fault. -/
theorem obstructs_iff : p.Obstructs calls ↔ ∃ e, Fault p calls e := by
  constructor
  · intro h
    rcases p.submit_cases calls with ⟨ha, -⟩ | ⟨_, _, _, hf, -⟩
    · have hno := h.resolve_left fun ⟨i, call, message, hi, hr⟩ => by
        rw [ha i call hi] at hr
        cases hr
      cases he : p.establish with
      | tunnel device => exact absurd he (hno device)
      | unavailable => exact ⟨_, .unavailable ha he⟩
      | failed message =>
        by_cases hm : multipleUsersMarker.toList <:+: message.toList
        · exact ⟨_, .multipleUsers ha he hm⟩
        · exact ⟨_, .failed ha he hm⟩
    · exact ⟨_, hf⟩
  · rintro ⟨e, hf⟩
    have hno : ∀ o, p.establish = o → (∀ device, o ≠ .tunnel device) → p.Obstructs calls :=
      fun o he ho => .inr fun device hd => ho device (he ▸ hd)
    cases hf with
    | @refused before after call message hc ha hr =>
      exact .inl ⟨before.length, call, message, by simp [hc], hr⟩
    | unavailable ha he => exact hno _ he fun _ h => by cases h
    | multipleUsers ha he hm => exact hno _ he fun _ h => by cases h
    | failed ha he hm => exact hno _ he fun _ h => by cases h

/-- The platform's behaviour tells which error it is. -/
theorem Fault.unique (h : Fault p calls e) (h' : Fault p calls e') : e = e' := by
  have hclash : ∀ {before after : List BuilderCall} {call : BuilderCall} {message : String},
      calls = before ++ call :: after → p.refuses before.length call = some message →
      ¬ p.Accepts calls := by
    intro before after call message hc hr ha
    rw [ha before.length call (by simp [hc])] at hr
    cases hr
  -- of two calls that are refused, neither comes before the other
  have hfirst : ∀ {before after before' after' : List BuilderCall} {call call' : BuilderCall}
      {message : String}, calls = before ++ call :: after → calls = before' ++ call' :: after' →
      p.Accepts before' → p.refuses before.length call = some message →
      before'.length ≤ before.length := by
    intro before after before' after' call call' message hc hc' ha hr
    refine Nat.le_of_not_lt fun hlt => ?_
    have hcall : calls[before.length]? = some call := by simp [hc]
    rw [hc', List.getElem?_append_left (by omega)] at hcall
    rw [ha before.length call hcall] at hr
    cases hr
  cases h with
  | @refused before after call message hc ha hr =>
    cases h' with
    | @refused before' after' call' message' hc' ha' hr' =>
      have hlength : before.length = before'.length :=
        Nat.le_antisymm (hfirst hc' hc ha hr') (hfirst hc hc' ha' hr)
      obtain ⟨rfl, hrest⟩ := List.append_inj (hc.symm.trans hc') hlength
      obtain ⟨rfl, -⟩ := List.cons.inj hrest
      rw [hr] at hr'
      rw [Option.some.inj hr']
    | unavailable ha' he => exact absurd ha' (hclash hc hr)
    | multipleUsers ha' he hm => exact absurd ha' (hclash hc hr)
    | failed ha' he hm => exact absurd ha' (hclash hc hr)
  | unavailable ha he =>
    cases h' with
    | refused hc ha' hr => exact absurd ha (hclash hc hr)
    | unavailable => rfl
    | multipleUsers ha' he' hm => cases he.symm.trans he'
    | failed ha' he' hm => cases he.symm.trans he'
  | multipleUsers ha he hm =>
    cases h' with
    | refused hc ha' hr => exact absurd ha (hclash hc hr)
    | unavailable ha' he' => cases he.symm.trans he'
    | multipleUsers => rfl
    | failed ha' he' hm' =>
      obtain rfl := Establishment.failed.inj (he.symm.trans he')
      exact absurd hm hm'
  | failed ha he hm =>
    cases h' with
    | refused hc ha' hr => exact absurd ha (hclash hc hr)
    | unavailable ha' he' => cases he.symm.trans he'
    | multipleUsers ha' he' hm' =>
      obtain rfl := Establishment.failed.inj (he.symm.trans he')
      exact absurd hm' hm
    | failed ha' he' hm' => rw [Establishment.failed.inj (he.symm.trans he')]

theorem not_obstructs (ha : p.Accepts calls) {device : DeviceRef} (he : p.establish = .tunnel device) :
    ¬ p.Obstructs calls := by
  rintro (⟨i, call, message, hi, hr⟩ | hno)
  · rw [ha i call hi] at hr
    cases hr
  · exact hno device he

end

namespace State

/-! ## The build -/

variable {s : State} {c : Caller} {service : String} {router : RouterConfig}
  {dns : Option DnsSettings} {chromeOs : Bool} {p : Platform}

/-- A build fails with the error that tells of the fault and establishes no tunnel, or is
    refused by a multiplexer that is over, or attaches the tunnel. -/
theorem build_cases (s : State) (c : Caller) (service : String) (router : RouterConfig)
    (dns : Option DnsSettings) (chromeOs : Bool) (p : Platform) :
    (∃ made error, Fault p (plan s.options chromeOs router dns) error ∧
      MadeInVain service error made ∧
      s.build c service router dns chromeOs p = { s with service := some service }.finish c
        (.error error) (.newBuilder service :: made)) ∨
    ∃ device, p.Accepts (plan s.options chromeOs router dns) ∧ p.establish = .tunnel device ∧
      ((s.multiplexer.isOver = true ∧ s.build c service router dns chromeOs p =
          (State.setStage { s with
            service := some service
            multiplexer := (s.multiplexer.add device).2 } c (.discarding device .closed),
            { calls := building service (plan s.options chromeOs router dns) device })) ∨
        (s.multiplexer.isOver = false ∧ s.build c service router dns chromeOs p =
          State.finish { s with
            service := some service
            multiplexer := (s.multiplexer.add device).2
            applied := some ⟨router, dns⟩ } c (.ok ())
            (building service (plan s.options chromeOs router dns) device))) := by
  have hdevices := device?_submit p.refuses 0 (plan s.options chromeOs router dns)
  have hstatuses := status?_submit p.refuses 0 (plan s.options chromeOs router dns)
  rcases p.submit_cases (plan s.options chromeOs router dns) with
    ⟨ha, hs⟩ | ⟨made, _, _, hf, hs⟩
  · rw [hs] at hdevices hstatuses
    -- the platform took all the calls: what is known of the rest is known of all
    have hfails : ∀ (rest : List PlatformCall) (error : VpnError),
        Fault p (plan s.options chromeOs router dns) error → MadeInVain service error rest →
        s.build c service router dns chromeOs p = { s with service := some service }.finish c
          (.error error) (.newBuilder service ::
            ((plan s.options chromeOs router dns).map (PlatformCall.build · none) ++ rest)) →
        ∃ made error, Fault p (plan s.options chromeOs router dns) error ∧
          MadeInVain service error made ∧
          s.build c service router dns chromeOs p = { s with service := some service }.finish c
            (.error error) (.newBuilder service :: made) :=
      fun rest error hf hrest hb => ⟨_, error, hf, {
        devices := fun call hc => (List.mem_append.1 hc).elim (hdevices call) (hrest.devices call)
        statuses := by rw [List.filterMap_append, hstatuses, hrest.statuses, List.nil_append] }, hb⟩
    cases he : p.establish with
    | unavailable =>
      exact .inl (hfails [.establish .unavailable] _ (.unavailable ha he)
        ⟨by simp [PlatformCall.device?], rfl⟩ (by simp [build, hs, he]))
    | failed message =>
      by_cases hm : multipleUsersMarker.toList <:+: message.toList
      · exact .inl (hfails [.establish (.failed message), .updateStatus service false] _
          (.multipleUsers ha he hm) ⟨by simp [PlatformCall.device?], rfl⟩
          (by simp [build, hs, he, occursIn_iff.2 hm]))
      · exact .inl (hfails [.establish (.failed message)] _ (.failed ha he hm)
          ⟨by simp [PlatformCall.device?], rfl⟩ (by simp [build, hs, he, occursIn_iff, hm]))
    | tunnel device =>
      refine .inr ⟨device, ha, rfl, ?_⟩
      cases ho : s.multiplexer.isOver with
      | true => exact .inl ⟨rfl, by simp [build, hs, he, Multiplexer.State.add, ho, building]⟩
      | false => exact .inr ⟨rfl, by simp [build, hs, he, Multiplexer.State.add, ho, building]⟩
  · rw [hs] at hdevices hstatuses
    exact .inl ⟨made, _, hf, ⟨hdevices, hstatuses⟩, by simp [build, hs]⟩

/-- A build that nothing obstructs attaches the tunnel. -/
theorem build_eq (ha : p.Accepts (plan s.options chromeOs router dns)) {device : DeviceRef}
    (he : p.establish = .tunnel device) (ho : s.multiplexer.isOver = false) :
    s.build c service router dns chromeOs p =
      State.finish { s with
        service := some service
        multiplexer := (s.multiplexer.add device).2
        applied := some ⟨router, dns⟩ } c (.ok ())
        (building service (plan s.options chromeOs router dns) device) := by
  rcases build_cases s c service router dns chromeOs p with
    ⟨_, error, hf, -⟩ | ⟨device', -, he', ⟨hover, -⟩ | ⟨-, hb⟩⟩
  · exact absurd (obstructs_iff.2 ⟨error, hf⟩) (not_obstructs ha he)
  · rw [ho] at hover
    cases hover
  · obtain rfl := Establishment.tunnel.inj (he.symm.trans he')
    exact hb

/-- A build that nothing obstructs has its tunnel refused by a multiplexer that is over. -/
theorem build_eq_of_over (ha : p.Accepts (plan s.options chromeOs router dns)) {device : DeviceRef}
    (he : p.establish = .tunnel device) (ho : s.multiplexer.isOver = true) :
    s.build c service router dns chromeOs p =
      (State.setStage { s with
        service := some service
        multiplexer := (s.multiplexer.add device).2 } c (.discarding device .closed),
        { calls := building service (plan s.options chromeOs router dns) device }) := by
  rcases build_cases s c service router dns chromeOs p with
    ⟨_, error, hf, -⟩ | ⟨device', -, he', ⟨-, hb⟩ | ⟨hopen, -⟩⟩
  · exact absurd (obstructs_iff.2 ⟨error, hf⟩) (not_obstructs ha he)
  · obtain rfl := Establishment.tunnel.inj (he.symm.trans he')
    exact hb
  · rw [ho] at hopen
    cases hopen

theorem establish_build (ha : p.Accepts (plan s.options chromeOs router dns)) {device : DeviceRef}
    (he : p.establish = .tunnel device) :
    .establish (.tunnel device) ∈ (s.build c service router dns chromeOs p).2.calls := by
  cases ho : s.multiplexer.isOver with
  | true =>
    rw [build_eq_of_over ha he ho]
    simp [building]
  | false =>
    rw [build_eq ha he ho]
    simp [building, finish]

/-- A build that the platform obstructs fails, and the error tells why. -/
theorem build_of_obstructs (ho : p.Obstructs (plan s.options chromeOs router dns)) (c : Caller)
    (service : String) : ∃ made error, Fault p (plan s.options chromeOs router dns) error ∧
      s.build c service router dns chromeOs p = { s with service := some service }.finish c
        (.error error) (.newBuilder service :: made) := by
  rcases build_cases s c service router dns chromeOs p with
    ⟨made, error, hf, -, hb⟩ | ⟨device, ha, he, -⟩
  · exact ⟨made, error, hf, hb⟩
  · exact absurd ho (not_obstructs ha he)

/-- A build begins with a new builder. -/
theorem calls_build : (s.build c service router dns chromeOs p).2.calls.head? =
    some (.newBuilder service) := by
  rcases build_cases s c service router dns chromeOs p with
    ⟨_, _, -, -, he⟩ | ⟨_, -, -, ⟨-, he⟩ | ⟨-, he⟩⟩
  · rw [he]
    rfl
  · rw [he]
    rfl
  · rw [he]
    rfl

end State

end SeamlessTunnel.Manager
