import SeamlessTunnel.Proofs.Manager.Failures
import SeamlessTunnel.Proofs.Routes.Canonical
/-
  SeamlessTunnel.Proofs.Manager.Requests — what the platform is asked for a configuration.

  An update that gets to build its tunnel takes a new builder, makes the calls for its
  configuration in one fixed order (`Outline`), and has the tunnel established. It goes on to
  the end if the platform refuses none of the calls, and else stops at the first that is
  refused: the error names that call, no status is told and no device is handed in
  (`requests_of_run`). Nor is one handed in where no tunnel comes of it in the end.

  So a tunnel is established only when all its routes were added, and these cover what is to
  go through it, no less and no more.
-/

namespace SeamlessTunnel.Manager

open Multiplexer (Caller DeviceRef)
open State

/-! ## Outlines -/

/-- The nameservers for some settings: their own, or others where there are none and the
    platform must not go without. -/
inductive Nameservers (options : DnsOptions) (chromeOs : Bool) (dns : DnsSettings) :
    List Address → Prop
  | own (h : dns.nameservers = [] → options.avoidEmpty = false ∧ chromeOs = false) :
      Nameservers options chromeOs dns dns.nameservers
  | fallback (hn : dns.nameservers = []) (h : options.avoidEmpty = true ∨ chromeOs = true) :
      Nameservers options chromeOs dns options.fallback

/-- A domain, and the same less one dot at its end. -/
inductive Bare : String → String → Prop
  | dotted (d : String) : Bare (d ++ ".") d
  | plain {d : String} (h : ∀ b, d ≠ b ++ ".") : Bare d d

/-- What a builder is told of a configuration. -/
structure Outline (options : Options) (chromeOs : Bool) (a : Applied) where
  servers : List Address
  domains : List String
  ipv4 : List Prefix
  ipv6 : List Prefix
  withoutDns : a.dns = none → servers = [] ∧ domains = []
  withDns : ∀ dns, a.dns = some dns →
    Nameservers options.dns chromeOs dns servers ∧ List.Forall₂ Bare dns.searchDomains domains
  routes : ipv4 ++ ipv6 = (Routes.compute a.router.routes a.router.localRoutes).toList
  canonical4 : Routes.Canonical .ipv4 ipv4
  canonical6 : Routes.Canonical .ipv6 ipv6

section

variable {options : Options} {chromeOs : Bool} {a : Applied}

/-- The builder calls, in order. Routes have no host bits; local addresses keep theirs. -/
def Outline.calls (o : Outline options chromeOs a) : List BuilderCall :=
  .setMtu options.tunnel.defaultMtu ::
    (o.servers.map .addDnsServer ++ o.domains.map .addSearchDomain ++
      (o.ipv4 ++ o.ipv6).map (fun p => .addRoute p.address p.length) ++
      a.router.localAddresses.map fun p => .addAddress p.address p.length)

theorem nameservers_nameserversFor (options : DnsOptions) (chromeOs : Bool) (dns : DnsSettings) :
    Nameservers options chromeOs dns (nameserversFor options chromeOs dns) := by
  unfold nameserversFor
  split
  · rename_i h
    rw [Bool.and_eq_true, Bool.or_eq_true, List.isEmpty_iff] at h
    exact .fallback h.1 h.2
  · rename_i h
    refine .own fun hn => ?_
    simpa [hn] using h

theorem bare_withoutDot (d : String) : Bare d (String.ofList (Dns.withoutDot d.toList)) := by
  unfold Dns.withoutDot
  split
  · rename_i h
    obtain ⟨cs, hcs⟩ := List.getLast?_eq_some_iff.1 h
    have hd : d = String.ofList cs ++ "." := by
      rw [← String.toList_inj, String.toList_append, String.toList_ofList, hcs]
      rfl
    rw [hcs, List.dropLast_concat, hd]
    exact .dotted _
  · rename_i h
    rw [String.ofList_toList]
    refine .plain fun b hb => h ?_
    rw [hb, String.toList_append]
    exact List.getLast?_eq_some_iff.2 ⟨b.toList, rfl⟩

theorem bare_bareDomains (dns : DnsSettings) :
    List.Forall₂ Bare dns.searchDomains dns.bareDomains := by
  rw [DnsSettings.bareDomains, List.forall₂_map_right_iff, List.forall₂_same]
  exact fun d _ => bare_withoutDot d

/-- The calls that are planned follow an outline. -/
theorem exists_outline (options : Options) (chromeOs : Bool) (a : Applied) :
    ∃ o : Outline options chromeOs a, plan options chromeOs a.router a.dns = o.calls := by
  have h4 := Routes.canonical_computeFamily .ipv4 a.router.routes a.router.localRoutes
  have h6 := Routes.canonical_computeFamily .ipv6 a.router.routes a.router.localRoutes
  have hroutes : (Routes.compute a.router.routes a.router.localRoutes).toList.map
        (fun p => BuilderCall.addRoute p.network p.length) =
      (Routes.compute a.router.routes a.router.localRoutes).toList.map
        fun p => .addRoute p.address p.length := by
    refine List.map_congr_left fun p hp => ?_
    rw [(List.mem_append.1 hp).elim (h4.masked p) (h6.masked p)]
  unfold plan
  rw [hroutes]
  cases hdns : a.dns with
  | none =>
    exact ⟨{
      servers := []
      domains := []
      ipv4 := _
      ipv6 := _
      withoutDns := fun _ => ⟨rfl, rfl⟩
      withDns := by rw [hdns]; exact nofun
      routes := rfl
      canonical4 := h4
      canonical6 := h6 }, rfl⟩
  | some dns =>
    refine ⟨{
      servers := nameserversFor options.dns chromeOs dns
      domains := dns.bareDomains
      ipv4 := _
      ipv6 := _
      withoutDns := by rw [hdns]; exact nofun
      withDns := ?_
      routes := rfl
      canonical4 := h4
      canonical6 := h6 }, rfl⟩
    intro dns' hdns'
    obtain rfl := Option.some.inj (hdns.symm.trans hdns')
    exact ⟨nameservers_nameserversFor options.dns chromeOs dns, bare_bareDomains dns⟩

theorem Nameservers.unique {options : DnsOptions} {dns : DnsSettings} {l l' : List Address}
    (h : Nameservers options chromeOs dns l) (h' : Nameservers options chromeOs dns l') :
    l = l' := by
  have hclash : ∀ {chromeOs : Bool}, (options.avoidEmpty = true ∨ chromeOs = true) →
      ¬ (options.avoidEmpty = false ∧ chromeOs = false) := by
    rintro _ (h | h) ⟨h₁, h₂⟩ <;> simp_all
  cases h with
  | own ho =>
    cases h' with
    | own => rfl
    | fallback hn hf => exact absurd (ho hn) (hclash hf)
  | fallback hn hf =>
    cases h' with
    | own ho => exact absurd (ho hn) (hclash hf)
    | fallback => rfl

theorem Bare.unique {d b b' : String} (h : Bare d b) (h' : Bare d b') : b = b' := by
  cases h with
  | dotted =>
    generalize hd : b ++ "." = d at h'
    cases h' with
    | dotted => exact (String.append_left_inj ".").1 hd
    | plain hp => exact absurd hd.symm (hp b)
  | plain hp =>
    cases h' with
    | dotted => exact absurd rfl (hp b')
    | plain => rfl

/-- No outline leaves a choice. -/
theorem Outline.calls_eq (o : Outline options chromeOs a) :
    o.calls = plan options chromeOs a.router a.dns := by
  obtain ⟨o', ho'⟩ := exists_outline options chromeOs a
  have hunique : Relator.RightUnique Bare := fun _ _ _ => Bare.unique
  have hdns : o.servers = o'.servers ∧ o.domains = o'.domains := by
    cases h : a.dns with
    | none =>
      obtain ⟨hs, hd⟩ := o.withoutDns h
      obtain ⟨hs', hd'⟩ := o'.withoutDns h
      exact ⟨hs.trans hs'.symm, hd.trans hd'.symm⟩
    | some dns =>
      obtain ⟨hs, hd⟩ := o.withDns dns h
      obtain ⟨hs', hd'⟩ := o'.withDns dns h
      exact ⟨hs.unique hs', List.right_unique_forall₂' hunique hd hd'⟩
  rw [ho', Outline.calls, Outline.calls, hdns.1, hdns.2, o.routes, o'.routes]

/-- The routes that are added cover what is routed and not kept off. -/
theorem Outline.covers (o : Outline options chromeOs a) (x : Address) :
    (∃ q : Prefix, .addRoute q.address q.length ∈ o.calls ∧ q.Covers x) ↔
      Routes.Wanted a.router.routes a.router.localRoutes x := by
  rw [← Routes.covers_toList, ← o.routes]
  refine exists_congr fun q => and_congr_left fun _ => ?_
  have hparts : ∀ p : Prefix, p.address = q.address ∧ p.length = q.length ↔ p = q := by
    rintro ⟨address, length, h⟩
    cases q
    simp
  simp [Outline.calls, hparts]

end

/-! ## Requests -/

/-- What is asked of a builder. -/
inductive BuilderRequest where
  /-- A service is asked for the builder. -/
  | new (service : String)
  | call (call : BuilderCall)
  | establish
  deriving DecidableEq, Repr

def PlatformCall.request? : PlatformCall → Option BuilderRequest
  | .newBuilder service => some (.new service)
  | .build call _ => some (.call call)
  | .establish _ => some .establish
  | .updateStatus _ _ => none

def Effects.requests (e : Effects) : List BuilderRequest :=
  e.calls.filterMap PlatformCall.request?

/-- All that is asked when nothing is refused. -/
def allRequests (service : String) (calls : List BuilderCall) : List BuilderRequest :=
  .new service :: calls.map .call ++ [.establish]

/-- What is known of a build whose `i`th call is refused. -/
structure StopsAt (calls : List BuilderCall) (service : String) (i : Nat) (call : BuilderCall)
    (message : String) (s t : State) (e : Effects) : Prop where
  requests : e.requests = .new service :: (calls.take (i + 1)).map .call
  result : e.result = some (.error (.builder call.name message))
  statuses : e.calls.filterMap PlatformCall.status? = []
  added : t.multiplexer.added = s.multiplexer.added

/-- What is known of a build for which no tunnel is established. Only several users are told to
    the service. -/
structure Unestablished (p : Platform) (calls : List BuilderCall) (service : String)
    (error : VpnError) (s t : State) (e : Effects) : Prop where
  fault : Fault p calls error
  result : e.result = some (.error error)
  statuses : e.calls.filterMap PlatformCall.status? =
    if error = .multipleUsers then [(service, false)] else []
  added : t.multiplexer.added = s.multiplexer.added

/-- What is known of a build by these calls, of the states before and after it, and of its
    effects. -/
structure InSequence (p : Platform) (calls : List BuilderCall) (service : String) (s t : State)
    (e : Effects) : Prop where
  inOrder : e.requests <+: allRequests service calls
  whole : p.Accepts calls → e.requests = allRequests service calls
  stops : ∀ i call message, calls[i]? = some call → p.Accepts (calls.take i) →
    p.refuses i call = some message → StopsAt calls service i call message s t e
  unestablished : p.Accepts calls → (∀ device, p.establish ≠ .tunnel device) →
    ∃ error, Unestablished p calls service error s t e

section

variable {p : Platform} {calls : List BuilderCall} {i : Nat} {call : BuilderCall}
  {message : String}

theorem submit_of_accepts (ha : p.Accepts calls) :
    submit p.refuses 0 calls = (calls.map (.build · none), none) := by
  rcases Manager.submit_cases p.refuses 0 calls with
    ⟨-, he⟩ | ⟨before, call, after, message, rfl, -, hr, -⟩
  · exact he
  · rw [Nat.zero_add, ha before.length call (by simp)] at hr
    cases hr

theorem submit_of_refused (hc : calls[i]? = some call) (ha : p.Accepts (calls.take i))
    (hr : p.refuses i call = some message) : submit p.refuses 0 calls =
      ((calls.take i).map (.build · none) ++ [.build call (some message)],
        some (.builder call.name message)) := by
  rcases Manager.submit_cases p.refuses 0 calls with
    ⟨ha', -⟩ | ⟨before, call', after, message', rfl, ha', hr', he⟩
  · have hno := ha' i call hc
    rw [Nat.zero_add, hr] at hno
    cases hno
  · -- of two calls that are refused, neither comes before the other
    have hlength : before.length = i := by
      rcases Nat.lt_trichotomy before.length i with hlt | heq | hgt
      · have hno := ha before.length call' (by simp [hlt])
        rw [Nat.zero_add, hno] at hr'
        cases hr'
      · exact heq
      · rw [List.getElem?_append_left hgt] at hc
        have hno := ha' i call hc
        rw [Nat.zero_add, hr] at hno
        cases hno
    subst hlength
    obtain rfl : call' = call := by simpa using hc
    rw [Nat.zero_add, hr] at hr'
    obtain rfl := Option.some.inj hr'
    rw [he, List.take_left]

theorem exists_refused (h : ¬ p.Accepts calls) : ∃ i call message, calls[i]? = some call ∧
    p.Accepts (calls.take i) ∧ p.refuses i call = some message := by
  rcases Manager.submit_cases p.refuses 0 calls with
    ⟨ha, -⟩ | ⟨before, call, after, message, rfl, ha, hr, -⟩
  · exact absurd (fun i call hi => by simpa using ha i call hi) h
  · refine ⟨before.length, call, message, by simp, fun i call hi => ?_, by simpa using hr⟩
    rw [List.take_left] at hi
    simpa using ha i call hi

theorem filterMap_request?_build (calls : List BuilderCall) (refusal : Option String) :
    (calls.map (PlatformCall.build · refusal)).filterMap PlatformCall.request? =
      calls.map .call := by
  rw [List.filterMap_map, ← List.filterMap_eq_map]
  rfl

end

namespace State

/-! ## The build -/

variable {s t : State} {c : Caller} {service : String} {router : RouterConfig}
  {dns : Option DnsSettings} {chromeOs : Bool} {p : Platform} {e : Effects}

/-- When all calls went through the tunnel is established, and only a status is told then. -/
theorem calls_build_of_accepts (ha : p.Accepts (plan s.options chromeOs router dns)) (c : Caller)
    (service : String) : ∃ rest : List PlatformCall, rest.filterMap PlatformCall.request? = [] ∧
      (s.build c service router dns chromeOs p).2.calls =
        .newBuilder service :: (plan s.options chromeOs router dns).map (.build · none) ++
          .establish p.establish :: rest := by
  have hs := submit_of_accepts ha
  cases he : p.establish with
  | unavailable => exact ⟨[], rfl, by simp [build, hs, he, finish]⟩
  | failed message =>
    by_cases hm : occursIn multipleUsersMarker.toList message.toList = true
    · exact ⟨[.updateStatus service false], rfl, by simp [build, hs, he, hm, finish]⟩
    · exact ⟨[], rfl, by simp [build, hs, he, hm, finish]⟩
  | tunnel device =>
    refine ⟨[.updateStatus service true], rfl, ?_⟩
    cases ho : s.multiplexer.isOver with
    | true => simp [build, hs, he, Multiplexer.State.add, ho]
    | false => simp [build, hs, he, Multiplexer.State.add, ho, finish]

theorem requests_build_of_accepts (ha : p.Accepts (plan s.options chromeOs router dns))
    (c : Caller) (service : String) : (s.build c service router dns chromeOs p).2.requests =
      allRequests service (plan s.options chromeOs router dns) := by
  obtain ⟨rest, hrest, hcalls⟩ := calls_build_of_accepts ha c service
  rw [Effects.requests, hcalls, List.filterMap_append, List.filterMap_cons, List.filterMap_cons]
  simp only [PlatformCall.request?, filterMap_request?_build, hrest]
  rfl

/-- A build stops at the call that is refused. -/
theorem stopsAt_build {i : Nat} {call : BuilderCall} {message : String}
    (hc : (plan s.options chromeOs router dns)[i]? = some call)
    (ha : p.Accepts ((plan s.options chromeOs router dns).take i))
    (hr : p.refuses i call = some message)
    (hb : s.build c service router dns chromeOs p = (t, e)) :
    StopsAt (plan s.options chromeOs router dns) service i call message s t e := by
  have hs := submit_of_refused hc ha hr
  have htake : (plan s.options chromeOs router dns).take (i + 1) =
      (plan s.options chromeOs router dns).take i ++ [call] := by
    rw [List.take_add_one, hc]
    rfl
  have hstatuses := status?_submit p.refuses 0 (plan s.options chromeOs router dns)
  have hbuild : s.build c service router dns chromeOs p = State.finish { s with
      service := some service } c (.error (.builder call.name message)) (.newBuilder service ::
        (((plan s.options chromeOs router dns).take i).map (.build · none) ++
          [.build call (some message)])) := by
    simp only [build, hs]
  obtain ⟨rfl, rfl⟩ := Prod.mk.inj (hbuild.symm.trans hb)
  constructor
  · rw [Effects.requests, List.filterMap_cons, List.filterMap_append, filterMap_request?_build,
      htake, List.map_append]
    rfl
  · rfl
  · rw [hs] at hstatuses
    exact hstatuses
  · rw [multiplexer_dismiss]

theorem unestablished_build (hno : ∀ device, p.establish ≠ .tunnel device)
    (hb : s.build c service router dns chromeOs p = (t, e)) :
    ∃ error, Unestablished p (plan s.options chromeOs router dns) service error s t e := by
  rcases build_cases s c service router dns chromeOs p with
    ⟨made, error, hf, hvain, hbuild⟩ | ⟨device, -, he, -⟩
  · obtain ⟨rfl, rfl⟩ := Prod.mk.inj (hbuild.symm.trans hb)
    exact ⟨error, hf, rfl, hvain.statuses, by rw [multiplexer_dismiss]⟩
  · exact absurd he (hno device)

theorem inSequence_build (hb : s.build c service router dns chromeOs p = (t, e)) :
    InSequence p (plan s.options chromeOs router dns) service s t e where
  inOrder := by
    by_cases ha : p.Accepts (plan s.options chromeOs router dns)
    · have hall := requests_build_of_accepts ha c service
      rw [hb] at hall
      exact hall ▸ List.prefix_refl _
    · obtain ⟨i, call, message, hc, ha, hr⟩ := exists_refused ha
      rw [(stopsAt_build hc ha hr hb).requests, allRequests, List.cons_append,
        List.cons_prefix_cons]
      exact ⟨rfl, ((List.take_prefix _ _).map _).trans (List.prefix_append _ _)⟩
  whole ha := by
    have hall := requests_build_of_accepts ha c service
    rwa [hb] at hall
  stops _ _ _ hc ha hr := stopsAt_build hc ha hr hb
  unestablished _ hno := unestablished_build hno hb

end State

section

variable {options : Options} {s₀ s t u : State} {ms : List Move} {c : Caller} {service : String}
  {a : Applied} {p : Platform} {calls : List BuilderCall} {e : Effects} {chromeOs : Bool}

theorem InSequence.congr (h : InSequence p calls service s t e)
    (ha : s.multiplexer.added = u.multiplexer.added) : InSequence p calls service u t e where
  inOrder := h.inOrder
  whole := h.whole
  stops i call message hc hacc hr :=
    have hstops := h.stops i call message hc hacc hr
    { hstops with added := hstops.added.trans ha }
  unestablished hacc hno :=
    have ⟨error, hvain⟩ := h.unestablished hacc hno
    ⟨error, { hvain with added := hvain.added.trans ha }⟩

/-- Only a build that was asked everything gets to the end. -/
theorem InSequence.eq_of_establish (h : InSequence p calls service s t e)
    (he : .establish ∈ e.requests) : e.requests = allRequests service calls := by
  rcases List.prefix_concat_iff.1 h.inOrder with heq | hshort
  · exact heq
  · have hcall := hshort.subset he
    simp at hcall

/-- What is known of the step that builds: it keeps to the calls of an outline, and a tunnel
    is established only for what is routed and not kept off. -/
def Configures (options : Options) (chromeOs : Bool) (a : Applied) (service : String)
    (p : Platform) (s t : State) (e : Effects) : Prop :=
  ∃ o : Outline options chromeOs a, InSequence p o.calls service s t e ∧
    (.establish ∈ e.requests → ∀ x : Address,
      (∃ q : Prefix, .call (.addRoute q.address q.length) ∈ e.requests ∧ q.Covers x) ↔
        Routes.Wanted a.router.routes a.router.localRoutes x)

theorem configures_of_inSequence
    (h : InSequence p (plan options chromeOs a.router a.dns) service s t e) :
    Configures options chromeOs a service p s t e := by
  obtain ⟨o, ho⟩ := exists_outline options chromeOs a
  rw [ho] at h
  refine ⟨o, h, fun he x => ?_⟩
  rw [h.eq_of_establish he, ← o.covers]
  simp [allRequests]

/-- An update to another configuration asks the platform for what the configuration says, in
    order, up to the first call that is refused. -/
theorem requests_of_run (hstart : Manager.start options = .ok s₀) (h : Run s₀ ms s)
    (hj : s.job? c = some ⟨c, .update service a.router a.dns, .turn⟩) (hh : s.holder = some c)
    (hne : s.applied ≠ some a) (haddr : a.router.localAddresses ≠ []) (p : Platform) :
    ComesToBuild s c (.update service a.router a.dns) p fun _ p' u v e =>
      Configures s.options p.chromeOs a service p' u v e := by
  refine comesToBuild hstart h hj hh hne haddr ?_ ?_
  · intro _ t e _ hb
    exact configures_of_inSequence (inSequence_build hb)
  · rintro _ ns u p' t e hu _ _ _ ⟨calls, events, hb⟩
    have hoptions : u.options = s.options := by
      rw [options_of_run hstart hu, options_of_run hstart h]
    rw [← hoptions]
    exact configures_of_inSequence ((inSequence_build hb).congr rfl)

end

/-! ## A search domain that is refused -/

/-- Routes with a part kept off, a local address with host bits, and a search domain. -/
def withDomain : Applied where
  router :=
    { oneAddress with
      routes := [⟨.ofNat .ipv4 (10 * 2 ^ 24), 8, by decide⟩]
      localRoutes := [⟨.ofNat .ipv4 (10 * 2 ^ 24), 9, by decide⟩] }
  dns := some { searchDomains := ["corp."] }

/-- A platform that takes no search domains. -/
def refusingDomains : Platform where
  chromeOs := false
  refuses _ call := if call.name = "add_search_domain" then some "no" else none
  establish := .unavailable

/-- The update with the domain has its turn. -/
def domainBegun : State :=
  { fresh with
    jobs := [{ caller := 0, task := .update "vpn" withDomain.router withDomain.dns }]
    holder := some 0 }

/-- The domain is asked for without its dot, and nothing after it. -/
theorem requests_refusingDomains :
    Run fresh [.start 0 (.update "vpn" withDomain.router withDomain.dns)] domainBegun ∧
    ∃ t e, domainBegun.enter 0 refusingDomains = some (t, e) ∧
      e.requests = [.new "vpn", .call (.setMtu 1280), .call (.addSearchDomain "corp")] ∧
      e.result = some (.error (.builder "add_search_domain" "no")) ∧
      t.multiplexer.added = 0 := by
  have hrun : Run fresh [.start 0 (.update "vpn" withDomain.router withDomain.dns)] domainBegun :=
    .of_play rfl
  obtain ⟨t, e, henter, o, hseq, -⟩ := (requests_of_run start_fresh hrun (a := withDomain)
    rfl rfl nofun nofun refusingDomains).seamless ⟨rfl, rfl⟩
  obtain ⟨rest, hcalls⟩ :
      ∃ rest, o.calls = [.setMtu 1280, .addSearchDomain "corp"] ++ rest :=
    ⟨_, o.calls_eq.trans rfl⟩
  have hcall : o.calls[1]? = some (.addSearchDomain "corp") := by rw [hcalls]; rfl
  have haccepts : refusingDomains.Accepts (o.calls.take 1) := by
    rw [hcalls]
    intro i call hi
    obtain rfl : call = .setMtu 1280 := List.mem_singleton.1 (List.mem_of_getElem? hi)
    rfl
  obtain ⟨hrequests, hresult, -, hadded⟩ := hseq.stops 1 _ "no" hcall haccepts (by decide)
  rw [hcalls] at hrequests
  exact ⟨hrun, t, e, henter, hrequests, hresult, hadded⟩

end SeamlessTunnel.Manager
