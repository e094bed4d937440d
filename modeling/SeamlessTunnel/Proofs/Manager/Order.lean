import SeamlessTunnel.Proofs.Manager.Building
import SeamlessTunnel.Proofs.Multiplexer.Answering
/-
  SeamlessTunnel.Proofs.Manager.Order — jobs go one at a time.

  Only the job that holds the turn is at work: it alone has a call on the multiplexer, and
  while that call goes on no configuration is recorded (`Orderly`). All that a move does is
  one of a few things (`Deed`, `deed_of_step`), and each keeps the order
  (`Orderly.of_deed`).
-/

namespace SeamlessTunnel.Manager

open Multiplexer (Caller DeviceRef Operation)
open Multiplexer.State (OthersKept Settled)

/-- Whether a job waits for an answer of the multiplexer. -/
def Stage.waits : Stage → Bool
  | .clearing _ | .emptying | .closing => true
  | .turn | .discarding _ _ => false

/-- What a task asks of the multiplexer before it waits at a stage. -/
inductive Asks : Task → Stage → Operation → Prop
  | clearing {service : String} {router : RouterConfig} {dns : Option DnsSettings}
      {chromeOs : Bool} : Asks (.update service router dns) (.clearing chromeOs) .shutdown
  | emptying {service : String} {router : RouterConfig} {dns : Option DnsSettings}
      (h : router.localAddresses = []) : Asks (.update service router dns) .emptying .shutdown
  | closeTunnels : Asks .closeTunnels .closing .shutdown
  | close : Asks .close .closing .close

/-- Whether a job can be at a stage. -/
inductive Fits (task : Task) : Stage → Prop
  | turn : Fits task .turn
  | waits {stage : Stage} {op : Operation} (h : Asks task stage op) : Fits task stage
  | discarding {service : String} {router : RouterConfig} {dns : Option DnsSettings}
      {device : DeviceRef} (h : task = .update service router dns)
      (haddr : router.localAddresses ≠ []) : Fits task (.discarding device .closed)

/-- Jobs keep out of each other's way. -/
structure Orderly (s : State) : Prop where
  held : s.multiplexer.held = true
  single : (s.jobs.map (·.caller)).Nodup
  present : ∀ j ∈ s.jobs, j.caller ∉ s.multiplexer.gone
  calls : ∀ j ∈ s.jobs, j.caller ∈ s.multiplexer.callers ↔ j.stage.waits = true
  turn : ∀ j ∈ s.jobs, j.stage ≠ .turn → s.holder = some j.caller
  fits : ∀ j ∈ s.jobs, Fits j.task j.stage
  /-- While tunnels are being closed none is recorded. -/
  blank : ∀ j ∈ s.jobs, j.stage.waits = true → s.applied = none

/-- Whether a move is open to those who make it. A caller has one call or one job at a time,
    and nobody but the manager hands in devices or lets go of the multiplexer. -/
def State.allows (s : State) : Move → Bool
  | .start c _ => !s.multiplexer.callers.contains c
  | .multiplexer (.call c _) | .multiplexer (.leave c) | .multiplexer (.cancel c) =>
    !(s.jobs.map (·.caller)).contains c
  | .multiplexer (.add _) | .multiplexer .release => false
  | _ => true

/-! ## What moves do -/

/-- The job whose turn has come begins, or one that waited goes on. -/
inductive Begins (s : State) (c : Caller) :
    Move → Platform → Job → List Multiplexer.Move → State → Prop
  | enter {p : Platform} {j : Job} (hj : s.job? c = some j) (hh : s.holder = some c)
      (hs : j.stage = .turn) : Begins s c (.enter c p) p j [] s
  | resume {p : Platform} {j : Job} {v : Multiplexer.State} (hj : s.job? c = some j)
      (hs : j.stage.waits = true) (hl : s.multiplexer.step (.leave c) = some v) :
      Begins s c (.resume c p) p j [.leave c] { s with multiplexer := v }

/-- When an update builds a tunnel: at once, or after the old tunnels were closed. -/
inductive ToBuild (s : State) (p : Platform) (a : Applied) : Stage → Bool → Prop
  | seamless (hs : s.options.tunnel.seamlessHandover = true) (hp : p.chromeOs = false)
      (hne : s.applied ≠ some a) : ToBuild s p a .turn false
  | cleared {chromeOs : Bool} : ToBuild s p a (.clearing chromeOs) chromeOs

/-- All that a move can do, with the moves of the multiplexer that it makes. -/
inductive Deed (s : State) : Move → List Multiplexer.Move → State → Effects → Prop
  | starts {c : Caller} {task : Task} {t : State} (hs : s.start c task = some t) :
      Deed s (.start c task) [] t {}
  | unchanged {c : Caller} {p : Platform} {service : String} {a : Applied}
      (hj : s.job? c = some ⟨c, .update service a.router a.dns, .turn⟩) (hh : s.holder = some c)
      (ha : s.applied = some a) : Deed s (.enter c p) [] (s.dismiss c) { result := some (.ok ()) }
  | asks {m : Move} {c : Caller} {p : Platform} {j : Job} {pre : List Multiplexer.Move}
      {u : State} {op : Operation} {v : Multiplexer.State} {stage : Stage} {service : Option String}
      (b : Begins s c m p j pre u) (ha : Asks j.task stage op)
      (hs : u.multiplexer.step (.call c op) = some v)
      (hservice : service = if stage = .closing then none else s.service) :
      Deed s m (pre ++ [.call c op])
        (State.setStage { s with applied := none, service, multiplexer := v } c stage) {}
  | fails {m : Move} {c : Caller} {p : Platform} {j : Job} {pre : List Multiplexer.Move}
      {u : State} {service : String} {a : Applied} {chromeOs : Bool} {error : VpnError}
      {made : List PlatformCall} (b : Begins s c m p j pre u)
      (ht : j.task = .update service a.router a.dns) (hb : ToBuild s p a j.stage chromeOs)
      (hf : Fault p (plan s.options chromeOs a.router a.dns) error)
      (haddr : a.router.localAddresses ≠ []) (hmade : MadeInVain service error made) :
      Deed s m pre
        (State.dismiss { u with service := some service } c)
        { calls := .newBuilder service :: made, result := some (.error error) }
  | attaches {m : Move} {c : Caller} {p : Platform} {j : Job} {pre : List Multiplexer.Move}
      {u : State} {service : String} {a : Applied} {chromeOs : Bool} {device : DeviceRef}
      (b : Begins s c m p j pre u) (ht : j.task = .update service a.router a.dns)
      (hb : ToBuild s p a j.stage chromeOs) (haddr : a.router.localAddresses ≠ [])
      (ho : u.multiplexer.isOver = false) : Deed s m (pre ++ [.add device])
        (State.dismiss { s with
          service := some service
          multiplexer := (u.multiplexer.add device).2
          applied := some a } c)
        { calls := building service (plan s.options chromeOs a.router a.dns) device
          result := some (.ok ()) }
  | refused {m : Move} {c : Caller} {p : Platform} {j : Job} {pre : List Multiplexer.Move}
      {u : State} {service : String} {a : Applied} {chromeOs : Bool} {device : DeviceRef}
      (b : Begins s c m p j pre u) (ht : j.task = .update service a.router a.dns)
      (hb : ToBuild s p a j.stage chromeOs) (ho : u.multiplexer.isOver = true)
      (haddr : a.router.localAddresses ≠ []) : Deed s m (pre ++ [.add device])
        (State.setStage { s with
          service := some service
          multiplexer := (u.multiplexer.add device).2 } c (.discarding device .closed))
        { calls := building service (plan s.options chromeOs a.router a.dns) device }
  /-- An update without addresses, or a close, is over. -/
  | closed {c : Caller} {p : Platform} {j : Job} {u : State} {service : Option String}
      {r : Except VpnError Unit} (b : Begins s c (.resume c p) p j [.leave c] u)
      (hs : j.stage = .emptying ∧ r = .ok () ∨ j.stage = .closing)
      (hservice : service = if j.stage = .emptying then none else s.service) :
      Deed s (.resume c p) [.leave c] (State.dismiss { u with service } c) { result := some r }
  | discarded {c : Caller} {j : Job} {device : DeviceRef} {e : TunnelError}
      (hj : s.job? c = some j) (hs : j.stage = .discarding device e) :
      Deed s (.discarded c) [] (s.dismiss c) { result := some (.error (.tunnel e)) }
  | quits {c : Caller} (hc : c ∉ s.multiplexer.callers) : Deed s (.cancel c) [] (s.dismiss c) {}
  | cancels {c : Caller} {v : Multiplexer.State} (hs : s.multiplexer.step (.cancel c) = some v) :
      Deed s (.cancel c) [.cancel c] (State.dismiss { s with multiplexer := v } c) {}
  | engine {m : Multiplexer.Move} {v : Multiplexer.State} (hs : s.multiplexer.step m = some v) :
      Deed s (.multiplexer m) [m] { s with multiplexer := v } {}

namespace State

variable {s t : State} {c : Caller} {j : Job}

/-! ## Jobs -/

theorem mem_of_job? (h : s.job? c = some j) : j ∈ s.jobs ∧ j.caller = c :=
  ⟨List.mem_of_find?_eq_some h, by simpa using List.find?_some h⟩

theorem job?_of_mem (h : Orderly s) (hj : j ∈ s.jobs) : s.job? j.caller = some j := by
  cases hf : s.job? j.caller with
  | none => simpa using List.find?_eq_none.1 hf j hj
  | some k =>
    obtain ⟨hk, hc⟩ := mem_of_job? hf
    rw [List.inj_on_of_nodup_map h.single hk hj hc]

theorem start_cases {task : Task} (hs : s.start c task = some t) :
    (c ∉ s.jobs.map (·.caller) ∧ c ∉ s.multiplexer.gone) ∧ ∃ holder line,
      (s.holder = none ∨ holder = s.holder) ∧
      t = { s with jobs := s.jobs ++ [({ caller := c, task } : Job)], holder, line } := by
  unfold start at hs
  split at hs
  · cases hs
  · rename_i hnew
    refine ⟨by simpa using hnew, ?_⟩
    simp only [] at hs
    split at hs
    · rename_i hh
      exact ⟨_, _, .inl (by simpa using hh), (Option.some.inj hs).symm⟩
    · exact ⟨_, _, .inr rfl, (Option.some.inj hs).symm⟩

theorem dismiss_eq (s : State) (c : Caller) : ∃ holder line,
    (s.holder = some c ∨ holder = s.holder) ∧
    s.dismiss c = { s with jobs := s.jobs.filter (·.caller != c), holder, line } := by
  unfold dismiss
  simp only []
  split
  · rename_i hh
    exact ⟨_, _, .inl hh, rfl⟩
  · exact ⟨_, _, .inr rfl, rfl⟩

@[simp] theorem applied_dismiss : (s.dismiss c).applied = s.applied := by
  obtain ⟨_, _, -, he⟩ := dismiss_eq s c
  rw [he]

@[simp] theorem multiplexer_dismiss : (s.dismiss c).multiplexer = s.multiplexer := by
  obtain ⟨_, _, -, he⟩ := dismiss_eq s c
  rw [he]

@[simp] theorem options_dismiss : (s.dismiss c).options = s.options := by
  obtain ⟨_, _, -, he⟩ := dismiss_eq s c
  rw [he]

theorem jobs_dismiss : (s.dismiss c).jobs = s.jobs.filter (·.caller != c) := by
  obtain ⟨_, _, -, he⟩ := dismiss_eq s c
  rw [he]

theorem mem_of_mem_dismiss (hj : j ∈ (s.dismiss c).jobs) : j ∈ s.jobs := by
  rw [jobs_dismiss] at hj
  exact (List.mem_filter.1 hj).1

/-! ## Calls -/

/-- A job that has no call on the multiplexer makes one. -/
theorem await_eq (hheld : s.multiplexer.held = true) (hc : c ∉ s.multiplexer.callers)
    (hg : c ∉ s.multiplexer.gone) (op : Operation) (stage : Stage) :
    ∃ v, s.multiplexer.step (.call c op) = some v ∧
      s.await c op stage = (State.setStage { s with multiplexer := v } c stage, {}) := by
  obtain ⟨v, hv⟩ := Multiplexer.State.exists_call hheld hc hg op
  have hcall : s.multiplexer.call c op = some v := hv
  exact ⟨v, hv, by rw [await, hcall]⟩

end State

open State

section

variable {s t u : State} {c : Caller} {j : Job} {m : Move} {p : Platform} {e : Effects}
  {ns pre : List Multiplexer.Move}

/-- A job is free to make a call when it begins, and when it goes on. -/
theorem Begins.free (b : Begins s c m p j pre u) (h : Orderly s) :
    u.multiplexer.held = true ∧ c ∉ u.multiplexer.callers ∧ c ∉ u.multiplexer.gone := by
  cases b with
  | enter hj hh hs =>
    obtain ⟨hmem, rfl⟩ := mem_of_job? hj
    exact ⟨h.held, by simp [h.calls j hmem, hs, Stage.waits], h.present j hmem⟩
  | @resume _ _ v hj hs hl =>
    obtain ⟨hmem, rfl⟩ := mem_of_job? hj
    obtain ⟨hcallers, hgone, hheld⟩ := Multiplexer.State.callers_leave hl
    exact ⟨hheld.trans h.held, by simp [hcallers], hgone ▸ h.present j hmem⟩

theorem Begins.eq (b : Begins s c m p j pre u) : u = { s with multiplexer := u.multiplexer } := by
  cases b <;> rfl

theorem Begins.jobs (b : Begins s c m p j pre u) : u.jobs = s.jobs := by
  cases b <;> rfl

theorem Begins.proceed (b : Begins s c m p j pre u) (h : Orderly s) {service : String}
    {a : Applied} {chromeOs : Bool} (ht : j.task = .update service a.router a.dns)
    (hb : ToBuild s p a j.stage chromeOs) : ∃ ns,
      Deed s m ns (u.proceed c service a.router a.dns chromeOs p).1
        (u.proceed c service a.router a.dns chromeOs p).2 := by
  obtain ⟨hheld, hc, hg⟩ := b.free h
  obtain ⟨v, hv⟩ : ∃ v, u = { s with multiplexer := v } := ⟨_, b.eq⟩
  unfold State.proceed
  split
  · rename_i hempty
    have hempty : a.router.localAddresses = [] := by simpa using hempty
    obtain ⟨w, hcall, he⟩ :=
      await_eq (s := { u with applied := none }) hheld hc hg .shutdown .emptying
    rw [he, hv]
    exact ⟨_, .asks b (ht ▸ .emptying hempty) hcall (by simp)⟩
  · rename_i haddr
    have haddr : a.router.localAddresses ≠ [] := by simpa using haddr
    rcases build_cases u c service a.router a.dns chromeOs p with
      ⟨made, error, hf, hmade, he⟩ | ⟨device, ha, -, ⟨ho, he⟩ | ⟨ho, he⟩⟩
    · rw [he]
      exact ⟨_, .fails b ht hb (by rw [hv] at hf; exact hf) haddr hmade⟩
    · rw [he]
      subst hv
      exact ⟨_, .refused b ht hb ho haddr⟩
    · rw [he]
      subst hv
      exact ⟨_, .attaches b ht hb haddr ho⟩

/-! ## Steps -/

theorem update_inj {service service' : String} {a a' : Applied}
    (h : Task.update service a.router a.dns = .update service' a'.router a'.dns) :
    service = service' ∧ a = a' := by
  obtain ⟨hservice, hrouter, hdns⟩ := Task.update.inj h
  cases a
  cases a'
  simp_all

theorem deed_of_enter (h : Orderly s) (hs : s.enter c p = some (t, e)) :
    ∃ ns, Deed s (.enter c p) ns t e := by
  obtain ⟨j, hj, hs⟩ := Option.bind_eq_some_iff.1 hs
  split at hs
  · rename_i hturn
    simp only [Bool.and_eq_true, decide_eq_true_eq] at hturn
    obtain ⟨hh, hstage⟩ := hturn
    have b : Begins s c (.enter c p) p j [] s := .enter hj hh hstage
    obtain ⟨hheld, hc, hg⟩ := b.free h
    have hasks : ∀ {op : Operation} {stage : Stage} {service : Option String},
        Asks j.task stage op → service = (if stage = .closing then none else s.service) →
        State.await { s with applied := none, service } c op stage = (t, e) →
        ∃ ns, Deed s (.enter c p) ns t e := by
      intro op stage service ha hservice he
      obtain ⟨v, hcall, he'⟩ :=
        await_eq (s := { s with applied := none, service }) hheld hc hg op stage
      obtain ⟨rfl, rfl⟩ := Prod.mk.inj (he'.symm.trans he)
      exact ⟨_, .asks b ha hcall hservice⟩
    obtain ⟨caller, task, stage⟩ := j
    obtain rfl : stage = .turn := hstage
    obtain rfl : caller = c := (mem_of_job? hj).2
    have hrun : s.run caller p task = (t, e) := Option.some.inj hs
    cases task with
    | update service router dns =>
      unfold State.run at hrun
      simp only [] at hrun
      split at hrun
      · rename_i ha
        obtain ⟨rfl, rfl⟩ := Prod.mk.inj hrun
        exact ⟨_, .unchanged (a := ⟨router, dns⟩) hj hh ha⟩
      · rename_i hne
        split at hrun
        · exact hasks .clearing (by simp) hrun
        · rename_i hseamless
          simp only [Bool.or_eq_true, Bool.not_eq_true', not_or, Bool.not_eq_false] at hseamless
          obtain ⟨hon, hos⟩ := hseamless
          have hos : p.chromeOs = false := by simpa using hos
          obtain ⟨ns, d⟩ := b.proceed h (a := ⟨router, dns⟩) rfl (.seamless hon hos hne)
          rw [← hos, hrun] at d
          exact ⟨ns, d⟩
    | closeTunnels => exact hasks .closeTunnels (by simp) hrun
    | close => exact hasks .close (by simp) hrun
  · cases hs

theorem deed_of_resume (h : Orderly s) (hs : s.resume c p = some (t, e)) :
    ∃ ns, Deed s (.resume c p) ns t e := by
  obtain ⟨j, hj, hs⟩ := Option.bind_eq_some_iff.1 hs
  obtain ⟨a, ha, hs⟩ := Option.bind_eq_some_iff.1 hs
  obtain ⟨v, hl, hs⟩ := Option.bind_eq_some_iff.1 hs
  have hleave : s.multiplexer.step (.leave c) = some v := hl
  have b : j.stage.waits = true →
      Begins s c (.resume c p) p j [.leave c] { s with multiplexer := v } :=
    fun hw => .resume hj hw hleave
  obtain ⟨caller, task, stage⟩ := j
  cases stage with
  | clearing chromeOs =>
    cases task with
    | update service router dns =>
      obtain ⟨ns, d⟩ := (b rfl).proceed h (a := ⟨router, dns⟩) rfl .cleared
      have he := Option.some.inj hs
      rw [he] at d
      exact ⟨ns, d⟩
    | closeTunnels => cases hs
    | close => cases hs
  | emptying =>
    obtain ⟨rfl, rfl⟩ := Prod.mk.inj (Option.some.inj hs)
    exact ⟨_, .closed (b rfl) (.inl ⟨rfl, rfl⟩) (by simp)⟩
  | closing =>
    obtain ⟨rfl, rfl⟩ := Prod.mk.inj (Option.some.inj hs)
    exact ⟨_, .closed (b rfl) (.inr rfl) (by simp)⟩
  | turn => cases hs
  | discarding device error => cases hs

theorem deed_of_step (h : Orderly s) (hs : s.step m = some (t, e)) : ∃ ns, Deed s m ns t e := by
  cases m with
  | start c task =>
    obtain ⟨t', ht, he⟩ := Option.map_eq_some_iff.1 hs
    obtain ⟨rfl, rfl⟩ := Prod.mk.inj he
    exact ⟨_, .starts ht⟩
  | enter c p => exact deed_of_enter h hs
  | resume c p => exact deed_of_resume h hs
  | discarded c =>
    obtain ⟨j, hj, hs⟩ := Option.bind_eq_some_iff.1 hs
    split at hs
    · rename_i device error hstage
      obtain ⟨rfl, rfl⟩ := Prod.mk.inj (Option.some.inj hs)
      exact ⟨_, .discarded hj hstage⟩
    · cases hs
  | cancel c =>
    obtain ⟨t', ht, he⟩ := Option.map_eq_some_iff.1 hs
    obtain ⟨rfl, rfl⟩ := Prod.mk.inj he
    obtain ⟨j, hj, ht⟩ := Option.bind_eq_some_iff.1 ht
    cases hv : s.multiplexer.cancel c with
    | none =>
      rw [hv] at ht
      obtain rfl := Option.some.inj ht
      refine ⟨_, .quits fun hc => ?_⟩
      obtain ⟨k, hk, rfl⟩ := List.mem_map.1 hc
      unfold Multiplexer.State.cancel at hv
      split at hv
      · rename_i hnone
        have hnone : ∀ l ∈ s.multiplexer.calls, l.caller ≠ k.caller := by simpa using hnone
        exact hnone k hk rfl
      · cases hv
    | some v =>
      rw [hv] at ht
      obtain rfl := Option.some.inj ht
      exact ⟨_, .cancels hv⟩
  | multiplexer m =>
    obtain ⟨v, hv, he⟩ := Option.map_eq_some_iff.1 hs
    obtain ⟨rfl, rfl⟩ := Prod.mk.inj he
    exact ⟨_, .engine hv⟩

/-! ## Order is kept -/

/-- A job leaves. If it held the turn, no other job was at work. -/
theorem Orderly.dismiss (h : Orderly s) {v : Multiplexer.State}
    (hv : OthersKept c s.multiplexer v) {applied : Option Applied} {service : Option String}
    (ha : applied = s.applied ∨ s.holder = some c) :
    Orderly (State.dismiss { s with applied, service, multiplexer := v } c) := by
  obtain ⟨holder, line, hholder, he⟩ :=
    dismiss_eq { s with applied, service, multiplexer := v } c
  rw [he]
  have hmem : ∀ {j}, j ∈ s.jobs.filter (·.caller != c) → j ∈ s.jobs ∧ j.caller ≠ c := fun hj =>
    ⟨(List.mem_filter.1 hj).1, by simpa using (List.mem_filter.1 hj).2⟩
  have hother : ∀ j ∈ s.jobs, j.caller ≠ c → j.stage ≠ .turn → s.holder ≠ some c := by
    intro j hj hne hs hh
    rw [h.turn j hj hs] at hh
    exact hne (Option.some.inj hh)
  constructor
  · exact hv.held.trans h.held
  · exact h.single.sublist (List.filter_sublist.map _)
  · intro j hj
    rw [hv.gone _ (hmem hj).2]
    exact h.present j (hmem hj).1
  · intro j hj
    rw [hv.callers _ (hmem hj).2]
    exact h.calls j (hmem hj).1
  · intro j hj hs
    obtain ⟨hj, hne⟩ := hmem hj
    exact (hholder.resolve_left (hother j hj hne hs)).trans (h.turn j hj hs)
  · intro j hj
    exact h.fits j (hmem hj).1
  · intro j hj hw
    obtain ⟨hj, hne⟩ := hmem hj
    have hs : j.stage ≠ .turn := fun he => by simp [he, Stage.waits] at hw
    exact (ha.resolve_right (hother j hj hne hs)).trans (h.blank j hj hw)

/-- While one job holds the turn, all others wait for theirs. -/
theorem mem_setStage (h : Orderly s) (hj : s.job? c = some j) (hh : s.holder = some c)
    {stage : Stage} {k : Job} (hk : k ∈ (s.setStage c stage).jobs) :
    (k = { j with stage } ∧ k.caller = c) ∨ (k ∈ s.jobs ∧ k.caller ≠ c ∧ k.stage = .turn) := by
  obtain ⟨l, hl, rfl⟩ := List.mem_map.1 hk
  split
  · rename_i hlc
    refine .inl ⟨?_, hlc⟩
    have hfound := job?_of_mem h hl
    rw [hlc, hj] at hfound
    rw [Option.some.inj hfound]
  · rename_i hlc
    refine .inr ⟨hl, hlc, ?_⟩
    by_contra hs
    rw [h.turn l hl hs] at hh
    exact hlc (Option.some.inj hh)

/-- The job that holds the turn comes to another stage. -/
theorem Orderly.setStage (h : Orderly s) (hj : s.job? c = some j) (hh : s.holder = some c)
    {v : Multiplexer.State} (hv : OthersKept c s.multiplexer v) {applied : Option Applied}
    {service : Option String} {stage : Stage} (hf : Fits j.task stage) (hg : c ∉ v.gone)
    (hc : c ∈ v.callers ↔ stage.waits = true) (ha : stage.waits = true → applied = none) :
    Orderly (State.setStage { s with applied, service, multiplexer := v } c stage) := by
  have hmem : ∀ {k}, k ∈ (State.setStage { s with applied, service, multiplexer := v } c stage).jobs →
      (k = { j with stage } ∧ k.caller = c) ∨
        (k ∈ s.jobs ∧ k.caller ≠ c ∧ k.stage = .turn) := mem_setStage h hj hh
  constructor
  · exact hv.held.trans h.held
  · have hsame : (State.setStage { s with applied, service, multiplexer := v } c stage).jobs.map
        (·.caller) = s.jobs.map (·.caller) := by
      simp only [State.setStage, List.map_map]
      refine List.map_congr_left fun k _ => ?_
      simp only [Function.comp]
      split <;> rfl
    rw [hsame]
    exact h.single
  · intro k hk
    rcases hmem hk with ⟨-, hkc⟩ | ⟨hk, hne, -⟩
    · rwa [hkc]
    · rw [show (State.setStage { s with applied, service, multiplexer := v } c stage).multiplexer = v
        from rfl, hv.gone _ hne]
      exact h.present k hk
  · intro k hk
    rcases hmem hk with ⟨rfl, hkc⟩ | ⟨hk, hne, -⟩
    · rwa [hkc]
    · exact (hv.callers _ hne).trans (h.calls k hk)
  · intro k hk hs
    rcases hmem hk with ⟨-, hkc⟩ | ⟨-, -, hturn⟩
    · rw [hkc]
      exact hh
    · exact absurd hturn hs
  · intro k hk
    rcases hmem hk with ⟨rfl, -⟩ | ⟨hk, -, -⟩
    · exact hf
    · exact h.fits k hk
  · intro k hk hw
    rcases hmem hk with ⟨rfl, -⟩ | ⟨-, -, hturn⟩
    · exact ha hw
    · rw [hturn] at hw
      cases hw

theorem Orderly.starts (h : Orderly s) {task : Task} (hs : s.start c task = some t)
    (hc : c ∉ s.multiplexer.callers) : Orderly t := by
  obtain ⟨⟨hnew, hg⟩, holder, line, hholder, rfl⟩ := start_cases hs
  have hmem : ∀ {k : Job}, k ∈ s.jobs ++ [({ caller := c, task } : Job)] →
      k ∈ s.jobs ∨ k = { caller := c, task } := fun hk =>
    (List.mem_append.1 hk).imp_right List.mem_singleton.1
  constructor
  · exact h.held
  · rw [List.map_append]
    refine List.nodup_append.2 ⟨h.single, List.nodup_singleton c, ?_⟩
    rintro d hd _ hd' rfl
    obtain rfl := List.mem_singleton.1 hd'
    exact hnew hd
  · intro k hk
    rcases hmem hk with hk | rfl
    · exact h.present k hk
    · exact hg
  · intro k hk
    rcases hmem hk with hk | rfl
    · exact h.calls k hk
    · simp [hc, Stage.waits]
  · intro k hk hs
    rcases hmem hk with hk | rfl
    · have hk := h.turn k hk hs
      refine (hholder.resolve_left fun hn => ?_).trans hk
      rw [hn] at hk
      cases hk
    · exact absurd rfl hs
  · intro k hk
    rcases hmem hk with hk | rfl
    · exact h.fits k hk
    · exact .turn
  · intro k hk hw
    rcases hmem hk with hk | rfl
    · exact h.blank k hk hw
    · cases hw

/-- The engine's calls and the multiplexer's own moves are nothing to the jobs. -/
theorem Orderly.engine (h : Orderly s)
    (hset : s.multiplexer.isOver = false → Settled s.multiplexer) {n : Multiplexer.Move}
    {v : Multiplexer.State} (hs : s.multiplexer.step n = some v)
    (ha : s.allows (.multiplexer n) = true) : Orderly { s with multiplexer := v } := by
  have hrelease : n ≠ .release := fun he => by
    rw [he] at ha
    cases ha
  have hcaller : ∀ j ∈ s.jobs, n.caller? ≠ some j.caller := by
    intro j hj he
    have hout : ∀ d, (!(s.jobs.map (·.caller)).contains d) = true → d ≠ j.caller := by
      rintro d hd rfl
      have hlisted : j.caller ∈ s.jobs.map (·.caller) := List.mem_map_of_mem hj
      simp only [Bool.not_eq_true', List.contains_eq_mem, decide_eq_false_iff_not] at hd
      exact hd hlisted
    cases n with
    | call d op => exact hout d ha (Option.some.inj he)
    | leave d => exact hout d ha (Option.some.inj he)
    | cancel d => exact hout d ha (Option.some.inj he)
    | _ => cases he
  exact {
    held := (Multiplexer.State.held_of_step hset hs hrelease).trans h.held
    single := h.single
    present := fun j hj hg =>
      h.present j hj ((Multiplexer.State.callers_of_step hset hs (hcaller j hj)).2.1 hg)
    calls := fun j hj =>
      (Multiplexer.State.callers_of_step hset hs (hcaller j hj)).1.trans (h.calls j hj)
    turn := h.turn
    fits := h.fits
    blank := h.blank }

theorem Begins.job (b : Begins s c m p j pre u) : s.job? c = some j := by
  cases b with
  | enter hj hh hs => exact hj
  | resume hj hs hl => exact hj

theorem Begins.holder (b : Begins s c m p j pre u) (h : Orderly s) : s.holder = some c := by
  cases b with
  | enter hj hh hs => exact hh
  | resume hj hs hl =>
    obtain ⟨hmem, rfl⟩ := mem_of_job? hj
    exact h.turn j hmem fun he => by simp [he, Stage.waits] at hs

theorem Begins.others (b : Begins s c m p j pre u) : OthersKept c s.multiplexer u.multiplexer := by
  cases b with
  | enter hj hh hs => exact .refl
  | resume hj hs hl => exact .leave hl

theorem Begins.run (b : Begins s c m p j pre u) :
    Multiplexer.Run s.multiplexer pre u.multiplexer := by
  cases b with
  | enter hj hh hs => exact .nil _
  | resume hj hs hl => exact .cons hl (.nil _)

theorem Asks.waits {task : Task} {stage : Stage} {op : Operation} (h : Asks task stage op) :
    stage.waits = true := by
  cases h <;> rfl

theorem Orderly.of_deed (h : Orderly s)
    (hset : s.multiplexer.isOver = false → Settled s.multiplexer) (ha : s.allows m = true)
    (d : Deed s m ns t e) : Orderly t := by
  cases d with
  | starts hs => exact h.starts hs (by simpa [allows] using ha)
  | unchanged hj hh ha' => exact h.dismiss .refl (.inl rfl)
  | asks b hasks hs =>
    obtain ⟨hc, hg, -⟩ := Multiplexer.State.callers_call hs
    refine h.setStage b.job (b.holder h) (b.others.trans (.call hs)) (.waits hasks) ?_ ?_
      fun _ => rfl
    · rw [hg]
      exact (b.free h).2.2
    · simp [hc, hasks.waits]
  | @fails _ c p j pre u service a chromeOs error made b ht hb hf =>
    rw [b.eq]
    exact h.dismiss b.others (.inl rfl)
  | attaches b ht hb haddr ho => exact h.dismiss (b.others.trans (.add _)) (.inr (b.holder h))
  | @refused _ c p j pre u service a chromeOs device b ht hb ho haddr =>
    obtain ⟨-, hc, hg⟩ := b.free h
    obtain ⟨hcallers, hgone, -⟩ := Multiplexer.State.callers_add (s := u.multiplexer) device
    refine h.setStage b.job (b.holder h) (b.others.trans (.add device)) (.discarding ht haddr) ?_ ?_ nofun
    · rwa [hgone]
    · rw [hcallers]
      simpa [Stage.waits] using hc
  | @closed c p j u service r b hs =>
    rw [b.eq]
    exact h.dismiss b.others (.inl rfl)
  | discarded hj hs => exact h.dismiss .refl (.inl rfl)
  | quits hc => exact h.dismiss .refl (.inl rfl)
  | cancels hs => exact h.dismiss (.cancel hs) (.inl rfl)
  | engine hs => exact h.engine hset hs ha

/-- What a move makes of the multiplexer. -/
theorem Deed.run (d : Deed s m ns t e) (h : Orderly s) :
    Multiplexer.Run s.multiplexer ns t.multiplexer := by
  have hadd : ∀ {u : Multiplexer.State} (device : DeviceRef), u.held = true →
      Multiplexer.Run u [.add device] (u.add device).2 := fun device hheld =>
    .cons (by simp [Multiplexer.State.step, hheld]) (.nil _)
  cases d with
  | starts hs =>
    obtain ⟨-, _, _, -, rfl⟩ := start_cases hs
    exact .nil _
  | unchanged hj hh ha => simpa using .nil _
  | asks b ha hs => exact b.run.append (.cons hs (.nil _))
  | fails b ht hb hf => simpa using b.run
  | attaches b ht hb haddr ho => simpa using b.run.append (hadd _ (b.free h).1)
  | refused b ht hb ho => exact b.run.append (hadd _ (b.free h).1)
  | closed b hs => simpa using b.run
  | discarded hj hs => simpa using .nil _
  | quits hc => simpa using .nil _
  | cancels hs => simpa using .cons hs (.nil _)
  | engine hs => exact .cons hs (.nil _)

end

end SeamlessTunnel.Manager
