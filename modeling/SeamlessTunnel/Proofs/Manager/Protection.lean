import SeamlessTunnel.Proofs.Manager.Leaks
/-
  SeamlessTunnel.Proofs.Manager.Protection — which service keeps sockets off the tunnel.

  Between updates a socket goes to the service whose builder established the newest tunnel,
  and to none when no tunnel is attached. This is so unless the last service that was asked
  for a tunnel has not brought one about; then sockets go to that service
  (`protected_of_run`).

  The service is replaced before it is known whether its tunnel comes about. So after an
  update that fails sockets go to a service that has issued no tunnel, while that of another
  is attached or none at all (`asked_after_failure`).
-/

namespace SeamlessTunnel.Manager

open Multiplexer (Caller DeviceRef Operation)
open Multiplexer.State (Newest)
open State

/-- What becomes of the tunnel that is in use. -/
inductive Issue where
  /-- A tunnel that a service has issued is attached. -/
  | attached (service : String) (k : DeviceId × DeviceRef)
  /-- A service was asked for a tunnel, and none is attached. -/
  | failed (service : String)
  /-- All tunnels are closed. -/
  | emptied

/-- What a move makes of the tunnel that is in use. -/
def State.issues (s : State) (m : Move) (t : State) (e : Effects) : List Issue :=
  match e.calls, e.result with
  | .newBuilder service :: _, some (.ok ()) => (establishedDevices s m t e).map (.attached service)
  | .newBuilder service :: _, _ => [.failed service]
  | _, _ => if (m.caller?.bind s.job?).any (·.task.empties) then [.emptied] else []

/-- What became of the tunnel last. -/
def State.lastIssue (s₀ : State) (ms : List Move) : Option Issue :=
  (s₀.log issues ms).getLast?

/-- The device was established by a builder of the service. -/
def IssuedBy (s₀ : State) (ms : List Move) (service : String) (k : DeviceId × DeviceRef) : Prop :=
  ∃ ms₁ m ms₂ u v e, ms = ms₁ ++ m :: ms₂ ∧ Run s₀ ms₁ u ∧ u.step m = some (v, e) ∧
    .newBuilder service ∈ e.calls ∧ k ∈ establishedDevices u m v e

/-- How the service that is asked and the tunnel that is in use belong together. -/
structure Protecting (last : Option Issue) (s : State) : Prop where
  issued : ∀ id device, Newest id device s.multiplexer →
    (∃ service, last = some (.failed service)) ∨
    ∃ service, last = some (.attached service (id, device)) ∧ s.service = some service
  served : s.service ≠ none → (∃ service, last = some (.failed service)) ∨ s.applied ≠ none ∨
    ∃ j ∈ s.jobs, j.stage.waits = true ∧ j.stage ≠ .closing
  failed : ∀ service, last = some (.failed service) → s.service = some service
  closing : ∀ j ∈ s.jobs, j.stage = .closing → s.service = none

section

variable {s₀ s t u : State} {m : Move} {e : Effects} {ms : List Move} {c : Caller}
  {mux : List Multiplexer.Move} {service : String} {options : Options} {last : Option Issue}
  {k : DeviceId × DeviceRef} {j : Job}

/-! ## Issues -/

theorem issues_attached {calls : List BuilderCall} {device : DeviceRef}
    (hc : e.calls = building service calls device) (hr : e.result = some (.ok ())) :
    s.issues m t e = [.attached service (s.multiplexer.nextId, device)] := by
  have hestablished := establishedDevices_building (s := s) (m := m) (t := t) hc
  rw [issues, hr, hestablished, hc]
  rfl

theorem issues_failed {made : List PlatformCall} (hc : e.calls = .newBuilder service :: made)
    (hr : e.result ≠ some (.ok ())) : s.issues m t e = [.failed service] := by
  rw [issues, hc]
  cases hresult : e.result with
  | none => rfl
  | some r =>
    cases r with
    | error error => rfl
    | ok => exact absurd hresult hr

theorem issues_emptied (hc : e.calls = []) (hm : m.caller? = some c) (hj : s.job? c = some j)
    (he : j.task.empties = true) : s.issues m t e = [.emptied] := by
  simp [issues, hc, hm, hj, he]

theorem issues_eq_nil (hc : e.calls = []) (hm : ∀ c j, m.caller? = some c → s.job? c = some j →
    j.task.empties = false) : s.issues m t e = [] := by
  rw [issues, hc]
  refine if_neg ?_
  cases hj : m.caller?.bind s.job? with
  | none => simp
  | some j =>
    obtain ⟨c, hmc, hj⟩ := Option.bind_eq_some_iff.1 hj
    simp [hm c j hmc hj]

/-- Without a call on the platform no service is asked for a tunnel. -/
theorem issues_of_silent (hc : e.calls = []) : s.issues m t e = [] ∨ s.issues m t e = [.emptied] := by
  unfold issues
  rw [hc]
  dsimp only
  split
  · exact .inr rfl
  · exact .inl rfl

theorem Run.lastIssue_snoc (h : Run s₀ ms s) (hs : s.step m = some (t, e)) :
    s₀.lastIssue (ms ++ [m]) = (s.issues m t e).getLast?.or (s₀.lastIssue ms) := by
  rw [lastIssue, h.log_snoc hs, List.getLast?_append]
  rfl

theorem issuedBy_of_mem (h : Run s₀ ms s) (hk : .attached service k ∈ s₀.log issues ms) :
    IssuedBy s₀ ms service k := by
  obtain ⟨ms₁, m, ms₂, u, v, e, hms, hu, hs, hk⟩ := h.mem_log hk
  refine ⟨ms₁, m, ms₂, u, v, e, hms, hu, hs, ?_⟩
  unfold issues at hk
  split at hk
  · rename_i hc hr
    obtain ⟨k', hk', he⟩ := List.mem_map.1 hk
    obtain ⟨rfl, rfl⟩ := Issue.attached.inj he
    exact ⟨by rw [hc]; exact List.mem_cons_self .., hk'⟩
  · simp at hk
  · split at hk <;> simp at hk

/-! ## What moves do -/

theorem Asks.update {task : Task} {stage : Stage} {op : Operation} (h : Asks task stage op)
    (hs : stage ≠ .closing) : ∃ service router dns, task = .update service router dns := by
  cases h with
  | clearing => exact ⟨_, _, _, rfl⟩
  | emptying hempty => exact ⟨_, _, _, rfl⟩
  | closeTunnels => exact absurd rfl hs
  | close => exact absurd rfl hs

/-- A task that waits for anything but room for its own tunnel closes all tunnels. -/
theorem Asks.empties {task : Task} {stage : Stage} {op : Operation} (h : Asks task stage op)
    (hs : ∀ chromeOs, stage ≠ .clearing chromeOs) : task.empties = true := by
  cases h with
  | clearing => exact absurd rfl (hs _)
  | emptying hempty => simp [Task.empties, hempty]
  | closeTunnels => rfl
  | close => rfl

@[simp] theorem service_dismiss : (s.dismiss c).service = s.service := by
  obtain ⟨_, _, -, he⟩ := dismiss_eq s c
  rw [he]

/-- While a job has the turn, no other is at work. -/
theorem turn_of_dismiss (h : Orderly s) (hh : s.holder = some c) (hu : u.jobs = s.jobs) :
    ∀ j ∈ (u.dismiss c).jobs, j.stage ≠ .closing := by
  intro j hj hs
  rw [jobs_dismiss, hu] at hj
  obtain ⟨hj, hne⟩ := List.mem_filter.1 hj
  rw [h.turn j hj (by simp [hs])] at hh
  simp [Option.some.inj hh] at hne

/-- A job that waits for an answer stays when another ends. -/
theorem mem_dismiss_of_waits (h : Orderly s) (hj : s.job? c = some j)
    (hstage : j.stage.waits = false) {l : Job} (hl : l ∈ s.jobs) (hw : l.stage.waits = true) :
    l ∈ (s.dismiss c).jobs := by
  rw [jobs_dismiss]
  refine List.mem_filter.2 ⟨hl, bne_iff_ne.2 ?_⟩
  rintro rfl
  rw [← Option.some.inj (hj.symm.trans (job?_of_mem h hl)), hstage] at hw
  cases hw

/-- While a job waits for an answer, no device is the newest. -/
theorem not_newest_of_waits (hstart : Manager.start options = .ok s₀) (h : Run s₀ ms s)
    (hj : j ∈ s.jobs) (hw : j.stage.waits = true) {id : DeviceId} {device : DeviceRef} :
    ¬ Newest id device s.multiplexer := by
  obtain ⟨op, -, hv⟩ := vacating_of_run hstart h j hj hw
  exact hv.not_newest

theorem Protecting.of_failed (hs : s.service = some service)
    (hc : ∀ j ∈ s.jobs, j.stage ≠ .closing) : Protecting (some (.failed service)) s where
  issued _ _ _ := .inl ⟨service, rfl⟩
  served _ := .inl ⟨service, rfl⟩
  failed _ he := hs.trans (congrArg some (Issue.failed.inj (Option.some.inj he)))
  closing j hj hstage := absurd hstage (hc j hj)

theorem Protecting.of_emptied (hs : s.service = none)
    (hn : ∀ id device, ¬ Newest id device s.multiplexer) : Protecting (some .emptied) s where
  issued id device n := absurd n (hn id device)
  served hservice := absurd hs hservice
  failed _ he := nomatch he
  closing _ _ _ := hs

/-- What belongs together stays so while nothing is done about the tunnel. -/
theorem Protecting.kept (k : Protecting last s)
    (hn : ∀ id device, Newest id device t.multiplexer → Newest id device s.multiplexer)
    (hservice : t.service = s.service) (happlied : t.applied = s.applied)
    (hwaits : ∀ j ∈ s.jobs, j.stage.waits = true → j ∈ t.jobs)
    (hclosing : ∀ j ∈ t.jobs, j.stage = .closing → j ∈ s.jobs) : Protecting last t where
  issued id device n := by
    rw [hservice]
    exact k.issued id device (hn id device n)
  served hs := by
    rw [hservice] at hs
    rw [happlied]
    refine (k.served hs).imp_right (.imp_right ?_)
    rintro ⟨j, hj, hw, hstage⟩
    exact ⟨j, hwaits j hj hw, hw, hstage⟩
  failed service he := hservice.trans (k.failed service he)
  closing j hj hstage := hservice.trans (k.closing j (hclosing j hj hstage) hstage)

/-- A job that ends without waiting leaves what belongs together. -/
theorem Protecting.dismissed (k : Protecting last s) (h : Orderly s) (hj : s.job? c = some j)
    (hstage : j.stage.waits = false) : Protecting last (s.dismiss c) :=
  k.kept (by simp) service_dismiss applied_dismiss
    (fun _ hl hw => mem_dismiss_of_waits h hj hstage hl hw) fun _ hl _ => mem_of_mem_dismiss hl

theorem Protecting.starts {task : Task} (k : Protecting last s) (hs : s.start c task = some t) :
    Protecting last t := by
  obtain ⟨-, _, _, -, rfl⟩ := start_cases hs
  refine k.kept (fun _ _ n => n) rfl rfl (fun j hj _ => List.mem_append_left _ hj) fun j hj hc => ?_
  refine (List.mem_append.1 hj).resolve_right fun hj => ?_
  rw [List.mem_singleton.1 hj] at hc
  cases hc

/-- Where one job comes to another stage, no other is closing tunnels. -/
theorem not_closing_of_setStage {p : Platform} {stage : Stage} (h : Orderly s)
    (b : Begins s c m p j mux u) (hstage : stage ≠ .closing) :
    ∀ l ∈ (s.setStage c stage).jobs, l.stage ≠ .closing := by
  intro l hl hc
  rcases mem_setStage h b.job (b.holder h) hl with ⟨rfl, -⟩ | ⟨-, -, hturn⟩
  · exact hstage hc
  · rw [hturn] at hc
    cases hc

/-- A job goes on to wait. Nothing becomes of the tunnel before it has its answer, unless it
    is to close all tunnels. -/
theorem Protecting.asks {p : Platform} {op : Operation} {v : Multiplexer.State} {stage : Stage}
    {next : Option String} (k : Protecting last s) (h : Orderly s) (b : Begins s c m p j mux u)
    (ha : Asks j.task stage op) (hservice : next = if stage = .closing then none else s.service)
    (hn : ∀ id device, ¬ Newest id device v)
    (ht : t = State.setStage { s with applied := none, service := next, multiplexer := v } c stage) :
    Protecting ((s.issues m t {}).getLast?.or last) t := by
  subst ht
  obtain ⟨hmem, hjc⟩ := mem_of_job? b.job
  by_cases hstage : stage = .closing
  · rw [issues_emptied rfl b.caller b.job (ha.empties (by simp [hstage]))]
    exact .of_emptied (by rw [if_pos hstage] at hservice; exact hservice) hn
  · rw [if_neg hstage] at hservice
    refine ⟨fun id device n => absurd n (hn id device), fun _ => .inr (.inr ⟨{ j with stage },
      List.mem_map.2 ⟨j, hmem, if_pos hjc⟩, ha.waits, hstage⟩), fun service hlast => ?_,
      fun l hl hc => absurd hc (not_closing_of_setStage h b hstage l hl)⟩
    refine hservice.trans (k.failed service ?_)
    rcases issues_of_silent (s := s) (m := m) (e := {}) rfl with he | he <;> rw [he] at hlast
    · exact hlast
    · cases hlast

/-- A tunnel is attached. -/
theorem Protecting.attaches {id : DeviceId} {device : DeviceRef}
    (hn : ∀ id' device', Newest id' device' s.multiplexer → id' = id ∧ device' = device)
    (hs : s.service = some service) (ha : s.applied ≠ none)
    (hc : ∀ j ∈ s.jobs, j.stage ≠ .closing) :
    Protecting (some (.attached service (id, device))) s where
  issued id' device' n := by
    obtain ⟨rfl, rfl⟩ := hn id' device' n
    exact .inr ⟨service, rfl, hs⟩
  served _ := .inr (.inl ha)
  failed _ he := nomatch he
  closing j hj hstage := absurd hstage (hc j hj)

/-- A job ends for which all tunnels were closed. -/
theorem Protecting.closed {p : Platform} {next : Option String} {r : Except VpnError Unit}
    (k : Protecting last s) (b : Begins s c (.resume c p) p j mux u)
    (hstage : j.stage = .emptying ∧ r = .ok () ∨ j.stage = .closing)
    (hservice : next = if j.stage = .emptying then none else s.service)
    (hn : ∀ id device, ¬ Newest id device u.multiplexer) :
    Protecting (some .emptied) (State.dismiss { u with service := next } c) := by
  refine .of_emptied (service_dismiss.trans ?_) fun id device n => ?_
  · rcases hstage with ⟨hstage, -⟩ | hstage
    · simpa [hstage] using hservice
    · rw [hservice, hstage]
      exact k.closing j (mem_of_job? b.job).1 hstage
  · rw [multiplexer_dismiss] at n
    exact hn id device n

/-- A configuration that is recorded has addresses. -/
theorem empties_of_unchanged {a : Applied} (hstart : Manager.start options = .ok s₀)
    (h : Run s₀ ms s) (ha : s.applied = some a) :
    (Task.update service a.router a.dns).empties = false := by
  obtain ⟨_, _, _, _, _, _, _, _, -, -, -, -, hatt, -⟩ := attached_of_run hstart h ha
  simpa [Task.empties] using hatt.addresses

theorem empties_of_discarding {device : DeviceRef} {error : TunnelError} (h : Orderly s)
    (hj : j ∈ s.jobs) (hs : j.stage = .discarding device error) : j.task.empties = false := by
  have hfits := h.fits j hj
  rw [hs] at hfits
  cases hfits with
  | discarding ht haddr => simpa [ht, Task.empties] using haddr
  | waits hasks => cases hasks.waits

theorem Protecting.step (k : Protecting (s₀.lastIssue ms) s)
    (hstart : Manager.start options = .ok s₀) (h : Run s₀ ms s) (ha : s.allows m = true)
    (hs : s.step m = some (t, e)) (hm : ∀ c, m ≠ .cancel c) :
    Protecting (s₀.lastIssue (ms ++ [m])) t := by
  have hafter : Run s₀ (ms ++ [m]) t := .snoc h ha hs
  obtain ⟨hord, -, ⟨mux, d⟩, _, hbegin⟩ := deed_of_run hstart h ha hs
  rw [h.lastIssue_snoc hs]
  cases d with
  | starts hstarts =>
    rw [issues_eq_nil rfl fun _ _ hc => by cases hc]
    exact k.starts hstarts
  | @unchanged c p service a hj hh ha' =>
    rw [issues_eq_nil rfl fun c' j hc hj' => ?_]
    · exact k.dismissed hord hj rfl
    · obtain rfl := Option.some.inj hc
      obtain rfl := Option.some.inj (hj.symm.trans hj')
      exact empties_of_unchanged hstart h ha'
  | @asks _ c p j pre u op v stage service b hasks hcall hservice =>
    obtain ⟨hmem, hjc⟩ := mem_of_job? b.job
    have hjob : { j with stage } ∈ (s.setStage c stage).jobs :=
      List.mem_map.2 ⟨j, hmem, if_pos hjc⟩
    exact k.asks hord b hasks hservice
      (fun _ _ => not_newest_of_waits hstart hafter hjob hasks.waits) rfl
  | fails b ht hb hf haddr hmade =>
    rw [issues_failed rfl (by simp)]
    exact .of_failed service_dismiss (turn_of_dismiss hord (b.holder hord) b.jobs)
  | attaches b ht hb haddr ho =>
    rw [issues_attached rfl rfl]
    refine .attaches (fun id device n => ?_) service_dismiss (by simp)
      (turn_of_dismiss hord (b.holder hord) rfl)
    rw [multiplexer_dismiss] at n
    obtain ⟨_, _, hu⟩ := b.multiplexer
    obtain ⟨rfl, rfl⟩ := n.of_add
    rw [hu]
    exact ⟨rfl, rfl⟩
  | refused b ht hb ho haddr =>
    rw [issues_failed rfl (by simp)]
    exact .of_failed rfl fun l hl => not_closing_of_setStage hord b (by simp) l hl
  | @closed c p j u service r b hstage hservice =>
    obtain ⟨hmem, -⟩ := mem_of_job? b.job
    have hw : j.stage.waits = true := by
      rcases hstage with ⟨hstage, -⟩ | hstage <;> rw [hstage] <;> rfl
    have hempties : j.task.empties = true := by
      obtain ⟨op, hasks, -⟩ := vacating_of_run hstart h j hmem hw
      refine hasks.empties fun chromeOs hc => ?_
      rcases hstage with ⟨hstage, -⟩ | hstage <;> cases hstage.symm.trans hc
    rw [issues_emptied rfl b.caller b.job hempties]
    exact k.closed b hstage hservice fun id device n =>
      absurd (n.before_moves hbegin b.run (b.free hord).1 b.no_add)
        (not_newest_of_waits hstart h hmem hw)
  | @discarded c j device error hj hstage =>
    rw [issues_eq_nil rfl fun c j' hc hj' => ?_]
    · exact k.dismissed hord hj (by rw [hstage]; rfl)
    · obtain rfl := Option.some.inj hc
      obtain rfl := Option.some.inj (hj.symm.trans hj')
      exact empties_of_discarding hord (mem_of_job? hj).1 hstage
  | quits hc => exact absurd rfl (hm _)
  | cancels hc => exact absurd rfl (hm _)
  | @engine n v hn =>
    rw [issues_eq_nil rfl fun _ _ hc => by cases hc]
    refine k.kept (fun id device n' => n'.before hbegin hord.held ?_ hn) rfl rfl
      (fun j hj _ => hj) fun j hj _ => hj
    rintro device rfl
    cases ha

/-! ## Over a run -/

theorem protecting_of_run (hstart : Manager.start options = .ok s₀) (h : Run s₀ ms s)
    (hm : ∀ c, .cancel c ∉ ms) : Protecting (s₀.lastIssue ms) s := by
  induction h with
  | nil =>
    have hinit := multiplexer_start hstart
    obtain ⟨-, he⟩ := start_eq hstart
    rw [hinit] at he
    rw [he]
    exact ⟨fun id device n => absurd n Multiplexer.State.not_newest_init,
      fun hn => absurd rfl hn, nofun, nofun⟩
  | @snoc ms s t m e h ha hs ih =>
    refine (ih fun c hc => hm c (List.mem_append_left _ hc)).step hstart h ha hs fun c he => hm c ?_
    exact List.mem_append_right _ (he ▸ List.mem_singleton_self _)

/-- Between updates a socket goes to the service that has issued the newest tunnel, and to
    none if there is no tunnel, unless the last service that was asked for a tunnel has not
    brought one about. Then it goes to that service. -/
theorem protected_of_run (hstart : Manager.start options = .ok s₀) (h : Run s₀ ms s)
    (hu : Undisturbed ms) (hrest : ∀ j ∈ s.jobs, ∀ service router dns,
      j.task = .update service router dns → j.stage = .turn)
    (protects : String → Int → Bool) (fd : Int) :
    (∃ service, s₀.lastIssue ms = some (.failed service) ∧
      s.protect protects fd = (some service, protects service fd)) ∨
    (∀ id device, Newest id device s.multiplexer → ∃ service, IssuedBy s₀ ms service (id, device) ∧
      s.protect protects fd = (some service, protects service fd)) ∧
    ((∀ id device, ¬ Newest id device s.multiplexer) → s.multiplexer.coordinator ≠ .crashed →
      s.protect protects fd = (none, false)) := by
  have hp := protecting_of_run hstart h hu.uncancelled
  by_cases hlast : ∃ service, s₀.lastIssue ms = some (.failed service)
  · obtain ⟨service, hlast⟩ := hlast
    exact .inl ⟨service, hlast, by simp [protect, hp.failed service hlast]⟩
  refine .inr ⟨fun id device n => ?_, fun hnone hc => ?_⟩
  · obtain ⟨service, hissue, hservice⟩ := (hp.issued id device n).resolve_left hlast
    exact ⟨service, issuedBy_of_mem h (List.mem_of_getLast? hissue), by simp [protect, hservice]⟩
  · have hservice : s.service = none := by
      by_contra hn
      rcases (hp.served hn).resolve_left hlast with happlied | ⟨j, hj, hw, hstage⟩
      · obtain ⟨a, ha⟩ := Option.ne_none_iff_exists'.1 happlied
        obtain ⟨ms₁, m, ms₂, u, v, e, id, device, rfl, hu₁, hs, -, hatt, hkept⟩ :=
          attached_of_run hstart h ha
        obtain ⟨_, d⟩ := deed_of_step (orderly_of_run hstart hu₁).1 hs
        obtain ⟨_, _, _, _, _, b, -⟩ := hatt.inv d
        have hafter : Undisturbed ([m] ++ ms₂) := hu.after
        rcases hkept (b.not_closingSoon hstart hu₁ hu.before) hafter.after.engine with hcrashed | n
        · exact hc hcrashed
        · exact hnone id device n
      · -- it would be an update at work
        obtain ⟨op, hasks, -⟩ := vacating_of_run hstart h j hj hw
        obtain ⟨service, router, dns, ht⟩ := hasks.update hstage
        rw [hrest j hj service router dns ht] at hw
        cases hw
    simp [protect, hservice]

end

/-- After the first update a socket goes to its service. -/
theorem protected_updated : Manager.start {} = .ok fresh ∧ Undisturbed firstMoves ∧
    updated.jobs = [] ∧ Newest ⟨1⟩ 0 updated.multiplexer ∧
    ∃ service, IssuedBy fresh firstMoves service (⟨1⟩, 0) ∧
      updated.protect (fun _ _ => true) 7 = (some service, true) := by
  have hu : Undisturbed firstMoves := ⟨by simp [firstMoves], by simp [ClosedByEngine, firstMoves]⟩
  have hagenda : updated.multiplexer.agenda = [] ++ .add ⟨1⟩ 0 :: [] := rfl
  have n : Newest ⟨1⟩ 0 updated.multiplexer :=
    .coming rfl hagenda (fun _ hmem => by cases hmem) fun _ hmem => by cases hmem
  have hlast : fresh.lastIssue firstMoves = some (.attached "vpn" (⟨1⟩, 0)) :=
    (run_begun.lastIssue_snoc step_updated).trans (by rw [issues_attached rfl rfl]; rfl)
  have hrest : updated.jobs = [] := rfl
  refine ⟨start_fresh, hu, hrest, n, ?_⟩
  rcases protected_of_run start_fresh run_updated hu (by simp [hrest]) (fun _ _ => true) 7 with
    ⟨service, hfailed, -⟩ | ⟨hnewest, -⟩
  · cases hlast.symm.trans hfailed
  · exact hnewest ⟨1⟩ 0 n

/-! ## A service that has issued no tunnel -/

/-- An update of another service than that of the first tunnel. -/
def rivalUpdate : Task :=
  .update "rival" otherAddress none

/-- The first tunnel is taken in, and the update of the other service has its turn. -/
def rivalBegun : State :=
  { replacing with jobs := [{ caller := 1, task := rivalUpdate }] }

/-- An update of the other service fails, and sockets go to that service while the first tunnel
    is still attached. If the first update fails, they go to its service without a tunnel. -/
theorem asked_after_failure :
    (∃ t e, Run fresh (firstMoves ++ [.multiplexer .control, .start 1 rivalUpdate]) rivalBegun ∧
      rivalBegun.step (.enter 1 (refusing false)) = some (t, e) ∧ t.jobs = [] ∧
      IssuedBy fresh firstMoves "vpn" (⟨1⟩, 0) ∧ Newest ⟨1⟩ 0 t.multiplexer ∧
      ∀ protects fd, t.protect protects fd = (some "rival", protects "rival" fd)) ∧
    (∃ t e, Run fresh [.start 0 firstUpdate] begun ∧
      begun.step (.enter 0 (refusing false)) = some (t, e) ∧ t.jobs = [] ∧
      t.multiplexer = .init {} ∧
      ∀ protects fd, t.protect protects fd = (some "vpn", protects "vpn" fd)) := by
  constructor
  · have hobstructs : (refusing false).Obstructs (plan rivalBegun.options false otherAddress none) :=
      .inr nofun
    obtain ⟨made, error, -, hb⟩ := build_of_obstructs hobstructs 1 "rival"
    refine ⟨_, _, run_updated.append (.of_play rfl), congrArg some hb, rfl, ?_, ?_, fun _ _ => rfl⟩
    · exact ⟨[.start 0 firstUpdate], .enter 0 (granting 0), [], begun, updated, _, rfl, run_begun,
        step_updated, List.mem_cons_self .., by rw [establishedDevices_building rfl]; simp; rfl⟩
    · exact .here rfl rfl rfl rfl rfl rfl nofun
  · have hobstructs : (refusing false).Obstructs (plan begun.options false oneAddress none) :=
      .inr nofun
    obtain ⟨made, error, -, hb⟩ := build_of_obstructs hobstructs 0 "vpn"
    exact ⟨_, _, run_begun, congrArg some hb, rfl, rfl, fun _ _ => rfl⟩

end SeamlessTunnel.Manager
