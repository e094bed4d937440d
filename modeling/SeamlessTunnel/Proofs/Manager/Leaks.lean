import SeamlessTunnel.Proofs.Manager.Ledger
/-
  SeamlessTunnel.Proofs.Manager.Leaks — no tunnel that was established is left open.

  Unless the coordinator has crashed, the close of each tunnel has been started once when a
  job that closes all tunnels returns, and, where all is done that can be done, after a newer
  tunnel has been attached. A tunnel that the multiplexer refuses is closed by the update
  that built it, and the tunnel that was attached last is not closed before something takes
  its place (`noneLeaks_of_run`).

  A close that crashes the coordinator leaves the next tunnel open for good
  (`tunnel_left_open`).
-/

namespace SeamlessTunnel.Manager

open Multiplexer (Caller DeviceRef Operation)
open Multiplexer.State (takenDevices Newest Standing)
open State

/-- Whether a task is for closing all tunnels. -/
def Task.empties : Task → Bool
  | .update _ router _ => router.localAddresses.isEmpty
  | .closeTunnels | .close => true

/-- The caller whose job a move carries on. -/
def Move.caller? : Move → Option Caller
  | .enter c _ | .resume c _ | .discarded c => some c
  | .start _ _ | .cancel _ | .multiplexer _ => none

/-- A job returns. -/
def Returns (s : State) (j : Job) (r : Except VpnError Unit) : Prop :=
  ∃ m t e, s.step m = some (t, e) ∧ m.caller? = some j.caller ∧ s.job? j.caller = some j ∧
    e.result = some r

/-- A move by which the newest tunnel loses its place: a job begins that closes all tunnels,
    or an update that closes the old ones first, or a newer tunnel is attached. -/
inductive Supplants (s t : State) (e : Effects) : Move → Prop
  | empties {c : Caller} {p : Platform} {j : Job} (hj : s.job? c = some j)
      (h : j.task.empties = true) : Supplants s t e (.enter c p)
  | clears {c : Caller} {p : Platform} {j : Job} (hj : s.job? c = some j) (h : ¬ Seamless s p) :
      Supplants s t e (.enter c p)
  | attaches {m : Move} {a : Applied} {id : DeviceId} {device : DeviceRef}
      (h : Attaches s t e a id device) : Supplants s t e m

/-- Whether the manager's jobs run to their end, and nobody else closes devices. -/
structure Undisturbed (ms : List Move) : Prop where
  uncancelled : ∀ c, .cancel c ∉ ms
  engine : ¬ ClosedByEngine ms

/-- The tunnel was established in the job of a caller, and refused, and its close started. -/
def RefusedTo (s₀ : State) (ms : List Move) (c : Caller) (k : DeviceId × DeviceRef) : Prop :=
  ∃ ms₁ m ms₂ u v e, ms = ms₁ ++ m :: ms₂ ∧ Run s₀ ms₁ u ∧ u.step m = some (v, e) ∧
    m.caller? = some c ∧ (∀ task, .start c task ∉ ms₂) ∧ establishedDevices u m v e = [k] ∧
    refusedDevices u m v e = [k]

/-- What becomes of the tunnels that are established in a run. -/
structure NoneLeaks (s₀ : State) (ms : List Move) (s : State) : Prop where
  /-- No tunnel is closed twice, and nothing else is closed. -/
  once : ((s₀.log startedCloses ms).map (·.1)).Nodup ∧
    s₀.log startedCloses ms ⊆ s₀.log establishedDevices ms
  /-- When a job that is for closing all tunnels returns, all that were established have been
      closed. -/
  emptied : ∀ j r, Returns s j r → j.task.empties = true → s.multiplexer.coordinator ≠ .crashed →
    ∀ k ∈ s₀.log establishedDevices ms, (s₀.log startedCloses ms).count k = 1
  /-- When an update returns that the multiplexer has refused the tunnel, that tunnel has been
      closed. -/
  refused : ∀ j r service router dns error, Returns s j r → j.task = .update service router dns →
    r = .error (.tunnel error) →
    ∃ k, RefusedTo s₀ ms j.caller k ∧ (s₀.log startedCloses ms).count k = 1
  /-- Where all is done that can be done, all tunnels have been closed that came before one
      that was attached. -/
  superseded : ∀ ms₁ m ms₂ u v e a id device, ms = ms₁ ++ m :: ms₂ → Run s₀ ms₁ u →
    u.step m = some (v, e) → Attaches u v e a id device → s.multiplexer.Stalled →
    s.multiplexer.Listening → s.multiplexer.coordinator ≠ .crashed →
    ∀ k ∈ s₀.log establishedDevices ms₁, (s₀.log startedCloses ms).count k = 1
  /-- A tunnel that was attached is not closed before something takes its place. -/
  kept : Undisturbed ms → ∀ ms₁ m ms₂ u v e a id device, ms = ms₁ ++ m :: ms₂ → Run s₀ ms₁ u →
    u.step m = some (v, e) → Attaches u v e a id device → Run v ms₂ s →
    (∀ l₁ n l₂ w w' e', ms₂ = l₁ ++ n :: l₂ → Run v l₁ w → w.step n = some (w', e') →
      ¬ Supplants w w' e' n) →
    ∀ k ∈ s₀.log startedCloses ms, k.1 ≠ id

section

variable {s₀ s t u v : State} {m : Move} {e : Effects} {ms ms₁ ms₂ : List Move} {c : Caller}
  {ns : List Multiplexer.Move} {a : Applied} {id : DeviceId} {device : DeviceRef}
  {options : Options} {p : Platform} {j : Job}

/-! ## Runs that are not disturbed -/

theorem Undisturbed.before (h : Undisturbed (ms₁ ++ ms₂)) : Undisturbed ms₁ :=
  ⟨fun c hc => h.uncancelled c (List.mem_append_left _ hc), fun ⟨c, hc⟩ =>
    h.engine ⟨c, hc.imp (List.mem_append_left _) (List.mem_append_left _)⟩⟩

theorem Undisturbed.after (h : Undisturbed (ms₁ ++ ms₂)) : Undisturbed ms₂ :=
  ⟨fun c hc => h.uncancelled c (List.mem_append_right _ hc), fun ⟨c, hc⟩ =>
    h.engine ⟨c, hc.imp (List.mem_append_right _) (List.mem_append_right _)⟩⟩

/-! ## Tunnels that are refused -/

theorem Begins.caller (b : Begins s c m p j ns u) : m.caller? = some c := by
  cases b <;> rfl

theorem Begins.caller_eq {c' : Caller} (b : Begins s c' m p j ns u) (hc : m.caller? = some c) :
    c' = c :=
  Option.some.inj (b.caller.symm.trans hc)

theorem Begins.job_eq {c' : Caller} {j' : Job} (b : Begins s c' m p j' ns u)
    (hc : m.caller? = some c) (hj : s.job? c = some j) : j' = j := by
  obtain rfl := b.caller_eq hc
  exact Option.some.inj (b.job.symm.trans hj)

/-- A job is as it was, or is new, or has made a call, or has built a tunnel that was refused. -/
theorem arrival_of_deed (h : Orderly s) (h' : Orderly t) (d : Deed s m ns t e) (hj : j ∈ t.jobs) :
    (j ∈ s.jobs ∧ m.caller? ≠ some j.caller) ∨ (m = .start j.caller j.task ∧ j.stage = .turn) ∨
      (m.caller? = some j.caller ∧ (j.stage.waits = true ∨
        ∃ device error, j.stage = .discarding device error ∧
          establishedDevices s m t e = [(s.multiplexer.nextId, device)] ∧
          refusedDevices s m t e = [(s.multiplexer.nextId, device)])) := by
  -- who ends its job has none afterwards
  have hdismiss : ∀ {u : State} {c : Caller}, j ∈ (u.dismiss c).jobs → u.jobs = s.jobs →
      (m.caller? = some c ∨ m.caller? = none) → j ∈ s.jobs ∧ m.caller? ≠ some j.caller := by
    intro u c hj hu hc
    rw [jobs_dismiss, hu] at hj
    obtain ⟨hj, hne⟩ := List.mem_filter.1 hj
    refine ⟨hj, fun hcj => ?_⟩
    rcases hc with hc | hc <;> rw [hcj] at hc
    · simp [Option.some.inj hc] at hne
    · cases hc
  have hset : ∀ {c : Caller}, m.caller? = some c → j.caller ≠ c → m.caller? ≠ some j.caller :=
    fun hc hne hcj => hne (Option.some.inj (hcj.symm.trans hc))
  cases d with
  | starts hs =>
    obtain ⟨-, _, _, -, rfl⟩ := start_cases hs
    rcases List.mem_append.1 hj with hj | hj
    · exact .inl ⟨hj, nofun⟩
    · exact .inr (.inl (by rw [List.mem_singleton.1 hj]; exact ⟨rfl, rfl⟩))
  | asks b hasks hs =>
    rcases mem_setStage h b.job (b.holder h) hj with ⟨rfl, hc⟩ | ⟨hj, hne, -⟩
    · exact .inr (.inr ⟨b.caller.trans (congrArg some hc.symm), .inl hasks.waits⟩)
    · exact .inl ⟨hj, hset b.caller hne⟩
  | refused b ht hb ho =>
    rcases mem_setStage h b.job (b.holder h) hj with ⟨rfl, hc⟩ | ⟨hj, hne, -⟩
    · exact .inr (.inr ⟨b.caller.trans (congrArg some hc.symm), .inr ⟨_, _, rfl,
        establishedDevices_building rfl, refusedDevices_setStage h b h'⟩⟩)
    · exact .inl ⟨hj, hset b.caller hne⟩
  | fails b ht hb hf => exact .inl (hdismiss hj b.jobs (.inl b.caller))
  | attaches b ht hb haddr ho => exact .inl (hdismiss hj rfl (.inl b.caller))
  | closed b hs => exact .inl (hdismiss hj b.jobs (.inl b.caller))
  | unchanged hj' hh ha => exact .inl (hdismiss hj rfl (.inl rfl))
  | discarded hj' hs => exact .inl (hdismiss hj rfl (.inl rfl))
  | quits hc => exact .inl (hdismiss hj rfl (.inr rfl))
  | cancels hs => exact .inl (hdismiss hj rfl (.inr rfl))
  | engine hs => exact .inl ⟨hj, nofun⟩

/-- A job stays as it is while the moves are not its own. -/
theorem job_of_deed (h : Orderly s) (h' : Orderly t) (d : Deed s m ns t e) (hj : j ∈ t.jobs)
    (hc : m.caller? ≠ some j.caller) (hm : ∀ task, m ≠ .start j.caller task) : j ∈ s.jobs := by
  rcases arrival_of_deed h h' d hj with ⟨hold, -⟩ | ⟨hstarts, -⟩ | ⟨hown, -⟩
  · exact hold
  · exact absurd hstarts (hm _)
  · exact absurd hown hc

/-- Who has a job starts no other. -/
theorem Deed.not_start (d : Deed s m ns t e) (hj : j ∈ s.jobs) (task : Task) :
    m ≠ .start j.caller task := by
  rintro rfl
  cases d with
  | starts hstart => exact (start_cases hstart).1.1 (List.mem_map_of_mem hj)
  | asks b ha' hs' => cases b
  | fails b ht hb hf => cases b
  | attaches b ht hb haddr ho => cases b
  | refused b ht hb ho => cases b

/-- Whose move it is, his job begins or goes on, or has closed its tunnel. -/
theorem Deed.own (d : Deed s m ns t e) (hc : m.caller? = some c) : ∃ j, s.job? c = some j ∧
    ((∃ p pre u, Begins s c m p j pre u) ∨
      m = .discarded c ∧ ∃ device error, j.stage = .discarding device error) := by
  have hbegins : ∀ {c' p j pre u}, Begins s c' m p j pre u → ∃ j, s.job? c = some j ∧
      ((∃ p pre u, Begins s c m p j pre u) ∨
        m = .discarded c ∧ ∃ device error, j.stage = .discarding device error) := by
    intro c' p j pre u b
    obtain rfl := b.caller_eq hc
    exact ⟨j, b.job, .inl ⟨p, pre, u, b⟩⟩
  cases d with
  | unchanged hj hh ha => exact hbegins (.enter hj hh rfl)
  | asks b hasks hs => exact hbegins b
  | fails b ht hb hf => exact hbegins b
  | attaches b ht hb haddr ho => exact hbegins b
  | refused b ht hb ho => exact hbegins b
  | closed b hs => exact hbegins b
  | discarded hj hs =>
    obtain rfl := Option.some.inj hc
    exact ⟨_, hj, .inr ⟨rfl, _, _, hs⟩⟩
  | starts hs => cases hc
  | quits hc' => cases hc
  | cancels hs => cases hc
  | engine hs => cases hc

/-- A job stays as it is while the moves are not its own, until it is cancelled. -/
theorem Deed.keeps (d : Deed s m ns t e) (hj : j ∈ s.jobs) (hc : m.caller? ≠ some j.caller)
    (hm : m ≠ .cancel j.caller) : j ∈ t.jobs := by
  have hdismiss : ∀ {u : State} {c' : Caller}, u.jobs = s.jobs → c' ≠ j.caller →
      j ∈ (u.dismiss c').jobs := by
    intro u c' hu hne
    rw [jobs_dismiss, hu]
    exact List.mem_filter.2 ⟨hj, by simpa using hne.symm⟩
  have hset : ∀ {u : State} {c' : Caller} {stage : Stage}, u.jobs = s.jobs → c' ≠ j.caller →
      j ∈ (u.setStage c' stage).jobs := by
    intro u c' stage hu hne
    exact List.mem_map.2 ⟨j, hu ▸ hj, if_neg hne.symm⟩
  have hother : ∀ {c' : Caller}, m.caller? = some c' → c' ≠ j.caller := fun hc' he =>
    hc (hc'.trans (congrArg some he))
  cases d with
  | starts hs =>
    obtain ⟨-, _, _, -, rfl⟩ := start_cases hs
    exact List.mem_append_left _ hj
  | unchanged hj' hh ha => exact hdismiss rfl (hother rfl)
  | asks b hasks hs => exact hset rfl (hother b.caller)
  | fails b ht hb hf => exact hdismiss b.jobs (hother b.caller)
  | attaches b ht hb haddr ho => exact hdismiss rfl (hother b.caller)
  | refused b ht hb ho => exact hset rfl (hother b.caller)
  | closed b hs => exact hdismiss b.jobs (hother b.caller)
  | discarded hj' hs => exact hdismiss rfl (hother rfl)
  | quits hc' => exact hdismiss rfl fun he => hm (congrArg _ he)
  | cancels hs => exact hdismiss rfl fun he => hm (congrArg _ he)
  | engine hs => exact hj

theorem RefusedTo.snoc {k : DeviceId × DeviceRef} (h : RefusedTo s₀ ms c k)
    (hm : ∀ task, m ≠ .start c task) : RefusedTo s₀ (ms ++ [m]) c k := by
  obtain ⟨ms₁, m', ms₂, u, v, e, rfl, hu, hs, hc, hn, hk⟩ := h
  refine ⟨ms₁, m', ms₂ ++ [m], u, v, e, by simp, hu, hs, hc, fun task hmem => ?_, hk⟩
  rcases List.mem_append.1 hmem with hmem | hmem
  · exact hn task hmem
  · exact hm task (List.mem_singleton.1 hmem).symm

/-- A job that closes its tunnel has built it, and it was refused. -/
theorem refusedTo_of_run (hstart : Manager.start options = .ok s₀) (h : Run s₀ ms s) :
    ∀ j ∈ s.jobs, ∀ device error, j.stage = .discarding device error →
      ∃ id, RefusedTo s₀ ms j.caller (id, device) := by
  induction h with
  | nil =>
    rw [(start_eq hstart).2]
    exact nofun
  | @snoc ms s t m e h ha hs ih =>
    intro j hj device error hstage
    obtain ⟨hord, hord', ⟨_, d⟩, -⟩ := deed_of_run hstart h ha hs
    rcases arrival_of_deed hord hord' d hj with
      ⟨hold, -⟩ | ⟨-, hturn⟩ | ⟨hc, hw | ⟨device', error', hstage', hestablished, hrefused⟩⟩
    · obtain ⟨id, hk⟩ := ih j hold device error hstage
      exact ⟨id, hk.snoc (d.not_start hold)⟩
    · rw [hstage] at hturn
      cases hturn
    · rw [hstage] at hw
      cases hw
    · obtain ⟨rfl, -⟩ := Stage.discarding.inj (hstage.symm.trans hstage')
      exact ⟨_, ms, m, [], s, t, e, rfl, h, hs, hc, nofun, hestablished, hrefused⟩

theorem RefusedTo.mem (h : RefusedTo s₀ ms c (id, device)) :
    (id, device) ∈ s₀.log refusedDevices ms := by
  obtain ⟨ms₁, m, ms₂, u, v, e, rfl, hu, hs, -, -, -, hr⟩ := h
  rw [hu.log_append, log_cons hs, hr]
  simp

/-! ## When all are closed -/

theorem closed_of_disposed {settings : MultiplexerSettings} (l : Ledger s₀ ms ns s)
    (hinit : s₀.multiplexer = .init settings)
    (hd : s₀.multiplexer.log takenDevices ns ⊆
      s₀.multiplexer.log Multiplexer.State.startedDisposals ns) :
    ∀ k ∈ s₀.log establishedDevices ms, (s₀.log startedCloses ms).count k = 1 := fun _ hk =>
  l.count hinit (l.mem_closes.2 ((l.mem_established.1 hk).imp_left (hd ·)))

/-- A job begins or goes on when it has no call or its call has been answered. -/
theorem Begins.answered (b : Begins s c m p j ns u) (h : Orderly s)
    (hn : s.multiplexer.callers.Nodup) : s.multiplexer.awaits c = false := by
  by_contra hw
  have hw : s.multiplexer.awaits c = true := by simpa using hw
  cases b with
  | enter hj hh hs =>
    exact ((Begins.enter (p := p) hj hh hs).free h).2.1
      (Multiplexer.State.mem_callers_of_awaits hw)
  | resume hj hs hl =>
    obtain ⟨x, hx, -⟩ := Multiplexer.State.leave_cases hl
    rw [Multiplexer.State.answer?_eq_none_of_awaits hn hw] at hx
    cases hx

theorem emptied_of_returns (hstart : Manager.start options = .ok s₀) (h : Run s₀ ms s)
    {r : Except VpnError Unit} (hr : Returns s j r) (hj : j.task.empties = true)
    (hc : s.multiplexer.coordinator ≠ .crashed) :
    ∀ k ∈ s₀.log establishedDevices ms, (s₀.log startedCloses ms).count k = 1 := by
  have hinit := multiplexer_start hstart
  obtain ⟨ns, l⟩ := ledger_of_run hstart h
  obtain ⟨hord, -⟩ := orderly_of_run hstart h
  have hrun := l.run
  rw [hinit] at hrun
  obtain ⟨m, t, e, hs, hm, hjob, hresult⟩ := hr
  obtain ⟨ns', d⟩ := deed_of_step hord hs
  have haddresses : ∀ {service router dns}, j.task = .update service router dns →
      router.localAddresses = [] := by
    intro service router dns ht
    rw [ht] at hj
    simpa [Task.empties] using hj
  cases d with
  | @unchanged c' p' service a hj' hh ha =>
    obtain rfl : c' = j.caller := Option.some.inj hm
    obtain ⟨_, _, _, _, _, _, _, _, -, -, -, -, hatt, -⟩ := attached_of_run hstart h ha
    exact absurd (haddresses (congrArg Job.task (Option.some.inj (hjob.symm.trans hj'))))
      hatt.addresses
  | asks b hasks hs => cases hresult
  | fails b ht hb hf haddr hmade =>
    obtain rfl := b.job_eq hm hjob
    exact absurd (haddresses ht) haddr
  | attaches b ht hb haddr ho =>
    obtain rfl := b.job_eq hm hjob
    exact absurd (haddresses ht) haddr
  | refused b ht hb ho => cases hresult
  | closed b hstage =>
    obtain rfl := b.job_eq hm hjob
    obtain ⟨hmem, hcaller⟩ := mem_of_job? b.job
    obtain ⟨op, -, hv⟩ := vacating_of_run hstart h _ hmem (by
      rcases hstage with ⟨hstage, -⟩ | hstage <;> rw [hstage] <;> rfl)
    refine closed_of_disposed l hinit ?_
    rw [hinit]
    exact Multiplexer.State.disposed_of_vacated hrun hv
      (hcaller ▸ b.answered hord (Multiplexer.State.accounted_of_run hrun).callers)
      (hord.present _ hmem) hc
  | discarded hj' hstage =>
    -- the multiplexer is over
    obtain ⟨hmem, -⟩ := mem_of_job? hj'
    obtain ⟨id, hrefused⟩ := refusedTo_of_run hstart h _ hmem _ _ hstage
    refine closed_of_disposed l hinit ?_
    rw [hinit]
    exact Multiplexer.State.disposed_of_over hrun
      (l.refused (List.ne_nil_of_mem hrefused.mem)) hc
  | starts hs => cases hm
  | quits hc => cases hm
  | cancels hs => cases hm
  | engine hs => cases hm

/-- An update that tells of the multiplexer's refusal has closed the tunnel that was refused. -/
theorem closed_of_refused (hstart : Manager.start options = .ok s₀) (h : Run s₀ ms s)
    {r : Except VpnError Unit} {service : String} {router : RouterConfig}
    {dns : Option DnsSettings} {error : TunnelError} (hr : Returns s j r)
    (ht : j.task = .update service router dns) (he : r = .error (.tunnel error)) :
    ∃ k, RefusedTo s₀ ms j.caller k ∧ (s₀.log startedCloses ms).count k = 1 := by
  subst he
  obtain ⟨ns, l⟩ := ledger_of_run hstart h
  have hord := (orderly_of_run hstart h).1
  obtain ⟨m, t, e, hs, hm, hjob, hresult⟩ := hr
  obtain ⟨ns', d⟩ := deed_of_step hord hs
  cases d with
  | discarded hj' hstage =>
    obtain rfl : _ = j.caller := Option.some.inj hm
    obtain rfl := Option.some.inj (hjob.symm.trans hj')
    obtain ⟨id, hrefused⟩ := refusedTo_of_run hstart h _ (mem_of_job? hjob).1 _ _ hstage
    exact ⟨_, hrefused, l.count (multiplexer_start hstart) (l.mem_closes.2 (.inr hrefused.mem))⟩
  | fails b ht' hb hf haddr hmade =>
    obtain rfl := Except.error.inj (Option.some.inj hresult)
    cases hf
  | @closed c' p' j' u service' r b hstage =>
    obtain rfl : c' = j.caller := Option.some.inj hm
    obtain rfl := Option.some.inj (hjob.symm.trans b.job)
    rcases hstage with ⟨-, rfl⟩ | hstage
    · cases hresult
    · -- an update does not close tunnels so
      have hfits := hord.fits _ (mem_of_job? hjob).1
      rw [ht, hstage] at hfits
      cases hfits with
      | waits hasks => cases hasks
  | unchanged hj' hh ha => cases hresult
  | asks b hasks hs => cases hresult
  | attaches b ht' hb haddr ho => cases hresult
  | refused b ht' hb ho => cases hresult
  | starts hs => cases hresult
  | quits hc => cases hresult
  | cancels hs => cases hresult
  | engine hs => cases hresult

/-! ## When a newer tunnel was attached -/

theorem Attaches.established (h : Attaches s t e a id device) :
    establishedDevices s m t e = [(id, device)] := by
  obtain ⟨service, chromeOs, hc⟩ := h.calls
  rw [establishedDevices_building hc, h.number]

theorem closed_of_superseded (hstart : Manager.start options = .ok s₀)
    (h : Run s₀ (ms₁ ++ m :: ms₂) s) (hu : Run s₀ ms₁ u) (hs : u.step m = some (v, e))
    (hatt : Attaches u v e a id device) (hstalled : s.multiplexer.Stalled)
    (hlistening : s.multiplexer.Listening) (hc : s.multiplexer.coordinator ≠ .crashed) :
    ∀ k ∈ s₀.log establishedDevices ms₁,
      (s₀.log startedCloses (ms₁ ++ m :: ms₂)).count k = 1 := by
  intro k hk
  have hinit := multiplexer_start hstart
  obtain ⟨ns, l⟩ := ledger_of_run hstart h
  have hrun := l.run
  have hlog : s₀.log establishedDevices (ms₁ ++ m :: ms₂) =
      s₀.log establishedDevices ms₁ ++ ((id, device) :: v.log establishedDevices ms₂) := by
    rw [hu.log_append, log_cons hs, hatt.established]
    rfl
  have hold : k ∈ s₀.log establishedDevices (ms₁ ++ m :: ms₂) := by
    rw [hlog]
    exact List.mem_append_left _ hk
  refine l.count hinit (l.mem_closes.2 ((l.mem_established.1 hold).imp_left fun htaken => ?_))
  have hnew : (id, device) ∈ s₀.log establishedDevices (ms₁ ++ m :: ms₂) := by simp [hlog]
  have hnewer := l.mem_established.1 hnew
  rw [hinit] at hrun htaken hnewer ⊢
  cases ho : s.multiplexer.isOver with
  | true => exact Multiplexer.State.disposed_of_over hrun ho hc htaken
  | false =>
    have hnone : s₀.log refusedDevices (ms₁ ++ m :: ms₂) = [] := by
      by_contra hn
      rw [l.refused hn] at ho
      cases ho
    have hlt : k.1.number < id.number := by
      obtain ⟨ns₁, l₁⟩ := ledger_of_run hstart hu
      rw [hatt.number]
      exact Nat.lt_succ_of_le (l₁.numbers k hk)
    refine Multiplexer.State.disposed_of_stalled hrun ?_ hc hstalled hlistening htaken
      (hnewer.resolve_right (by rw [hnone]; nofun)) hlt
    simp [Multiplexer.State.hasHandle, (orderly_of_run hstart h).1.held]

/-! ## Whose closes are on their way -/

/-- A job whose call has not been answered stays until it is cancelled. -/
theorem Deed.stays (d : Deed s m ns t e) (h : Orderly s) (hn : s.multiplexer.callers.Nodup)
    (hm : ∀ c, m ≠ .cancel c) (hw : s.multiplexer.awaits c = true)
    (hc : c ∈ s.jobs.map (·.caller)) : c ∈ t.jobs.map (·.caller) := by
  obtain ⟨j, hj, rfl⟩ := List.mem_map.1 hc
  refine List.mem_map_of_mem (d.keeps hj (fun hown => ?_) (hm _))
  obtain ⟨k, hk, ⟨_, _, _, b⟩ | ⟨-, device, error, hstage⟩⟩ := d.own hown
  · rw [b.answered h hn] at hw
    cases hw
  · obtain rfl := Option.some.inj (hk.symm.trans (job?_of_mem h hj))
    have hwaits := (h.calls k hj).1 (Multiplexer.State.mem_callers_of_awaits hw)
    rw [hstage] at hwaits
    cases hwaits

/-- Calls on the multiplexer are made by the engine and by jobs. -/
theorem Deed.called (d : Deed s m ns t e) {op : Operation} (hcall : .call c op ∈ ns) :
    m = .multiplexer (.call c op) ∨ c ∈ t.jobs.map (·.caller) := by
  have hcalm : ∀ {c' p j u}, ¬ Begins s c' m p j ns u := fun b => (b.calm (d := c) _ hcall).2 op rfl
  cases d with
  | @asks _ c' p j pre u op' v stage service b hasks hs =>
    rcases List.mem_append.1 hcall with hcall | hcall
    · exact absurd rfl ((b.calm (d := c) _ hcall).2 op)
    · obtain ⟨rfl, -⟩ := Multiplexer.Move.call.inj (List.mem_singleton.1 hcall)
      obtain ⟨hj, hjc⟩ := mem_of_job? b.job
      refine .inr (List.mem_map.2 ⟨_, List.mem_map_of_mem hj, ?_⟩)
      split <;> exact hjc
  | fails b ht hb hf => exact absurd b hcalm
  | attaches b ht hb haddr ho =>
    rcases List.mem_append.1 hcall with hcall | hcall
    · exact absurd rfl ((b.calm (d := c) _ hcall).2 op)
    · cases List.mem_singleton.1 hcall
  | refused b ht hb ho =>
    rcases List.mem_append.1 hcall with hcall | hcall
    · exact absurd rfl ((b.calm (d := c) _ hcall).2 op)
    · cases List.mem_singleton.1 hcall
  | closed b hs => exact absurd b hcalm
  | cancels hs => cases List.mem_singleton.1 hcall
  | engine hs => exact .inl (congrArg _ (List.mem_singleton.1 hcall).symm)
  | _ => cases hcall

/-- In a run that nobody disturbs, a close that is on its way is that of a job. -/
theorem jobs_of_closing (hstart : Manager.start options = .ok s₀) (h : Run s₀ ms s)
    (hu : Undisturbed ms) : ∀ c, .close c ∈ s.multiplexer.agenda → c ∈ s.jobs.map (·.caller) := by
  induction h with
  | nil =>
    rw [multiplexer_start hstart]
    exact nofun
  | @snoc ms s t m e h ha hs ih =>
    intro c hc
    obtain ⟨hord, hord', ⟨_, d⟩, _, hrun⟩ := deed_of_run hstart h ha hs
    rcases Multiplexer.State.close_of_moves hrun (d.run hord) hord'.held hc with hold | hcall
    · have hmem := ih hu.before c hold
      obtain ⟨j, hj, hjc⟩ := List.mem_map.1 hmem
      refine d.stays hord (Multiplexer.State.accounted_of_run hrun).callers ?_ ?_ hmem
      · rintro c' rfl
        exact hu.uncancelled c' (List.mem_append_right _ (List.mem_singleton_self _))
      · exact (Multiplexer.State.awaits_of_agenda hrun hold rfl).resolve_right
          (hjc ▸ hord.present j hj)
    · refine (d.called hcall).resolve_left fun he => hu.engine ⟨c, .inr ?_⟩
      rw [he]
      exact List.mem_append_right _ (List.mem_singleton_self _)

/-- No close is on its way when a job that has no call is at work. -/
theorem Begins.not_closingSoon (b : Begins s c m p j ns u)
    (hstart : Manager.start options = .ok s₀) (h : Run s₀ ms s) (hu : Undisturbed ms) :
    ¬ s.multiplexer.ClosingSoon := by
  rintro ⟨c', hc'⟩
  have hord := (orderly_of_run hstart h).1
  obtain ⟨_, hrun⟩ := multiplexer_run hstart h
  obtain ⟨k, hk, rfl⟩ := List.mem_map.1 (jobs_of_closing hstart h hu c' hc')
  have hw := (Multiplexer.State.awaits_of_agenda hrun hc' rfl).resolve_right (hord.present k hk)
  have hwaits := (hord.calls k hk).1 (Multiplexer.State.mem_callers_of_awaits hw)
  -- its job would hold the turn
  have hholder := hord.turn k hk fun hs => by simp [hs, Stage.waits] at hwaits
  rw [b.holder hord] at hholder
  obtain rfl := Option.some.inj hholder
  rw [b.answered hord (Multiplexer.State.accounted_of_run hrun).callers] at hw
  cases hw

/-! ## While nothing takes its place -/

/-- A tunnel has its place, and nobody is about to take it. -/
structure KeepsPlace (s₀ : State) (ms : List Move) (id : DeviceId) (device : DeviceRef)
    (s : State) : Prop where
  standing : Standing id device (s₀.log startedDisposals ms) s.multiplexer
  established : (id, device) ∈ s₀.log establishedDevices ms
  refused : id ∉ (s₀.log refusedDevices ms).map (·.1)
  idle : s.multiplexer.isOver = false → ∀ j ∈ s.jobs, j.stage.waits = false

/-- A tunnel is attached by a job that hands it in and returns. -/
theorem Attaches.inv (hatt : Attaches s t e a id device) (d : Deed s m ns t e) :
    ∃ c p j pre u, Begins s c m p j pre u ∧ u.multiplexer.isOver = false ∧
      t.multiplexer = (u.multiplexer.add device).2 ∧ t.jobs = s.jobs.filter (·.caller != c) := by
  have hestablished := hatt.established (m := m)
  have hresult := hatt.result
  have hcalls : e.calls ≠ [] := fun hn => by
    rw [establishedDevices, hn] at hestablished
    cases hestablished
  cases d with
  | attaches b ht hb haddr ho =>
    rw [establishedDevices_building rfl] at hestablished
    obtain ⟨-, rfl⟩ := Prod.mk.inj (List.singleton_inj.1 hestablished)
    exact ⟨_, _, _, _, _, b, ho, multiplexer_dismiss, jobs_dismiss⟩
  | unchanged hj hh ha => exact absurd rfl hcalls
  | closed b hs => exact absurd rfl hcalls
  | starts hs => cases hresult
  | asks b hasks hs => cases hresult
  | fails b ht hb hf => cases hresult
  | refused b ht hb ho => cases hresult
  | discarded hj hs => cases hresult
  | quits hc => cases hresult
  | cancels hs => cases hresult
  | engine hs => cases hresult

/-- When a tunnel is attached, no job has a call on the multiplexer. -/
theorem keepsPlace_of_attaches (hstart : Manager.start options = .ok s₀) (h : Run s₀ ms s)
    (hu : Undisturbed ms) (hs : s.step m = some (t, e)) (hatt : Attaches s t e a id device) :
    Run s₀ (ms ++ [m]) t ∧ KeepsPlace s₀ (ms ++ [m]) id device t := by
  have hord := (orderly_of_run hstart h).1
  obtain ⟨ns, d⟩ := deed_of_step hord hs
  obtain ⟨c, p, j, pre, u, b, ho, hmux, hjobs⟩ := hatt.inv d
  have hafter : Run s₀ (ms ++ [m]) t := .snoc h (by cases b <;> rfl) hs
  have hnewest : Newest id device t.multiplexer := by
    have hclosing := b.not_closingSoon hstart h hu
    obtain ⟨_, _, he⟩ := b.multiplexer
    have hid : id = u.multiplexer.nextId := by
      rw [hatt.number, he]
      rfl
    rw [hmux, hid]
    exact Multiplexer.State.newest_add ho (by rw [he]; exact hclosing)
  refine ⟨hafter, .inl hnewest, ?_, ?_, fun _ k hk => ?_⟩
  · rw [h.log_snoc hs, hatt.established]
    exact List.mem_append_right _ (List.mem_singleton_self _)
  · obtain ⟨_, l⟩ := ledger_of_run hstart hafter
    intro hid
    have hover := l.refused fun hnil => by
      rw [hnil] at hid
      cases hid
    rw [hnewest.isOver] at hover
    cases hover
  · rw [hjobs] at hk
    obtain ⟨hk, hne⟩ := List.mem_filter.1 hk
    by_contra hw
    have hholder := hord.turn k hk fun hs => by simp [hs, Stage.waits] at hw
    rw [b.holder hord] at hholder
    simp [Option.some.inj hholder] at hne

/-- An update that leaves the old tunnels while it builds does not wait for them. -/
theorem not_seamless_of_asks {service : String} (hj : s.job? c =
      some ⟨c, .update service a.router a.dns, .turn⟩) (hh : s.holder = some c)
    (haddr : a.router.localAddresses ≠ []) (hs : s.enter c p = some (t, {})) :
    ¬ Seamless s p := by
  intro hp
  by_cases ha : s.applied = some a
  · rw [enter_eq hj hh, State.run, if_pos ha] at hs
    cases congrArg Effects.result (Prod.mk.inj (Option.some.inj hs)).2
  · rw [enter_seamless hj hh ha haddr hp] at hs
    have hcalls : (s.build c service a.router a.dns p.chromeOs p).2.calls.head? =
        some (.newBuilder service) := calls_build
    rw [(Option.some.inj hs)] at hcalls
    cases hcalls

/-- A move that supplants nothing spares the newest device, and no job comes to wait. -/
theorem spares_of_deed (d : Deed s m ns t e) (hs : s.step m = some (t, e))
    (ha : s.allows m = true) (hopen : s.multiplexer.isOver = false)
    (hidle : ∀ j ∈ s.jobs, j.stage.waits = false) (hn : ¬ Supplants s t e m) (hengine : ¬ ClosedByEngine [m]) :
    (∀ n ∈ ns, n.spares = true) ∧ ∀ j ∈ t.jobs, j.stage.waits = false := by
  have hdismiss : ∀ {u : State} {c : Caller}, u.jobs = s.jobs →
      ∀ j ∈ (u.dismiss c).jobs, j.stage.waits = false := fun hu j hj =>
    hidle j (hu ▸ mem_of_mem_dismiss hj)
  have hsingle : ∀ {n : Multiplexer.Move}, n.spares = true → ∀ n' ∈ [n], n'.spares = true :=
    fun h n' hn' => List.mem_singleton.1 hn' ▸ h
  cases d with
  | starts hstart =>
    obtain ⟨-, _, _, -, rfl⟩ := start_cases hstart
    refine ⟨nofun, fun j hj => ?_⟩
    rcases List.mem_append.1 hj with hj | hj
    · exact hidle j hj
    · rw [List.mem_singleton.1 hj]
      rfl
  | unchanged hj hh ha' => exact ⟨nofun, hdismiss rfl⟩
  | @asks _ c p j pre u op v stage service b hasks hcall =>
    -- whoever asks has just begun, and closes tunnels
    exfalso
    cases b with
    | enter hj hh hturn =>
      have hemptied := fun h => hn (.empties (p := p) hj h)
      obtain ⟨hmem, rfl⟩ := mem_of_job? hj
      obtain ⟨caller, task, jobStage⟩ := j
      obtain rfl : jobStage = .turn := hturn
      cases hasks with
      | @clearing service router dns chromeOs =>
        refine hn (.clears hj (not_seamless_of_asks (a := ⟨router, dns⟩) hj hh ?_ hs))
        exact fun hnil => hemptied (by simpa [Task.empties] using hnil)
      | emptying hnil => exact hemptied (by simpa [Task.empties] using hnil)
      | closeTunnels => exact hemptied rfl
      | close => exact hemptied rfl
    | resume hj hw hl =>
      rw [hidle _ (mem_of_job? hj).1] at hw
      cases hw
  | fails b ht hb hf => exact ⟨b.spares, hdismiss b.jobs⟩
  | attaches b ht hb haddr ho =>
    obtain ⟨_, _, hu⟩ := b.multiplexer
    rw [hu] at ho hn
    exact absurd (.attaches (attaches_of_add haddr ho)) hn
  | refused b ht hb ho =>
    obtain ⟨_, _, hu⟩ := b.multiplexer
    rw [hu] at ho
    cases hopen.symm.trans ho
  | closed b hstage => exact ⟨b.spares, hdismiss b.jobs⟩
  | discarded hj hstage => exact ⟨nofun, hdismiss rfl⟩
  | quits hc => exact ⟨nofun, hdismiss rfl⟩
  | cancels hcancel => exact ⟨hsingle rfl, hdismiss rfl⟩
  | @engine n v hstep =>
    refine ⟨?_, hidle⟩
    cases n with
    | add device => cases ha
    | call c op =>
      cases op with
      | shutdown => exact absurd ⟨c, .inl (List.mem_singleton_self _)⟩ hengine
      | close => exact absurd ⟨c, .inr (List.mem_singleton_self _)⟩ hengine
      | _ => exact hsingle rfl
    | _ => exact hsingle rfl

theorem KeepsPlace.step (k : KeepsPlace s₀ ms id device s) (hstart : Manager.start options = .ok s₀)
    (h : Run s₀ ms s) (ha : s.allows m = true) (hs : s.step m = some (t, e))
    (hn : ¬ Supplants s t e m) (hengine : ¬ ClosedByEngine [m]) :
    KeepsPlace s₀ (ms ++ [m]) id device t := by
  have hinit := multiplexer_start hstart
  obtain ⟨ns, l⟩ := ledger_of_run hstart h
  have hord := (orderly_of_run hstart h).1
  have hord' := (orderly_of_run hstart (.snoc h ha hs)).1
  obtain ⟨ns', d⟩ := deed_of_step hord hs
  have hbegin := l.run
  rw [hinit] at hbegin
  have hposting := posting_of_deed hord hord' hbegin ha d
  have hlater := l.step hbegin h hs (d.run hord) hposting
  have hspares := fun ho => spares_of_deed d hs ha ho (k.idle ho) hn hengine
  refine ⟨?_, ?_, ?_, fun ho => (hspares ?_).2⟩
  · have hstanding := k.standing
    rw [l.disposals, hinit] at hstanding
    rw [hlater.disposals, hinit]
    rcases hstanding with hnewest | ⟨hc, hid⟩
    · exact Multiplexer.State.standing_of_moves hbegin (d.run hord) hord'.held
        (hspares hnewest.isOver).1 (.inl hnewest)
    · obtain ⟨hc', hnone⟩ := Multiplexer.State.disposals_of_crashed hbegin (d.run hord) hc
      rw [hbegin.log_append, hnone, List.append_nil]
      exact .inr ⟨hc', hid⟩
  · rw [h.log_snoc hs]
    exact List.mem_append_left _ k.established
  · -- what is refused has a number of its own
    have hunique := hlater.unique
    rw [h.log_snoc hs, List.map_append] at hunique
    rw [h.log_snoc hs, List.map_append]
    intro hid
    refine (List.mem_append.1 hid).elim k.refused fun hid => ?_
    refine List.disjoint_of_nodup_append hunique (List.mem_map_of_mem k.established) ?_
    rw [hposting.established, List.map_append]
    exact List.mem_append_right _ hid
  · cases hopen : s.multiplexer.isOver with
    | true =>
      rw [Multiplexer.State.isOver_of_moves (d.run hord) hopen] at ho
      cases ho
    | false => rfl

theorem keepsPlace_of_run (hstart : Manager.start options = .ok s₀) (h : Run s₀ ms₁ v)
    (k : KeepsPlace s₀ ms₁ id device v) (hrest : Run v ms₂ s) (hengine : ¬ ClosedByEngine ms₂)
    (hn : ∀ l₁ n l₂ w w' e', ms₂ = l₁ ++ n :: l₂ → Run v l₁ w → w.step n = some (w', e') →
      ¬ Supplants w w' e' n) : KeepsPlace s₀ (ms₁ ++ ms₂) id device s := by
  induction hrest with
  | nil => simpa using k
  | @snoc ms s t m e hrest ha hs ih =>
    have hkeeps := ih
      (fun ⟨c, hc⟩ => hengine ⟨c, hc.imp (List.mem_append_left _) (List.mem_append_left _)⟩)
      fun l₁ n l₂ w w' e' he => hn l₁ n (l₂ ++ [m]) w w' e' (by simp [he])
    rw [← List.append_assoc]
    refine hkeeps.step hstart (h.append hrest) ha hs (hn ms m [] s t e rfl hrest hs) ?_
    exact fun ⟨c, hc⟩ => hengine ⟨c, hc.imp (List.mem_append_right _) (List.mem_append_right _)⟩

theorem KeepsPlace.not_closed (k : KeepsPlace s₀ ms id device s)
    (hstart : Manager.start options = .ok s₀) (h : Run s₀ ms s) :
    ∀ x ∈ s₀.log startedCloses ms, x.1 ≠ id := by
  rintro x hx rfl
  have hinit := multiplexer_start hstart
  obtain ⟨ns, l⟩ := ledger_of_run hstart h
  have hrun := l.run
  have hstanding := k.standing
  have hclosed := (l.mem_closes.1 hx).resolve_right fun hx => k.refused (List.mem_map_of_mem hx)
  rw [l.disposals, hinit] at hstanding
  rw [hinit] at hrun hclosed
  exact hstanding.not_disposed hrun (List.mem_map_of_mem hclosed)

/-! ## Over a run -/

/-- No tunnel is left open but through a crash of the coordinator, and none is closed twice or
    too soon. -/
theorem noneLeaks_of_run (hstart : Manager.start options = .ok s₀) (h : Run s₀ ms s) :
    NoneLeaks s₀ ms s := by
  have hinit := multiplexer_start hstart
  obtain ⟨ns, l⟩ := ledger_of_run hstart h
  refine ⟨⟨l.once hinit, l.owned hinit⟩, fun j r hr hj hc => emptied_of_returns hstart h hr hj hc,
    fun j r service router dns error hr ht he => closed_of_refused hstart h hr ht he, ?_, ?_⟩
  · rintro ms₁ m ms₂ u v e a id device rfl hu hs hatt hstalled hlistening hc
    exact closed_of_superseded hstart h hu hs hatt hstalled hlistening hc
  · rintro hundisturbed ms₁ m ms₂ u v e a id device rfl hu hs hatt hrest hn
    have hafter : Undisturbed ([m] ++ ms₂) := hundisturbed.after
    obtain ⟨hattached, hplace⟩ := keepsPlace_of_attaches hstart hu hundisturbed.before hs hatt
    have hkeeps := keepsPlace_of_run hstart hattached hplace hrest hafter.after.engine hn
    rw [List.append_assoc] at hkeeps
    exact hkeeps.not_closed hstart h

end

/-! ## Two tunnels -/

/-- The second tunnel takes the place of the first, and these moves follow. -/
def replacingMoves (ms : List Move) : List Move :=
  firstMoves ++ [.multiplexer .control, .start 1 secondUpdate] ++ .enter 1 (granting 1) :: ms

/-- The second tunnel is on its way to the coordinator. -/
def replaced : State :=
  { fresh with
    multiplexer := (replacing.multiplexer.add 1).2
    applied := some ⟨otherAddress, none⟩
    service := some "vpn" }

theorem step_replaced : replacing.step (.enter 1 (granting 1)) = some (replaced,
    { calls := building "vpn" (plan {} false otherAddress none) 1, result := some (.ok ()) }) := by
  have hb : replacing.build 1 "vpn" otherAddress none false (granting 1) = _ :=
    build_eq (fun _ _ _ => rfl) rfl rfl
  exact congrArg some hb

/-- What two tunnels and the moves after them show. -/
theorem log_replacingMoves {α : Type} (shows : State → Move → State → Effects → List α)
    (ms : List Move) : fresh.log shows (replacingMoves ms) =
      shows fresh (.start 0 firstUpdate) begun {} ++
      shows begun (.enter 0 (granting 0)) updated
        { calls := building "vpn" (plan {} false oneAddress none) 0, result := some (.ok ()) } ++
      updated.log shows [.multiplexer .control, .start 1 secondUpdate] ++
      shows replacing (.enter 1 (granting 1)) replaced
        { calls := building "vpn" (plan {} false otherAddress none) 1, result := some (.ok ()) } ++
      replaced.log shows ms := by
  have hbegun : fresh.step (.start 0 firstUpdate) = some (begun, {}) := rfl
  rw [replacingMoves, run_replacing.log_append, log_cons step_replaced, run_updated.log_append,
    firstMoves, log_cons hbegun, log_cons step_updated]
  simp [log]

theorem run_replacingMoves {ms : List Move} {s : State} (h : replaced.play ms = some s) :
    Run fresh (replacingMoves ms) s := by
  have hstep : Run fresh _ replaced := .snoc run_replacing rfl step_replaced
  have hrun := hstep.append (.of_play h)
  simpa [replacingMoves] using hrun

/-- Both tunnels are established. -/
theorem established_replacingMoves (ms : List Move) :
    fresh.log establishedDevices (replacingMoves ms) =
      [(⟨1⟩, 0), (⟨2⟩, 1)] ++ replaced.log establishedDevices ms := by
  have hfirst : establishedDevices begun (.enter 0 (granting 0)) updated
      { calls := building "vpn" (plan {} false oneAddress none) 0, result := some (.ok ()) } =
      [(⟨1⟩, 0)] := establishedDevices_building rfl
  have hsecond : establishedDevices replacing (.enter 1 (granting 1)) replaced
      { calls := building "vpn" (plan {} false otherAddress none) 1, result := some (.ok ()) } =
      [(⟨2⟩, 1)] := establishedDevices_building rfl
  rw [log_replacingMoves, hfirst, hsecond]
  rfl

theorem closes_replacingMoves (ms : List Move) :
    fresh.log startedCloses (replacingMoves ms) = replaced.log startedCloses ms := by
  rw [log_replacingMoves]
  rfl

/-- The first device is closed, and then the manager is told to close all. -/
def closingMoves : List Move :=
  ([.control, .pollWriter, .joinWriter, .closeReturned ⟨1⟩ (.value ()), .joinCloser ⟨1⟩, .pollReader,
    .joinReader] : List Multiplexer.Move).map .multiplexer ++
  [.start 2 .closeTunnels, .enter 2 (granting 2)] ++
  ([.control, .pollWriter, .joinWriter, .closeReturned ⟨2⟩ (.value ()), .joinCloser ⟨2⟩, .pollReader,
    .joinReader] : List Multiplexer.Move).map .multiplexer

theorem noneLeaks_closed : ∃ s, Manager.start {} = .ok fresh ∧
    Run fresh (replacingMoves closingMoves) s ∧
    Returns s ⟨2, .closeTunnels, .closing⟩ (.ok ()) ∧
    fresh.log startedCloses (replacingMoves closingMoves) = [(⟨1⟩, 0), (⟨2⟩, 1)] ∧
    NoneLeaks fresh (replacingMoves closingMoves) s := by
  have hplay : replaced.play closingMoves = some ((replaced.play closingMoves).getD replaced) := rfl
  have hrun := run_replacingMoves hplay
  refine ⟨_, start_fresh, hrun, ⟨.resume 2 (granting 2), _, _, rfl, rfl, rfl, rfl⟩, ?_,
    noneLeaks_of_run start_fresh hrun⟩
  rw [closes_replacingMoves]
  rfl

/-! ## A tunnel that stays open -/

/-- The close of the first device crashes the coordinator, and an update without addresses
    comes. -/
def leakingMoves : List Move :=
  ([.control, .pollWriter, .joinWriter, .closeReturned ⟨1⟩ .crash, .joinCloser ⟨1⟩] :
    List Multiplexer.Move).map .multiplexer ++
  [.start 2 (.update "vpn" {} none), .enter 2 (granting 2)]

/-- The update ends well, and the second tunnel has not been closed. -/
theorem tunnel_left_open : ∃ s, Run fresh (replacingMoves leakingMoves) s ∧
    Returns s ⟨2, .update "vpn" {} none, .emptying⟩ (.ok ()) ∧
    (⟨2⟩, 1) ∈ fresh.log establishedDevices (replacingMoves leakingMoves) ∧
    (⟨2⟩, 1) ∉ fresh.log startedCloses (replacingMoves leakingMoves) := by
  have hplay : replaced.play leakingMoves = some ((replaced.play leakingMoves).getD replaced) := rfl
  refine ⟨_, run_replacingMoves hplay, ⟨.resume 2 (granting 2), _, _, rfl, rfl, rfl, rfl⟩, ?_, ?_⟩
  · rw [established_replacingMoves]
    simp
  · rw [closes_replacingMoves]
    have hcloses : replaced.log startedCloses leakingMoves = [(⟨1⟩, 0)] := rfl
    rw [hcloses]
    decide

end SeamlessTunnel.Manager
