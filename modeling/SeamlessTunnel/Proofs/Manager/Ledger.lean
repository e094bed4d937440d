import SeamlessTunnel.Proofs.Manager.Failures
/-
  SeamlessTunnel.Proofs.Manager.Ledger — an account of all tunnels.

  Each tunnel that the platform establishes has its own id, and the multiplexer takes it or
  refuses it. What is closed is closed by the multiplexer, or by the job whose tunnel was
  refused (`ledger_of_run`). So no tunnel is closed twice, and all have been closed once
  the multiplexer has closed what it took (`Ledger.once`, `Ledger.count`).
-/

namespace SeamlessTunnel.Manager

open Multiplexer (Caller DeviceRef Operation)
open Multiplexer.State (takenDevices)
open State

namespace State

/-- All that the moves of a run show, in order. -/
def log {α : Type} (shows : State → Move → State → Effects → List α) : State → List Move → List α
  | _, [] => []
  | s, m :: ms =>
    match s.step m with
    | none => []
    | some (t, e) => shows s m t e ++ t.log shows ms

/-- The tunnels that the platform establishes in a move, with the ids under which they are
    handed in. -/
def establishedDevices (s : State) (_ : Move) (_ : State) (e : Effects) :
    List (DeviceId × DeviceRef) :=
  (e.calls.filterMap PlatformCall.device?).map (s.multiplexer.nextId, ·)

/-- The devices whose close the multiplexer starts in a move. -/
def startedDisposals (s : State) (_ : Move) (t : State) (_ : Effects) :
    List (DeviceId × DeviceRef) :=
  t.multiplexer.disposals.diff s.multiplexer.disposals

/-- The tunnels that the multiplexer refuses in a move, and whose close a job starts. -/
def refusedDevices (s : State) (_ : Move) (t : State) (_ : Effects) : List (DeviceId × DeviceRef) :=
  (t.discards.diff s.discards).map fun k => (s.multiplexer.nextId, k.2)

/-- The devices whose close is started in a move, each as often as it is. -/
def startedCloses (s : State) (m : Move) (t : State) (e : Effects) : List (DeviceId × DeviceRef) :=
  startedDisposals s m t e ++ refusedDevices s m t e

end State

/-- What a move adds to the account. -/
structure Posting (s : State) (m : Move) (ns : List Multiplexer.Move) (t : State) (e : Effects) :
    Prop where
  disposals : startedDisposals s m t e =
    s.multiplexer.log Multiplexer.State.startedDisposals ns
  established : establishedDevices s m t e =
    s.multiplexer.log takenDevices ns ++ refusedDevices s m t e
  /-- A tunnel gets a number of its own. -/
  numbered : establishedDevices s m t e = [] ∨ ∃ device,
    establishedDevices s m t e = [(s.multiplexer.nextId, device)] ∧
      t.multiplexer.added = s.multiplexer.added + 1
  refused : refusedDevices s m t e ≠ [] → s.multiplexer.isOver = true

/-- The account of a run of a manager, in which its multiplexer makes the moves `ns`. -/
structure Ledger (s₀ : State) (ms : List Move) (ns : List Multiplexer.Move) (s : State) :
    Prop where
  run : Multiplexer.Run s₀.multiplexer ns s.multiplexer
  disposals : s₀.log startedDisposals ms =
    s₀.multiplexer.log Multiplexer.State.startedDisposals ns
  established : (s₀.log establishedDevices ms).Perm
    (s₀.multiplexer.log takenDevices ns ++ s₀.log refusedDevices ms)
  unique : ((s₀.log establishedDevices ms).map (·.1)).Nodup
  numbers : ∀ k ∈ s₀.log establishedDevices ms, k.1.number ≤ s.multiplexer.added
  refused : s₀.log refusedDevices ms ≠ [] → s.multiplexer.isOver = true

section

variable {s₀ s t u : State} {m : Move} {e : Effects} {ms : List Move} {c : Caller}
  {ns : List Multiplexer.Move} {device : DeviceRef} {options : Options}

/-! ## Logs -/

section

variable {α : Type} {shows : State → Move → State → Effects → List α}

theorem log_cons (hs : s.step m = some (t, e)) :
    s.log shows (m :: ms) = shows s m t e ++ t.log shows ms := by
  simp [log, hs]

theorem Run.log_append {ns : List Move} (h : Run s ms t) :
    s.log shows (ms ++ ns) = s.log shows ms ++ t.log shows ns := by
  induction h generalizing ns with
  | nil => rfl
  | @snoc ms t u m e h ha hs ih =>
    rw [List.append_assoc, ih, ih, List.singleton_append, log_cons hs, log_cons hs]
    simp [log]

theorem Run.log_snoc (h : Run s ms t) (hs : t.step m = some (u, e)) :
    s.log shows (ms ++ [m]) = s.log shows ms ++ shows t m u e := by
  rw [h.log_append, log_cons hs]
  simp [log]

/-- What a run shows is shown by one of its moves. -/
theorem Run.mem_log (h : Run s₀ ms s) {x : α} (hx : x ∈ s₀.log shows ms) :
    ∃ ms₁ m ms₂ u v e, ms = ms₁ ++ m :: ms₂ ∧ Run s₀ ms₁ u ∧ u.step m = some (v, e) ∧
      x ∈ shows u m v e := by
  induction h with
  | nil => cases hx
  | @snoc ms s t m e h ha hs ih =>
    rw [h.log_snoc hs] at hx
    rcases List.mem_append.1 hx with hx | hx
    · obtain ⟨ms₁, m', ms₂, u, v, e', rfl, hu⟩ := ih hx
      exact ⟨ms₁, m', ms₂ ++ [m], u, v, e', by simp, hu⟩
    · exact ⟨ms, m, [], s, t, e, rfl, h, hs, hx⟩

end

/-- The closes of a run are those of the multiplexer and those of refused tunnels. -/
theorem log_startedCloses (s : State) (ms : List Move) :
    (s.log startedCloses ms).Perm (s.log startedDisposals ms ++ s.log refusedDevices ms) := by
  induction ms generalizing s with
  | nil => exact .nil
  | cons m ms ih =>
    unfold log
    cases s.step m with
    | none => exact .nil
    | some x =>
      simp only [startedCloses, List.append_assoc]
      refine .append_left _ (((ih x.1).append_left _).trans ?_)
      exact List.perm_append_comm_assoc ..

/-! ## Tunnels that are refused -/

theorem mem_discards {k : Caller × DeviceRef} : k ∈ s.discards ↔
    ∃ j ∈ s.jobs, j.caller = k.1 ∧ ∃ error, j.stage = .discarding k.2 error := by
  unfold discards
  rw [List.mem_filterMap]
  refine exists_congr fun j => and_congr_right fun _ => ?_
  obtain ⟨caller, task, stage⟩ := j
  cases stage with
  | discarding device error => simp [Prod.ext_iff]
  | _ => simp

theorem nodup_discards (h : Orderly s) : s.discards.Nodup := by
  have hsub : ∀ jobs : List Job,
      (({ s with jobs } : State).discards.map Prod.fst).Sublist (jobs.map Job.caller) := by
    intro jobs
    induction jobs with
    | nil => exact .slnil
    | cons j jobs ih =>
      obtain ⟨caller, task, stage⟩ := j
      cases stage with
      | discarding device error => exact ih.cons_cons _
      | _ => exact ih.cons _
  exact (h.single.sublist (hsub s.jobs)).of_map

/-- A job that begins or goes on is not closing its tunnel. -/
theorem Begins.not_discarding {p : Platform} {j : Job} {error : TunnelError}
    (b : Begins s c m p j ns u) : j.stage ≠ .discarding device error := by
  cases b with
  | enter hj hh hs => simp [hs]
  | resume hj hs hl =>
    intro he
    rw [he] at hs
    cases hs

theorem discards_dismiss : (s.dismiss c).discards ⊆ s.discards := fun k hk => by
  obtain ⟨j, hj, hk⟩ := mem_discards.1 hk
  exact mem_discards.2 ⟨j, mem_of_mem_dismiss hj, hk⟩

/-- While a job comes to another stage, no other has a tunnel to close. -/
theorem discards_setStage (h : Orderly s) {p : Platform} {j : Job} (b : Begins s c m p j ns u)
    {stage : Stage} {k : Caller × DeviceRef} :
    k ∈ (s.setStage c stage).discards ↔ k.1 = c ∧ ∃ error, stage = .discarding k.2 error := by
  rw [mem_discards]
  constructor
  · rintro ⟨l, hl, hc, hd⟩
    rcases mem_setStage h b.job (b.holder h) hl with ⟨rfl, hlc⟩ | ⟨-, -, hturn⟩
    · exact ⟨hc ▸ hlc, hd⟩
    · obtain ⟨error, hd⟩ := hd
      rw [hturn] at hd
      cases hd
  · rintro ⟨rfl, hd⟩
    obtain ⟨hj, hjc⟩ := mem_of_job? b.job
    refine ⟨{ j with stage }, List.mem_map.2 ⟨j, hj, if_pos hjc⟩, hjc, hd⟩

/-- The tunnel that a job is about to close is new. -/
theorem not_mem_discards {p : Platform} {j : Job} (b : Begins s c m p j ns u) (h : Orderly s)
    (device : DeviceRef) : (c, device) ∉ s.discards := by
  intro hk
  obtain ⟨l, hl, rfl, error, hd⟩ := mem_discards.1 hk
  obtain rfl := Option.some.inj (b.job.symm.trans (job?_of_mem h hl))
  exact b.not_discarding hd

theorem diff_discards (h : Orderly s) {p : Platform} {j : Job} {error : TunnelError}
    (b : Begins s c m p j ns u) (hn : (s.setStage c (.discarding device error)).discards.Nodup) :
    (s.setStage c (.discarding device error)).discards.diff s.discards = [(c, device)] := by
  refine List.perm_singleton.1 ((List.perm_ext_iff_of_nodup hn.diff (List.nodup_singleton _)).2
    fun k => ?_)
  rw [hn.mem_sdiff_iff, discards_setStage h b, List.mem_singleton]
  constructor
  · rintro ⟨⟨rfl, error, he⟩, -⟩
    rw [(Stage.discarding.inj he).1]
  · rintro rfl
    exact ⟨⟨rfl, error, rfl⟩, not_mem_discards b h device⟩

theorem refusedDevices_eq_nil (h : Orderly t) (hd : t.discards ⊆ s.discards) :
    refusedDevices s m t e = [] := by
  have hnil : t.discards.diff s.discards = [] := List.eq_nil_iff_forall_not_mem.2 fun k hk => by
    obtain ⟨hk, hn⟩ := (nodup_discards h).mem_sdiff_iff.1 hk
    exact hn (hd hk)
  rw [refusedDevices, hnil]
  rfl

/-- The tunnel that is refused in a move is the one that the job then closes. -/
theorem refusedDevices_setStage (h : Orderly s) {p : Platform} {j : Job} {error : TunnelError}
    {service : Option String} {v : Multiplexer.State} (b : Begins s c m p j ns u)
    (h' : Orderly (State.setStage { s with service, multiplexer := v } c (.discarding device error))) :
    refusedDevices s m
      (State.setStage { s with service, multiplexer := v } c (.discarding device error)) e =
      [(s.multiplexer.nextId, device)] := by
  have hnodup := nodup_discards h'
  have hnew : (s.setStage c (.discarding device error)).discards.diff s.discards = [(c, device)] :=
    diff_discards h b hnodup
  exact congrArg (List.map fun k => (s.multiplexer.nextId, k.2)) hnew

/-! ## What moves do -/

theorem Begins.isHolder {p : Platform} {j : Job} (b : Begins s c m p j ns u) :
    ∀ n ∈ ns, n.isHolder = true := by
  cases b with
  | enter hj hh hs => exact nofun
  | resume hj hs hl => exact fun n hn => List.mem_singleton.1 hn ▸ rfl

theorem Begins.no_add {p : Platform} {j : Job} (b : Begins s c m p j ns u) :
    ∀ n ∈ ns, ∀ device, n ≠ .add device := fun n hn => (b.calm (d := c) n hn).1

variable {settings : MultiplexerSettings} {ns₀ : List Multiplexer.Move}

/-- The manager itself starts no close of a device that was taken. -/
theorem Deed.disposals (d : Deed s m ns t e) (h : Orderly s)
    (hbegin : Multiplexer.Run (.init settings) ns₀ s.multiplexer) :
    startedDisposals s m t e = s.multiplexer.log Multiplexer.State.startedDisposals ns := by
  have hrun := d.run h
  have howner : (∀ n ∈ ns, n.isHolder = true ∨ ∃ device, n = .add device) →
      startedDisposals s m t e = s.multiplexer.log Multiplexer.State.startedDisposals ns := by
    intro hn
    obtain ⟨he, hlog⟩ := Multiplexer.State.disposals_of_owner hbegin hrun hn
    rw [hlog]
    exact Multiplexer.State.diff_disposals (hbegin.append hrun) he
  have hlast : ∀ {pre : List Multiplexer.Move} {last : Multiplexer.Move},
      (∀ n ∈ pre, n.isHolder = true) → (last.isHolder = true ∨ ∃ device, last = .add device) →
      ∀ n ∈ pre ++ [last], n.isHolder = true ∨ ∃ device, n = .add device := by
    intro pre last hpre hlast n hn
    rcases List.mem_append.1 hn with hn | hn
    · exact .inl (hpre n hn)
    · exact List.mem_singleton.1 hn ▸ hlast
  cases d with
  | engine hs => simp [Multiplexer.State.log, hs, startedDisposals, Multiplexer.State.startedDisposals]
  | asks b ha hs => exact howner (hlast b.isHolder (.inl rfl))
  | attaches b ht hb haddr ho => exact howner (hlast b.isHolder (.inr ⟨_, rfl⟩))
  | refused b ht hb ho => exact howner (hlast b.isHolder (.inr ⟨_, rfl⟩))
  | fails b ht hb hf => exact howner fun n hn => .inl (b.isHolder n hn)
  | closed b hs => exact howner fun n hn => .inl (b.isHolder n hn)
  | cancels hs => exact howner fun n hn => .inl (List.mem_singleton.1 hn ▸ rfl)
  | starts hs => exact howner (by simp)
  | unchanged hj hh ha => exact howner (by simp)
  | discarded hj hs => exact howner (by simp)
  | quits hc => exact howner (by simp)

/-- What a move adds to the account if the platform establishes nothing in it. -/
theorem posting_of_nothing (d : Deed s m ns t e) (h : Orderly s) (h' : Orderly t)
    (hbegin : Multiplexer.Run (.init settings) ns₀ s.multiplexer)
    (he : e.calls.filterMap PlatformCall.device? = []) (hd : t.discards ⊆ s.discards)
    (hn : ∀ n ∈ ns, ∀ device, n ≠ .add device) : Posting s m ns t e := by
  have hnone : establishedDevices s m t e = [] := by rw [establishedDevices, he]; rfl
  have hrefused := refusedDevices_eq_nil (m := m) (e := e) h' hd
  refine ⟨d.disposals h hbegin, ?_, .inl hnone, fun hn => absurd hrefused hn⟩
  rw [hnone, hrefused, Multiplexer.State.log_takenDevices_eq_nil (d.run h) hn]
  rfl

/-- What the multiplexer makes of a tunnel that is handed in last of all in a move. -/
theorem Begins.handIn {p : Platform} {j : Job} (b : Begins s c m p j ns u) (h : Orderly s)
    (device : DeviceRef) :
    (u.multiplexer.add device).2.added = s.multiplexer.added + 1 ∧
      s.multiplexer.log takenDevices (ns ++ [.add device]) =
        if s.multiplexer.isOver then [] else [(s.multiplexer.nextId, device)] := by
  obtain ⟨_, _, hu⟩ := b.multiplexer
  obtain ⟨_, hadd⟩ := Multiplexer.State.add_parts u.multiplexer device
  have hover : u.multiplexer.isOver = s.multiplexer.isOver := by rw [hu]; rfl
  have hid : u.multiplexer.nextId = s.multiplexer.nextId := by rw [hu]; rfl
  have hstep : u.multiplexer.step (.add device) = some (u.multiplexer.add device).2 := by
    simp [Multiplexer.State.step, (b.free h).1]
  refine ⟨by rw [hadd, hu], ?_⟩
  rw [b.run.log_append, Multiplexer.State.log_takenDevices_eq_nil b.run b.no_add,
    Multiplexer.State.log_cons hstep, ← hover, ← hid]
  cases ho : u.multiplexer.isOver with
  | true => simp [Multiplexer.State.takenDevices_of_over ho, Multiplexer.State.log]
  | false => simp [Multiplexer.State.takenDevices_eq ho, Multiplexer.State.log]

theorem establishedDevices_building {service : String} {calls : List BuilderCall}
    (hc : e.calls = building service calls device) :
    establishedDevices s m t e = [(s.multiplexer.nextId, device)] := by
  rw [establishedDevices, hc, devices_building]
  rfl

theorem posting_of_deed (h : Orderly s) (h' : Orderly t)
    (hbegin : Multiplexer.Run (.init settings) ns₀ s.multiplexer) (ha : s.allows m = true)
    (d : Deed s m ns t e) : Posting s m ns t e := by
  have hsingle : ∀ {n : Multiplexer.Move}, (∀ device, n ≠ .add device) →
      ∀ n' ∈ [n], ∀ device, n' ≠ .add device := fun hn n' hn' => List.mem_singleton.1 hn' ▸ hn
  have hnothing := posting_of_nothing d h h' hbegin
  have hdisposals := d.disposals h hbegin
  cases d with
  | starts hs =>
    refine hnothing rfl (fun k hk => ?_) nofun
    obtain ⟨-, _, _, -, rfl⟩ := start_cases hs
    obtain ⟨j, hj, hk⟩ := mem_discards.1 hk
    rcases List.mem_append.1 hj with hj | hj
    · exact mem_discards.2 ⟨j, hj, hk⟩
    · obtain ⟨-, error, hk⟩ := hk
      rw [List.mem_singleton.1 hj] at hk
      cases hk
  | unchanged hj hh ha' => exact hnothing rfl discards_dismiss nofun
  | asks b hasks hs =>
    refine hnothing rfl (fun k hk => ?_) ?_
    · obtain ⟨-, error, rfl⟩ := (discards_setStage h b).1 hk
      cases hasks.waits
    · intro n hn
      rcases List.mem_append.1 hn with hn | hn
      · exact b.no_add n hn
      · exact hsingle (n := .call _ _) nofun n hn
  | fails b ht hb hf haddr hmade =>
    refine hnothing ?_ (fun k hk => ?_) b.no_add
    · exact List.filterMap_eq_nil_iff.2 fun call hc => by
        rcases List.mem_cons.1 hc with rfl | hc
        · rfl
        · exact hmade.devices call hc
    · obtain ⟨j, hj, hk⟩ := mem_discards.1 (discards_dismiss hk)
      exact mem_discards.2 ⟨j, by rw [← b.jobs]; exact hj, hk⟩
  | @attaches _ c p j pre u service a chromeOs device b ht hb haddr ho =>
    obtain ⟨_, _, hu⟩ := b.multiplexer
    have hover : s.multiplexer.isOver = false := by rw [hu] at ho; exact ho
    obtain ⟨hadded, htaken⟩ := b.handIn h device
    have hrefused : ∀ e, refusedDevices s m _ e = [] := fun e =>
      refusedDevices_eq_nil h' discards_dismiss
    refine ⟨hdisposals, ?_, .inr ⟨device, establishedDevices_building rfl, ?_⟩,
      fun hn => absurd (hrefused _) hn⟩
    · rw [establishedDevices_building rfl, hrefused, htaken, hover]
      rfl
    · rw [multiplexer_dismiss]
      exact hadded
  | @refused _ c p j pre u service a chromeOs device b ht hb ho =>
    obtain ⟨_, _, hu⟩ := b.multiplexer
    have hover : s.multiplexer.isOver = true := by rw [hu] at ho; exact ho
    obtain ⟨hadded, htaken⟩ := b.handIn h device
    refine ⟨hdisposals, ?_, .inr ⟨device, establishedDevices_building rfl, hadded⟩,
      fun _ => hover⟩
    rw [establishedDevices_building rfl, htaken, hover, refusedDevices_setStage h b h']
    rfl
  | closed b hs =>
    refine hnothing rfl (fun k hk => ?_) b.no_add
    obtain ⟨j, hj, hk⟩ := mem_discards.1 (discards_dismiss hk)
    exact mem_discards.2 ⟨j, by rw [← b.jobs]; exact hj, hk⟩
  | discarded hj hs => exact hnothing rfl discards_dismiss nofun
  | quits hc => exact hnothing rfl discards_dismiss nofun
  | cancels hs => exact hnothing rfl discards_dismiss (hsingle nofun)
  | @engine n v hs =>
    refine hnothing rfl (fun _ hk => hk) (hsingle ?_)
    rintro device rfl
    cases ha

/-! ## Over a run -/

theorem Ledger.step {ns' : List Multiplexer.Move} (l : Ledger s₀ ms ns s)
    (hbegin : Multiplexer.Run (.init settings) ns s.multiplexer) (h : Run s₀ ms s)
    (hs : s.step m = some (t, e)) (hrun : Multiplexer.Run s.multiplexer ns' t.multiplexer)
    (p : Posting s m ns' t e) : Ledger s₀ (ms ++ [m]) (ns ++ ns') t := by
  have hnumbers : ∀ k ∈ establishedDevices s m t e, k.1 = s.multiplexer.nextId ∧
      t.multiplexer.added = s.multiplexer.added + 1 := by
    intro k hk
    rcases p.numbered with hnone | ⟨device, hone, hadded⟩
    · rw [hnone] at hk
      cases hk
    · rw [hone, List.mem_singleton] at hk
      exact ⟨congrArg Prod.fst hk, hadded⟩
  have hover : s.multiplexer.isOver = true → t.multiplexer.isOver = true :=
    Multiplexer.State.isOver_of_moves hrun
  refine ⟨l.run.append hrun, ?_, ?_, ?_, ?_, ?_⟩
  · rw [h.log_snoc hs, l.run.log_append, l.disposals, p.disposals]
  · rw [h.log_snoc hs, h.log_snoc hs, l.run.log_append, p.established]
    refine (l.established.append_right _).trans ?_
    simp only [List.append_assoc]
    exact .append_left _ (List.perm_append_comm_assoc ..)
  · rw [h.log_snoc hs, List.map_append]
    refine List.nodup_append.2 ⟨l.unique, ?_, ?_⟩
    · rcases p.numbered with hnone | ⟨device, hone, -⟩
      · rw [hnone]
        exact List.nodup_nil
      · rw [hone]
        exact List.nodup_singleton _
    · rintro id hid _ hid' rfl
      obtain ⟨k, hk, rfl⟩ := List.mem_map.1 hid
      obtain ⟨k', hk', he⟩ := List.mem_map.1 hid'
      have hle := l.numbers k hk
      rw [← he, (hnumbers k' hk').1] at hle
      exact Nat.not_succ_le_self _ hle
  · rw [h.log_snoc hs]
    intro k hk
    rcases List.mem_append.1 hk with hk | hk
    · exact Nat.le_trans (l.numbers k hk) (Multiplexer.State.added_of_moves hbegin hrun)
    · rw [(hnumbers k hk).1, (hnumbers k hk).2]
      exact Nat.le_refl _
  · rw [h.log_snoc hs]
    intro hn
    by_cases hold : s₀.log refusedDevices ms = []
    · rw [hold, List.nil_append] at hn
      exact hover (p.refused hn)
    · exact hover (l.refused hold)

theorem ledger_of_run (hstart : Manager.start options = .ok s₀) (h : Run s₀ ms s) :
    ∃ ns, Ledger s₀ ms ns s := by
  induction h with
  | nil => exact ⟨[], .nil _, rfl, .nil, List.nodup_nil, nofun, fun hn => absurd rfl hn⟩
  | @snoc ms s t m e h ha hs ih =>
    obtain ⟨ns, l⟩ := ih
    obtain ⟨hord, hord', ⟨ns', d⟩, -⟩ := deed_of_run hstart h ha hs
    have hbegin := l.run
    rw [multiplexer_start hstart] at hbegin
    exact ⟨ns ++ ns', l.step hbegin h hs (d.run hord) (posting_of_deed hord hord' hbegin ha d)⟩

theorem Ledger.mem_closes (l : Ledger s₀ ms ns s) {k : DeviceId × DeviceRef} :
    k ∈ s₀.log startedCloses ms ↔
      k ∈ s₀.multiplexer.log Multiplexer.State.startedDisposals ns ∨
        k ∈ s₀.log refusedDevices ms := by
  rw [(log_startedCloses s₀ ms).mem_iff, List.mem_append, l.disposals]

theorem Ledger.mem_established (l : Ledger s₀ ms ns s) {k : DeviceId × DeviceRef} :
    k ∈ s₀.log establishedDevices ms ↔
      k ∈ s₀.multiplexer.log takenDevices ns ∨ k ∈ s₀.log refusedDevices ms := by
  rw [l.established.mem_iff, List.mem_append]

/-- What is closed was established. -/
theorem Ledger.owned (l : Ledger s₀ ms ns s) (hinit : s₀.multiplexer = .init settings) :
    s₀.log startedCloses ms ⊆ s₀.log establishedDevices ms := by
  intro k hk
  have hrun := l.run
  rw [hinit] at hrun
  refine l.mem_established.2 ((l.mem_closes.1 hk).imp_left fun hk => ?_)
  rw [hinit] at hk ⊢
  exact (Multiplexer.State.disposing_of_run hrun).owned hk

/-- No tunnel is closed twice. -/
theorem Ledger.once (l : Ledger s₀ ms ns s) (hinit : s₀.multiplexer = .init settings) :
    ((s₀.log startedCloses ms).map (·.1)).Nodup := by
  have hrun := l.run
  rw [hinit] at hrun
  have hdisposing := Multiplexer.State.disposing_of_run hrun
  have hunique := (l.established.map (·.1)).nodup_iff.1 l.unique
  rw [hinit, List.map_append] at hunique
  obtain ⟨-, hrefused, hapart⟩ := List.nodup_append.1 hunique
  rw [((log_startedCloses s₀ ms).map (·.1)).nodup_iff, l.disposals, hinit, List.map_append]
  refine List.nodup_append.2 ⟨hdisposing.once, hrefused, fun id hid => hapart id ?_⟩
  exact List.map_subset _ hdisposing.owned hid

/-- A tunnel that is closed is closed once. -/
theorem Ledger.count (l : Ledger s₀ ms ns s) (hinit : s₀.multiplexer = .init settings)
    {k : DeviceId × DeviceRef} (hk : k ∈ s₀.log startedCloses ms) :
    (s₀.log startedCloses ms).count k = 1 :=
  List.count_eq_one_of_mem (l.once hinit).of_map hk

end

end SeamlessTunnel.Manager
