import SeamlessTunnel.Proofs.Manager.Leaks
/-
  SeamlessTunnel.Proofs.Manager.Exclusion — tunnels that do not overlap.

  Without seamless handover, and on ChromeOS, an update closes all tunnels first. When it asks
  the platform for its own, the close of every tunnel that was established before has come
  to its end, however it ended, and whoever was to close it. So from the first tunnel of such
  an update on, and as long as no other updates begin, at most one tunnel is open
  (`closedFirst_of_run`).

  A coordinator that has crashed answers the shutdown all the same, and closes nothing. Then
  the next tunnel is established beside one that is open. Two are also open while such an
  update still waits for those that seamless updates have left (`tunnels_overlap`).
-/

namespace SeamlessTunnel.Manager

open Multiplexer (Caller DeviceRef)
open State

/-- The close of a tunnel has come to its end: a close of the multiplexer, or of the job to
    which the tunnel was refused. -/
inductive Finished (s₀ : State) (ms : List Move) (k : DeviceId × DeviceRef) : Prop
  | returned {out : Outcome Unit} (hout : .multiplexer (.closeReturned k.1 out) ∈ ms)
      (ho : out ≠ .crash) : Finished s₀ ms k
  | discarded {ms₁ ms₂ : List Move} {c : Caller} (hms : ms = ms₁ ++ .discarded c :: ms₂)
      (h : RefusedTo s₀ ms₁ c k) : Finished s₀ ms k

/-- The job of a caller has begun where all tunnels are to be closed first. -/
def ClosesFirst (s₀ : State) (ms : List Move) (c : Caller) : Prop :=
  ∃ ms₁ p ms₂ u, ms = ms₁ ++ .enter c p :: ms₂ ∧ Run s₀ ms₁ u ∧ ¬ Seamless u p ∧
    ∀ task, .start c task ∉ ms₂

/-- All updates that begin in a run close the tunnels first. -/
def AllCloseFirst (s : State) (ms : List Move) : Prop :=
  ∀ ms₁ c p ms₂ u service router dns, ms = ms₁ ++ .enter c p :: ms₂ → Run s ms₁ u →
    u.job? c = some ⟨c, .update service router dns, .turn⟩ → ¬ Seamless u p

/-- The platform is asked for a tunnel, whatever comes of it. -/
def Effects.Establishes (e : Effects) : Prop :=
  ∃ out, .establish out ∈ e.calls

/-- Tunnels of updates that close all others first do not overlap with any. -/
structure ClosedFirst (s₀ : State) (ms : List Move) (s : State) : Prop where
  first : ∀ m t e c, s.step m = some (t, e) → m.caller? = some c →
    ClosesFirst s₀ (ms ++ [m]) c → e.Establishes → s.multiplexer.coordinator ≠ .crashed →
    ∀ k ∈ s₀.log establishedDevices ms, Finished s₀ ms k
  /-- Once one of them has established a tunnel, at most one is open. -/
  single : ∀ ms₁ ms₂ v, ms = ms₁ ++ ms₂ → Run s₀ ms₁ v → AllCloseFirst v ms₂ →
    v.log establishedDevices ms₂ ≠ [] → s.multiplexer.coordinator ≠ .crashed →
    ∀ k ∈ s₀.log establishedDevices ms, ∀ l ∈ s₀.log establishedDevices ms,
      ¬ Finished s₀ ms k → ¬ Finished s₀ ms l → k = l

section

variable {s₀ s t u v : State} {m : Move} {e : Effects} {ms ms₁ ms₂ ns : List Move} {c : Caller}
  {mux : List Multiplexer.Move} {options : Options} {p : Platform} {j : Job}
  {k : DeviceId × DeviceRef}

theorem Finished.append (h : Finished s₀ ms k) : Finished s₀ (ms ++ ns) k := by
  cases h with
  | returned hout ho => exact .returned (List.mem_append_left _ hout) ho
  | @discarded ms₁ ms₂ c hms h =>
    have hlonger : ms ++ ns = ms₁ ++ .discarded c :: (ms₂ ++ ns) := by simp [hms]
    exact .discarded hlonger h

theorem not_finished (hreturned : ¬ Reported ms k.1) (hdiscarded : ∀ c, .discarded c ∉ ms) :
    ¬ Finished s₀ ms k := by
  intro h
  cases h with
  | returned hout ho => exact hreturned ⟨_, hout⟩
  | @discarded _ _ c hms h => exact hdiscarded c (by simp [hms])

theorem AllCloseFirst.before (h : AllCloseFirst s (ms ++ ns)) : AllCloseFirst s ms :=
  fun ms₁ c p ms₂ u service router dns he =>
    h ms₁ c p (ms₂ ++ ns) u service router dns (by simp [he])

/-! ## Which updates establish tunnels -/

/-- Calls on the platform are made by updates that come to build. -/
theorem Deed.builds (d : Deed s m mux t e) (he : e.calls ≠ []) :
    ∃ c p j pre u service a chromeOs, Begins s c m p j pre u ∧
      j.task = .update service a.router a.dns ∧ ToBuild s p a j.stage chromeOs := by
  cases d with
  | fails b ht hb hf => exact ⟨_, _, _, _, _, _, _, _, b, ht, hb⟩
  | attaches b ht hb haddr ho => exact ⟨_, _, _, _, _, _, _, _, b, ht, hb⟩
  | refused b ht hb ho => exact ⟨_, _, _, _, _, _, _, _, b, ht, hb⟩
  | _ => exact absurd rfl he

theorem Effects.Establishes.calls (h : e.Establishes) : e.calls ≠ [] := by
  obtain ⟨out, hout⟩ := h
  exact List.ne_nil_of_mem hout

theorem calls_of_established (hk : establishedDevices s m t e ≠ []) : e.calls ≠ [] := fun hnil =>
  hk (by rw [establishedDevices, hnil]; rfl)

/-- A job that has begun does not wait for its turn again. -/
theorem begun_of_run (hstart : Manager.start options = .ok s₀) (h : Run s₀ ms u)
    (hs : u.step (.enter c p) = some (v, e)) (hrest : Run v ns s)
    (hn : ∀ task, .start c task ∉ ns) : ∀ j ∈ s.jobs, j.caller = c → j.stage ≠ .turn := by
  have hbegun : Run s₀ (ms ++ [.enter c p]) v := .snoc h rfl hs
  -- whoever comes to another stage by a move of its own no longer waits for its turn
  have harrival : ∀ {ms s m t e}, Run s₀ ms s → s.allows m = true → s.step m = some (t, e) →
      (∀ task, m ≠ .start c task) → ∀ j ∈ t.jobs, j.caller = c →
      (j ∈ s.jobs ∧ m.caller? ≠ some c) ∨ j.stage ≠ .turn := by
    rintro ms s m t e h' ha hs' hm j hj rfl
    obtain ⟨hord, hord', ⟨_, d⟩, -⟩ := deed_of_run hstart h' ha hs'
    rcases arrival_of_deed hord hord' d hj with
      hold | ⟨hstarts, -⟩ | ⟨-, hw | ⟨device, error, hstage, -⟩⟩
    · exact .inl hold
    · exact absurd hstarts (hm _)
    · exact .inr fun hturn => by simp [hturn, Stage.waits] at hw
    · exact .inr (by simp [hstage])
  induction hrest with
  | nil =>
    intro j hj hc
    exact (harrival h rfl hs (fun _ he => by cases he) j hj hc).resolve_left fun hold => hold.2 rfl
  | @snoc ns s t m e hrest ha hs' ih =>
    intro j hj hc
    have hm : ∀ task, m ≠ .start c task := fun task he =>
      hn task (List.mem_append_right _ (he ▸ List.mem_singleton_self _))
    rcases harrival (hbegun.append hrest) ha hs' hm j hj hc with ⟨hold, -⟩ | hne
    · exact ih (fun task hmem => hn task (List.mem_append_left _ hmem)) j hold hc
    · exact hne

/-- An update that closes the tunnels first comes to build when the shutdown is over. -/
theorem ClosesFirst.cleared (hc : ClosesFirst s₀ (ms ++ [m]) c)
    (hstart : Manager.start options = .ok s₀) (h : Run s₀ ms s) {a : Applied} {chromeOs : Bool}
    (b : Begins s c m p j mux u) (hb : ToBuild s p a j.stage chromeOs) :
    j.stage = .clearing chromeOs := by
  generalize hstage : j.stage = stage at hb
  cases hb with
  | cleared => rfl
  | seamless hs hp hne =>
    exfalso
    obtain ⟨ms₁, p', ms₂, v, he, hv, hfirst, hn⟩ := hc
    rcases List.eq_nil_or_concat' ms₂ with rfl | ⟨ms₃, m', rfl⟩
    · -- it begins with this move
      obtain ⟨rfl, hm⟩ := List.append_inj' he rfl
      obtain rfl := List.singleton_inj.1 hm
      obtain rfl := hv.unique h
      cases b with
      | enter hj hh hturn => exact hfirst ⟨hs, hp⟩
    · -- it has begun before
      rw [← List.cons_append, ← List.append_assoc] at he
      obtain ⟨rfl, -⟩ := List.append_inj' he rfl
      obtain ⟨w, e, -, henter, hrest⟩ := h.split hv
      obtain ⟨hmem, hcaller⟩ := mem_of_job? b.job
      refine begun_of_run hstart hv henter hrest (fun task hmem => hn task ?_) j hmem hcaller hstage
      exact List.mem_append_left _ hmem

/-- So does any update while all close the tunnels first. -/
theorem AllCloseFirst.cleared (hall : AllCloseFirst v (ns ++ [m])) (hrest : Run v ns s)
    (b : Begins s c m p j mux u) {service : String} {a : Applied} {chromeOs : Bool}
    (ht : j.task = .update service a.router a.dns) (hb : ToBuild s p a j.stage chromeOs) :
    j.stage = .clearing chromeOs := by
  generalize hstage : j.stage = stage at hb
  cases hb with
  | cleared => rfl
  | seamless hon hp hdiffers =>
    cases b with
    | enter hj hh hturn =>
      obtain ⟨caller, task, jobStage⟩ := j
      obtain ⟨-, rfl⟩ := mem_of_job? hj
      obtain rfl : task = _ := ht
      obtain rfl : jobStage = .turn := hturn
      exact absurd ⟨hon, hp⟩ (hall ns _ p [] s _ _ _ rfl hrest hj)
    | resume hj hw hl =>
      rw [hstage] at hw
      cases hw

/-- When the shutdown has been answered, a platform that refuses nothing is asked for a tunnel. -/
theorem exists_establishes {service : String} {a : Applied} {chromeOs : Bool} {x : Multiplexer.Answer}
    {device : DeviceRef}
    (hj : s.job? c = some ⟨c, .update service a.router a.dns, .clearing chromeOs⟩)
    (hx : s.multiplexer.answer? c = some x) (haddr : a.router.localAddresses ≠ [])
    (hp : p.Accepts (plan s.options chromeOs a.router a.dns)) (hd : p.establish = .tunnel device) :
    ∃ t e, s.step (.resume c p) = some (t, e) ∧ e.Establishes := by
  obtain ⟨calls, events, hresume⟩ := resume_eq (p := p) hj hx
  rw [proceed_eq haddr] at hresume
  have hasked : ∀ u : State, u.options = s.options → .establish (.tunnel device) ∈
      (u.build c service a.router a.dns chromeOs p).2.calls :=
    fun u hu => establish_build (by rwa [hu]) hd
  have hcalls := hasked { s with multiplexer := { s.multiplexer with calls, events } } rfl
  generalize State.build _ c service a.router a.dns chromeOs p = x at hresume hcalls
  exact ⟨x.1, x.2, hresume, _, hcalls⟩

/-! ## When their closes have ended -/

/-- The close of a tunnel that was refused has come to its end, or its job still waits for it. -/
theorem refused_of_run (hstart : Manager.start options = .ok s₀) (h : Run s₀ ms s)
    (hm : ∀ c, .cancel c ∉ ms) : ∀ k ∈ s₀.log refusedDevices ms, Finished s₀ ms k ∨
      ∃ j ∈ s.jobs, (∃ error, j.stage = .discarding k.2 error) ∧ RefusedTo s₀ ms j.caller k := by
  induction h with
  | nil => exact nofun
  | @snoc ms s t m e h ha hs ih =>
    intro k hk
    obtain ⟨hord, hord', ⟨_, d⟩, -⟩ := deed_of_run hstart h ha hs
    rw [h.log_snoc hs] at hk
    rcases List.mem_append.1 hk with hk | hk
    · rcases ih (fun c hc => hm c (List.mem_append_left _ hc)) k hk with
        hfinished | ⟨j, hj, ⟨error, hstage⟩, hrefused⟩
      · exact .inl hfinished.append
      · by_cases hown : m.caller? = some j.caller
        · -- all that is left to the job is to close its tunnel
          obtain ⟨l, hl, ⟨_, _, _, b⟩ | ⟨rfl, -⟩⟩ := d.own hown
          · obtain rfl := Option.some.inj (b.job.symm.trans (job?_of_mem hord hj))
            exact absurd hstage b.not_discarding
          · exact .inl (.discarded rfl hrefused)
        · refine .inr ⟨j, d.keeps hj hown ?_, ⟨error, hstage⟩, hrefused.snoc (d.not_start hj)⟩
          rintro rfl
          exact hm _ (List.mem_append_right _ (List.mem_singleton_self _))
    · obtain ⟨⟨c, device⟩, hd, rfl⟩ := List.mem_map.1 hk
      obtain ⟨hd, hnew⟩ := (nodup_discards hord').mem_sdiff_iff.1 hd
      obtain ⟨j, hj, hc, error, hstage⟩ := mem_discards.1 hd
      rcases arrival_of_deed hord hord' d hj with
        ⟨hold, -⟩ | ⟨-, hturn⟩ | ⟨hown, hw | ⟨device', error', hstage', hestablished, hrefused⟩⟩
      · exact absurd (mem_discards.2 ⟨j, hold, hc, error, hstage⟩) hnew
      · cases hstage.symm.trans hturn
      · rw [hstage] at hw
        cases hw
      · obtain ⟨rfl, -⟩ := Stage.discarding.inj (hstage.symm.trans hstage')
        exact .inr ⟨j, hj, ⟨error, hstage⟩, ms, m, [], s, t, e, rfl, h, hs, hown, nofun,
          hestablished, hrefused⟩

/-- A tunnel that a move hands in is refused, or the multiplexer is not over. -/
theorem handedIn_of_deed {settings : MultiplexerSettings} {ns₀ : List Multiplexer.Move}
    (h : Orderly s) (h' : Orderly t) (ha : s.allows m = true) (d : Deed s m mux t e)
    (hbegin : Multiplexer.Run (.init settings) ns₀ s.multiplexer)
    (hadded : t.multiplexer.added ≠ s.multiplexer.added) : ∃ c p j pre u, Begins s c m p j pre u ∧
      (s.multiplexer.isOver = false ∨ ∃ device,
        refusedDevices s m t e = [(s.multiplexer.nextId, device)]) := by
  have hnothing : ¬ ∀ n ∈ mux, ∀ device, n ≠ .add device := fun hn =>
    hadded (Multiplexer.State.added_eq_of_moves hbegin (d.run h) hn)
  have hsingle : ∀ {n : Multiplexer.Move}, (∀ device, n ≠ .add device) →
      ∀ n' ∈ [n], ∀ device, n' ≠ .add device := fun hn n' hn' => List.mem_singleton.1 hn' ▸ hn
  cases d with
  | attaches b ht hb haddr ho =>
    obtain ⟨_, _, hu⟩ := b.multiplexer
    rw [hu] at ho
    exact ⟨_, _, _, _, _, b, .inl ho⟩
  | refused b ht hb ho => exact ⟨_, _, _, _, _, b, .inr ⟨_, refusedDevices_setStage h b h'⟩⟩
  | asks b hasks hs =>
    refine absurd (fun n hn => ?_) hnothing
    exact (List.mem_append.1 hn).elim (b.no_add n) (hsingle (n := .call _ _) nofun n)
  | fails b ht hb hf => exact absurd b.no_add hnothing
  | closed b hs => exact absurd b.no_add hnothing
  | cancels hs => exact (hnothing (hsingle nofun)).elim
  | engine hs =>
    refine absurd (hsingle ?_) hnothing
    rintro device rfl
    cases ha
  | _ => exact (hnothing nofun).elim

/-- In a run that nobody disturbs, a tunnel that was handed in late was refused. -/
theorem refused_of_late (hstart : Manager.start options = .ok s₀) (h : Run s₀ ms s)
    (hu : Undisturbed ms) (hk : k ∈ s₀.log establishedDevices ms) (hl : HandedInLate s₀ ms k.1) :
    k ∈ s₀.log refusedDevices ms := by
  obtain ⟨ms₁, m, ms₂, u, v, e, rfl, hu₁, hs, hadded, hid, hlate⟩ := hl
  obtain ⟨_, _, ha, -⟩ := h.split hu₁
  obtain ⟨hord, hord', ⟨_, d⟩, _, hbegin⟩ := deed_of_run hstart hu₁ ha hs
  obtain ⟨c, p, j, pre, w, b, hopen | ⟨device, hrefused⟩⟩ :=
    handedIn_of_deed hord hord' ha d hbegin (by simp [hadded])
  · -- no close is on its way when a tunnel is handed in
    rcases hlate with hover | hclosing
    · cases hopen.symm.trans hover
    · exact absurd hclosing (b.not_closingSoon hstart hu₁ hu.before)
  · have hmem : (k.1, device) ∈ s₀.log refusedDevices (ms₁ ++ m :: ms₂) := by
      rw [hu₁.log_append, log_cons hs, hrefused, hid]
      simp
    obtain ⟨_, l⟩ := ledger_of_run hstart h
    have hsame := List.inj_on_of_nodup_map l.unique (l.mem_established.2 (.inr hmem)) hk rfl
    rwa [← hsame]

/-- When an update that has closed the tunnels first goes on, all closes have come to their
    end. -/
theorem finished_of_clearing (hstart : Manager.start options = .ok s₀) (h : Run s₀ ms s)
    (hu : Undisturbed ms) (b : Begins s c m p j mux u) {chromeOs : Bool}
    (hj : j.stage = .clearing chromeOs) (hc : s.multiplexer.coordinator ≠ .crashed) :
    ∀ k ∈ s₀.log establishedDevices ms, Finished s₀ ms k := by
  intro k hk
  have hord := (orderly_of_run hstart h).1
  obtain ⟨_, hrun⟩ := multiplexer_run hstart h
  obtain ⟨hmem, rfl⟩ := mem_of_job? b.job
  have hw := b.answered hord (Multiplexer.State.accounted_of_run hrun).callers
  obtain ⟨_, l⟩ := ledger_of_run hstart h
  have hpositive : 0 < k.1.number := by
    obtain ⟨_, _, _, _, _, _, -, -, -, hnew⟩ := h.mem_log hk
    obtain ⟨_, -, rfl⟩ := List.mem_map.1 hnew
    exact Nat.succ_pos _
  rcases (ended_of_clearing hstart h hmem hj hw hc).2 k.1 hpositive (l.numbers k hk) with
    ⟨out, hout, ho⟩ | hlate
  · exact .returned hout ho
  · have hrefused := refused_of_late hstart h hu hk hlate
    refine (refused_of_run hstart h hu.uncancelled k hrefused).resolve_right ?_
    -- another job would be at work
    rintro ⟨j', hj', ⟨error, hstage⟩, -⟩
    have hholder := hord.turn j' hj' (by simp [hstage])
    rw [b.holder hord] at hholder
    have hsame := List.inj_on_of_nodup_map hord.single hmem hj' (Option.some.inj hholder)
    rw [hsame, hstage] at hj
    cases hj

/-! ## Over a run -/

/-- As long as all updates close the tunnels first, at most one is open. -/
theorem single_of_run (hstart : Manager.start options = .ok s₀) (h : Run s₀ ms v)
    (hrest : Run v ns s) (hu : Undisturbed (ms ++ ns)) (hall : AllCloseFirst v ns)
    (hne : v.log establishedDevices ns ≠ []) (hc : s.multiplexer.coordinator ≠ .crashed) :
    ∀ k ∈ s₀.log establishedDevices (ms ++ ns), ∀ l ∈ s₀.log establishedDevices (ms ++ ns),
      ¬ Finished s₀ (ms ++ ns) k → ¬ Finished s₀ (ms ++ ns) l → k = l := by
  induction hrest with
  | nil => exact absurd rfl hne
  | @snoc ns s t m e hrest ha hs ih =>
    have hrun := h.append hrest
    obtain ⟨hord, hord', ⟨_, d⟩, _, hbegin⟩ := deed_of_run hstart hrun ha hs
    have hopen : s.multiplexer.coordinator ≠ .crashed := fun hcrashed =>
      hc (Multiplexer.State.crashed_of_moves (d.run hord) hcrashed)
    rw [← List.append_assoc] at hu ⊢
    have hlog : s₀.log establishedDevices (ms ++ ns ++ [m]) =
        s₀.log establishedDevices (ms ++ ns) ++ establishedDevices s m t e := hrun.log_snoc hs
    rw [hlog]
    by_cases hnew : establishedDevices s m t e = []
    · rw [hrest.log_snoc hs, hnew, List.append_nil] at hne
      rw [hnew, List.append_nil]
      exact fun k hk l hl hnk hnl => ih hu.before hall.before hne hopen k hk l hl
        (fun hf => hnk hf.append) fun hf => hnl hf.append
    · -- the new tunnel is the only one that is open
      obtain ⟨c, p, j, pre, u, service, a, chromeOs, b, ht, hb⟩ := d.builds (calls_of_established hnew)
      have hfinished := finished_of_clearing hstart hrun hu.before b (hall.cleared hrest b ht hb) hopen
      have hlast : ∀ k ∈ s₀.log establishedDevices (ms ++ ns) ++ establishedDevices s m t e,
          ¬ Finished s₀ (ms ++ ns ++ [m]) k → k ∈ establishedDevices s m t e := fun k hk hn =>
        (List.mem_append.1 hk).resolve_left fun hold => hn (hfinished k hold).append
      obtain ⟨device, hone, -⟩ :=
        (posting_of_deed hord hord' hbegin ha d).numbered.resolve_left hnew
      rw [hone] at hlast ⊢
      exact fun k hk l hl hnk hnl => (List.mem_singleton.1 (hlast k hk hnk)).trans
        (List.mem_singleton.1 (hlast l hl hnl)).symm

/-- An update that closes all tunnels first asks for its own when the others are closed, and so
    they do not overlap. -/
theorem closedFirst_of_run (hstart : Manager.start options = .ok s₀) (h : Run s₀ ms s)
    (hu : Undisturbed ms) : ClosedFirst s₀ ms s := by
  constructor
  · intro m t e c hs hm hfirst he hc
    obtain ⟨_, d⟩ := deed_of_step (orderly_of_run hstart h).1 hs
    obtain ⟨c', p, j, pre, u, service, a, chromeOs, b, -, hb⟩ := d.builds he.calls
    obtain rfl := b.caller_eq hm
    exact finished_of_clearing hstart h hu b (hfirst.cleared hstart h b hb) hc
  · rintro ms₁ ms₂ v rfl hv hall hne hc
    obtain ⟨v', hv', hrest⟩ := h.append_inv
    obtain rfl := hv'.unique hv
    exact single_of_run hstart hv hrest hu hall hne hc

end

/-- A platform on ChromeOS that refuses nothing. -/
def chromeGranting (device : DeviceRef) : Platform :=
  { granting device with chromeOs := true }

/-- The first tunnel is closed for the second update, on ChromeOS. -/
def clearingMoves : List Move :=
  firstMoves ++ [.multiplexer .control, .start 1 secondUpdate] ++ .enter 1 (chromeGranting 1) ::
  ([.control, .pollWriter, .joinWriter, .closeReturned ⟨1⟩ (.value ()), .joinCloser ⟨1⟩, .pollReader,
    .joinReader] : List Multiplexer.Move).map .multiplexer

/-- The second update asks for its tunnel when the first one is closed. -/
theorem closedFirst_cleared : ∃ s t e, Manager.start {} = .ok fresh ∧ Run fresh clearingMoves s ∧
    Undisturbed clearingMoves ∧ s.step (.resume 1 (granting 1)) = some (t, e) ∧ e.Establishes ∧
    ClosesFirst fresh (clearingMoves ++ [.resume 1 (granting 1)]) 1 ∧
    (⟨1⟩, 0) ∈ fresh.log establishedDevices clearingMoves ∧
    Finished fresh clearingMoves (⟨1⟩, 0) := by
  have hplay : replacing.play (clearingMoves.drop 4) =
      some ((replacing.play (clearingMoves.drop 4)).getD replacing) := rfl
  have hrun : Run fresh clearingMoves _ := run_replacing.append (.of_play hplay)
  have hundisturbed : Undisturbed clearingMoves :=
    ⟨by simp [clearingMoves, firstMoves], by simp [ClosedByEngine, clearingMoves, firstMoves]⟩
  have hestablished : (⟨1⟩, 0) ∈ fresh.log establishedDevices clearingMoves := by
    have hbegun : fresh.step (.start 0 firstUpdate) = some (begun, {}) := rfl
    have hone : establishedDevices begun (.enter 0 (granting 0)) updated
        { calls := building "vpn" (plan {} false oneAddress none) 0, result := some (.ok ()) } =
        [(⟨1⟩, 0)] := establishedDevices_building rfl
    rw [clearingMoves, run_replacing.log_append, run_updated.log_append, firstMoves,
      log_cons hbegun, log_cons step_updated, hone]
    simp
  have hfirst : ClosesFirst fresh (clearingMoves ++ [.resume 1 (granting 1)]) 1 :=
    ⟨_, chromeGranting 1, clearingMoves.drop 5 ++ [.resume 1 (granting 1)], replacing, rfl,
      run_replacing, fun h => (by cases h.2), by simp [clearingMoves, firstMoves]⟩
  obtain ⟨t, e, hs, hasked⟩ := exists_establishes (a := ⟨otherAddress, none⟩)
    (s := (replacing.play (clearingMoves.drop 4)).getD replacing) (c := 1) (p := granting 1)
    rfl rfl (List.cons_ne_nil _ _) (fun _ _ _ => rfl) rfl
  exact ⟨_, t, e, start_fresh, hrun, hundisturbed, hs, hasked, hfirst, hestablished,
    (closedFirst_of_run start_fresh hrun hundisturbed).first _ _ _ _ hs rfl hfirst hasked
      (fun hc => by cases hc) _ hestablished⟩

/-! ## Tunnels that overlap -/

/-- An update on ChromeOS begins. -/
def thirdMoves : List Move :=
  [.start 2 firstUpdate, .enter 2 (chromeGranting 2)]

/-- The close of the first device has crashed the coordinator before. -/
def crashedMoves : List Move :=
  ([.control, .pollWriter, .joinWriter, .closeReturned ⟨1⟩ .crash, .joinCloser ⟨1⟩] :
    List Multiplexer.Move).map .multiplexer ++ thirdMoves

/-- The third update asks for its tunnel while the second is open, if the coordinator has
    crashed. If not, two tunnels are open while it waits. -/
theorem tunnels_overlap :
    (∃ s t e, Run fresh (replacingMoves crashedMoves) s ∧
      Undisturbed (replacingMoves crashedMoves) ∧
      s.step (.resume 2 (granting 2)) = some (t, e) ∧ e.Establishes ∧
      ClosesFirst fresh (replacingMoves crashedMoves ++ [.resume 2 (granting 2)]) 2 ∧
      (⟨2⟩, 1) ∈ fresh.log establishedDevices (replacingMoves crashedMoves) ∧
      ¬ Finished fresh (replacingMoves crashedMoves) (⟨2⟩, 1)) ∧
    (∃ s, Run fresh (replacingMoves thirdMoves) s ∧ Undisturbed (replacingMoves thirdMoves) ∧
      s.multiplexer.coordinator ≠ .crashed ∧ ClosesFirst fresh (replacingMoves thirdMoves) 2 ∧
      ∀ k ∈ [(⟨1⟩, 0), (⟨2⟩, 1)], k ∈ fresh.log establishedDevices (replacingMoves thirdMoves) ∧
        ¬ Finished fresh (replacingMoves thirdMoves) k) := by
  constructor
  · have hplay : replaced.play crashedMoves = some ((replaced.play crashedMoves).getD replaced) := rfl
    have hbegun : replaced.play (crashedMoves.take 6) =
        some ((replaced.play (crashedMoves.take 6)).getD replaced) := rfl
    obtain ⟨t, e, hs, hasked⟩ := exists_establishes (a := ⟨oneAddress, none⟩)
      (s := (replaced.play crashedMoves).getD replaced) (c := 2) (p := granting 2)
      rfl rfl (List.cons_ne_nil _ _) (fun _ _ _ => rfl) rfl
    refine ⟨_, t, e, run_replacingMoves hplay, ⟨?_, ?_⟩, hs, hasked, ?_, ?_, not_finished ?_ ?_⟩
    · simp [replacingMoves, crashedMoves, thirdMoves, firstMoves]
    · simp [ClosedByEngine, replacingMoves, crashedMoves, thirdMoves, firstMoves]
    · exact ⟨_, chromeGranting 2, [.resume 2 (granting 2)], _, rfl, run_replacingMoves hbegun,
        fun h => (by cases h.2), by simp⟩
    · rw [established_replacingMoves]
      simp
    · simp [Reported, replacingMoves, crashedMoves, thirdMoves, firstMoves]
    · simp [replacingMoves, crashedMoves, thirdMoves, firstMoves]
  · have hplay : replaced.play thirdMoves = some ((replaced.play thirdMoves).getD replaced) := rfl
    have hbegun : replaced.play (thirdMoves.take 1) =
        some ((replaced.play (thirdMoves.take 1)).getD replaced) := rfl
    refine ⟨_, run_replacingMoves hplay, ⟨?_, ?_⟩, fun hc => (by cases hc), ?_,
      fun k hk => ⟨?_, not_finished ?_ ?_⟩⟩
    · simp [replacingMoves, thirdMoves, firstMoves]
    · simp [ClosedByEngine, replacingMoves, thirdMoves, firstMoves]
    · exact ⟨_, chromeGranting 2, [], _, rfl, run_replacingMoves hbegun,
        fun h => (by cases h.2), by simp⟩
    · rw [established_replacingMoves]
      exact List.mem_append_left _ hk
    · simp [Reported, replacingMoves, thirdMoves, firstMoves]
    · simp [replacingMoves, thirdMoves, firstMoves]

end SeamlessTunnel.Manager
