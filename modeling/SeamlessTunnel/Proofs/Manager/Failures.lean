import SeamlessTunnel.Proofs.Manager.Attachment
import SeamlessTunnel.Proofs.Multiplexer.Emptying
/-
  SeamlessTunnel.Proofs.Manager.Failures — an update that fails leaves no half-way state.

  Where the old tunnel stays until the new one is there, an update that fails leaves the
  record and the multiplexer as they were. Where all tunnels are closed first, it fails with
  nothing recorded and, as long as the coordinator has not crashed, with all devices closed
  but those that were handed in when the multiplexer was about to close for good
  (`failed_update_of_run`). Both exceptions occur (`devices_open_after_failure`).
-/

namespace SeamlessTunnel.Manager

open Multiplexer (Caller DeviceRef Operation)
open Multiplexer.State (Clearing Asking Vacating)
open State

/-- Whether an update builds its tunnel before the old ones are closed. -/
def Seamless (s : State) (p : Platform) : Prop :=
  s.options.tunnel.seamlessHandover = true ∧ p.chromeOs = false

/-- Whether a move carries on a job in its turn. -/
def Move.isTurn : Move → Bool
  | .enter _ _ | .resume _ _ => true
  | _ => false

/-- A job whose turn has come gets to build its tunnel: at once, or when the old tunnels have
    been closed. It does not have to wait longer than devices owe something. What holds of
    the step that builds is `K`: of the moves made meanwhile, the platform at that time, the
    states before and after the step, and its effects. -/
structure ComesToBuild (s : State) (c : Caller) (task : Task) (p : Platform)
    (K : List Move → Platform → State → State → Effects → Prop) : Prop where
  seamless : Seamless s p → ∃ t e, s.enter c p = some (t, e) ∧ K [] p s t e
  cleared : ¬ Seamless s p → ∃ t, s.enter c p = some (t, {}) ∧
    ∀ ms u, Run t ms u → u.job? c = some ⟨c, task, .clearing p.chromeOs⟩ →
      (u.multiplexer.Stalled → u.multiplexer.Listening → ∃ x, u.multiplexer.answer? c = some x) ∧
      ∀ x, u.multiplexer.answer? c = some x → ∀ p', ∃ v e, u.resume c p' = some (v, e) ∧
        K (.enter c p :: ms) p' u v e

/-- Whether an update with a configuration has its turn, and no other went on before. -/
def NextUpdate (s t : State) (c : Caller) (service : String) (a : Applied) : Prop :=
  ∃ ms, Run s ms t ∧ (∀ m ∈ ms, m.isTurn = false) ∧ t.holder = some c ∧
    t.job? c = some ⟨c, .update service a.router a.dns, .turn⟩

/-- The next update does nothing if it is for this configuration. -/
def Ignores (s : State) (a : Applied) : Prop :=
  ∀ t c service p, NextUpdate s t c service a →
    ∃ u, t.enter c p = some (u, { calls := [], result := some (.ok ()) })

/-- The next update builds a tunnel if it is for this configuration, and attaches it unless
    the platform obstructs it or the multiplexer is closed. -/
def Rebuilds (s : State) (a : Applied) : Prop :=
  ∀ t c service p, NextUpdate s t c service a →
    ComesToBuild t c (.update service a.router a.dns) p fun _ p' u v e =>
      e.calls.head? = some (.newBuilder service) ∧
      (¬ p'.Obstructs (plan t.options p.chromeOs a.router a.dns) → u.multiplexer.isOver = false →
        ∃ id device, Attaches u v e a id device)

/-- All devices that were handed in have been closed but those that came when the multiplexer
    was about to close for good, unless the coordinator has crashed. -/
def Emptied (s₀ : State) (ms : List Move) (s : State) : Prop :=
  s.multiplexer.coordinator = .crashed ∨ s.multiplexer.slots = [] ∧
    ∀ id : DeviceId, 0 < id.number → id.number ≤ s.multiplexer.added →
      Reported ms id ∨ HandedInLate s₀ ms id

/-- What holds of an update from the state `s` that fails. -/
structure FailsAtomically (s₀ : State) (ms : List Move) (s : State) (p : Platform) (t : State) :
    Prop where
  seamless : Seamless s p → t.applied = s.applied ∧ t.multiplexer = s.multiplexer ∧
    ∀ a, s.applied = some a → Ignores t a
  cleared : ¬ Seamless s p → t.applied = none ∧ Emptied s₀ ms t ∧
    ∀ a, s.applied = some a ∨ a.router.localAddresses ≠ [] → Rebuilds t a

section

variable {s₀ s t u : State} {m : Move} {e : Effects} {ms : List Move}
  {ns : List Multiplexer.Move} {a : Applied} {c : Caller} {p : Platform} {options : Options}
  {service : String}

/-! ## Waiting for the old tunnels to close -/

theorem Begins.calm {j : Job} {d : Caller} (b : Begins s c m p j ns u) :
    ∀ n ∈ ns, (∀ device, n ≠ .add device) ∧ ∀ op, n ≠ .call d op := by
  cases b with
  | enter hj hh hs => exact nofun
  | resume hj hs hl =>
    intro n hn
    rw [List.mem_singleton.1 hn]
    exact ⟨nofun, nofun⟩

theorem Asks.shutdown {task : Task} {stage : Stage} {op : Operation} {chromeOs : Bool}
    (h : Asks task stage op) (hs : stage = .clearing chromeOs) : op = .shutdown := by
  cases h with
  | close => cases hs
  | _ => rfl

theorem Asks.operation {task : Task} {stage : Stage} {op : Operation} (h : Asks task stage op) :
    op = .shutdown ∨ op = .close := by
  cases h with
  | close => exact .inr rfl
  | _ => exact .inl rfl

/-- A job that waits for tunnels to be closed has just asked for it, or a move goes by that
    does not disturb it. -/
theorem asked_of_deed (h : Orderly s) (ha : s.allows m = true) (d : Deed s m ns t e) {j : Job}
    (hj : j ∈ t.jobs) (hw : j.stage.waits = true) :
    (∃ op v, Asks j.task j.stage op ∧ Multiplexer.State.call v j.caller op = some t.multiplexer) ∨
    (j ∈ s.jobs ∧ ∀ n ∈ ns, (∀ device, n ≠ .add device) ∧ ∀ op, n ≠ .call j.caller op) := by
  cases d with
  | starts hstart =>
    obtain ⟨-, _, _, -, rfl⟩ := start_cases hstart
    rcases List.mem_append.1 hj with hj | hj
    · exact .inr ⟨hj, by simp⟩
    · rw [List.mem_singleton.1 hj] at hw
      cases hw
  | unchanged hj' hh ha' => exact .inr ⟨mem_of_mem_dismiss hj, by simp⟩
  | asks b hasks hcall =>
    rcases mem_setStage h b.job (b.holder h) hj with ⟨rfl, hc⟩ | ⟨-, -, hturn⟩
    · exact .inl ⟨_, _, hasks, hc ▸ hcall⟩
    · rw [hturn] at hw
      cases hw
  | fails b ht hb hf =>
    have hmem := mem_of_mem_dismiss hj
    exact .inr ⟨by rw [← b.jobs]; exact hmem, b.calm⟩
  | attaches b ht hb haddr ho =>
    exfalso
    rw [jobs_dismiss] at hj
    obtain ⟨hj, hne⟩ := List.mem_filter.1 hj
    have hholder := h.turn j hj fun hs => by simp [hs, Stage.waits] at hw
    rw [b.holder h] at hholder
    simp [Option.some.inj hholder] at hne
  | refused b ht hb ho =>
    rcases mem_setStage h b.job (b.holder h) hj with ⟨rfl, -⟩ | ⟨-, -, hturn⟩
    · cases hw
    · rw [hturn] at hw
      cases hw
  | closed b hstage =>
    have hmem := mem_of_mem_dismiss hj
    exact .inr ⟨by rw [← b.jobs]; exact hmem, b.calm⟩
  | discarded hj' hs' => exact .inr ⟨mem_of_mem_dismiss hj, by simp⟩
  | quits hc => exact .inr ⟨mem_of_mem_dismiss hj, by simp⟩
  | cancels hcancel =>
    have hmem := mem_of_mem_dismiss hj
    refine .inr ⟨hmem, fun n hn => ?_⟩
    rw [List.mem_singleton.1 hn]
    exact ⟨by simp, by simp⟩
  | @engine n v hstep =>
    refine .inr ⟨hj, fun n' hn' => ?_⟩
    rw [List.mem_singleton.1 hn']
    refine ⟨fun device he => ?_, fun op he => ?_⟩
    · rw [he] at ha
      cases ha
    · have hlisted : j.caller ∈ s.jobs.map (·.caller) := List.mem_map_of_mem hj
      rw [he] at ha
      simp only [allows, Bool.not_eq_true', List.contains_eq_mem, decide_eq_false_iff_not] at ha
      exact ha hlisted

/-- Whatever a job waits for, it has asked for tunnels to be closed. -/
theorem vacating_of_run (hstart : Manager.start options = .ok s₀) (h : Run s₀ ms s) :
    ∀ j ∈ s.jobs, j.stage.waits = true →
      ∃ op, Asks j.task j.stage op ∧ Vacating j.caller s.multiplexer op := by
  induction h with
  | nil =>
    rw [(start_eq hstart).2]
    exact nofun
  | @snoc ms s t m e h hallows hs ih =>
    intro j hj hw
    obtain ⟨hord, hord', ⟨_, d⟩, _, hbegin⟩ := deed_of_run hstart h hallows hs
    rcases asked_of_deed hord hallows d hj hw with ⟨op, v, hasks, hcall⟩ | ⟨hj, hcalm⟩
    · exact ⟨op, hasks, Multiplexer.State.vacating_of_call hasks.operation hcall⟩
    · obtain ⟨op, hasks, hv⟩ := ih j hj hw
      exact ⟨op, hasks, Multiplexer.State.vacating_of_moves hbegin (d.run hord) hord'.held hcalm hv⟩

theorem clearing_of_run (hstart : Manager.start options = .ok s₀) (h : Run s₀ ms s) :
    ∀ j ∈ s.jobs, ∀ chromeOs, j.stage = .clearing chromeOs →
      Clearing j.caller s.multiplexer ∧ Asking j.caller s.multiplexer := by
  intro j hj chromeOs hstage
  obtain ⟨op, hasks, hv⟩ := vacating_of_run hstart h j hj (by rw [hstage]; rfl)
  obtain rfl := hasks.shutdown hstage
  cases hv with
  | shutdown hc ha => exact ⟨hc, ha⟩

/-! ## Coming to the build -/

theorem options_of_deed (d : Deed s m ns t e) : t.options = s.options := by
  cases d with
  | starts hs =>
    obtain ⟨-, _, _, -, rfl⟩ := start_cases hs
    rfl
  | asks b ha hs => rfl
  | refused b ht hb ho => rfl
  | engine hs => rfl
  | fails b ht hb hf => rw [options_dismiss, b.eq]
  | closed b hs => rw [options_dismiss, b.eq]
  | _ => exact options_dismiss

theorem options_of_run (hstart : Manager.start options = .ok s₀) (h : Run s₀ ms s) :
    s.options = s₀.options := by
  induction h with
  | nil => rfl
  | snoc h ha hs ih =>
    obtain ⟨_, d⟩ := deed_of_step (orderly_of_run hstart h).1 hs
    exact (options_of_deed d).trans ih

theorem applied_of_deed (d : Deed s m ns t e) (hm : m.isTurn = false) : t.applied = s.applied := by
  cases d with
  | starts hs =>
    obtain ⟨-, _, _, -, rfl⟩ := start_cases hs
    rfl
  | discarded hj hs => exact applied_dismiss
  | quits hc => exact applied_dismiss
  | cancels hs => exact applied_dismiss
  | engine hs => rfl
  | unchanged hj hh ha => cases hm
  | asks b ha hs => cases b <;> cases hm
  | fails b ht hb hf => cases b <;> cases hm
  | attaches b ht hb haddr ho => cases b <;> cases hm
  | refused b ht hb ho => cases b <;> cases hm
  | closed b hs => cases hm

theorem enter_eq {task : Task} (hj : s.job? c = some ⟨c, task, .turn⟩) (hh : s.holder = some c) :
    s.enter c p = some (s.run c p task) := by
  simp [enter, hj, hh]

theorem resume_eq {chromeOs : Bool} {x : Multiplexer.Answer}
    (hj : s.job? c = some ⟨c, .update service a.router a.dns, .clearing chromeOs⟩)
    (hx : s.multiplexer.answer? c = some x) : ∃ calls events,
      s.resume c p = some (State.proceed { s with
        multiplexer := { s.multiplexer with calls, events } } c service a.router a.dns chromeOs p) := by
  obtain ⟨calls, events, he⟩ := Multiplexer.State.leave_eq hx
  rw [resume, hj, hx, he]
  exact ⟨calls, events, rfl⟩

theorem proceed_eq {chromeOs : Bool} (haddr : a.router.localAddresses ≠ []) :
    s.proceed c service a.router a.dns chromeOs p =
      s.build c service a.router a.dns chromeOs p := by
  simp [proceed, haddr]

/-- Where the old tunnel stays, an update that changes anything builds its tunnel at once. -/
theorem enter_seamless (hj : s.job? c = some ⟨c, .update service a.router a.dns, .turn⟩)
    (hh : s.holder = some c) (hne : s.applied ≠ some a) (haddr : a.router.localAddresses ≠ [])
    (hp : Seamless s p) :
    s.enter c p = some (s.build c service a.router a.dns p.chromeOs p) := by
  have hdiffers : ¬ s.applied = some ⟨a.router, a.dns⟩ := hne
  rw [enter_eq hj hh, State.run, if_neg hdiffers, hp.1, hp.2, proceed_eq haddr]
  rfl

/-- Where it does not stay, the update asks for a shutdown and waits. -/
theorem enter_clearing (h : Orderly s)
    (hj : s.job? c = some ⟨c, .update service a.router a.dns, .turn⟩) (hh : s.holder = some c)
    (hne : s.applied ≠ some a) (hp : ¬ Seamless s p) : ∃ v, s.enter c p =
      some (State.setStage { s with applied := none, multiplexer := v } c (.clearing p.chromeOs),
        {}) := by
  have hdiffers : ¬ s.applied = some ⟨a.router, a.dns⟩ := hne
  have b : Begins s c (.enter c p) p ⟨c, .update service a.router a.dns, .turn⟩ [] s :=
    .enter hj hh rfl
  obtain ⟨hheld, hc, hg⟩ := b.free h
  obtain ⟨v, -, hawait⟩ := await_eq (s := { s with applied := none }) hheld hc hg .shutdown
    (.clearing p.chromeOs)
  have hcond : (!s.options.tunnel.seamlessHandover || p.chromeOs) = true := by
    simp only [Seamless] at hp
    cases h₁ : s.options.tunnel.seamlessHandover <;> cases h₂ : p.chromeOs <;> simp_all
  refine ⟨v, ?_⟩
  rw [enter_eq hj hh, State.run, if_neg hdiffers, if_pos hcond, hawait]

/-- An update whose turn has come builds its tunnel, at once or when the old ones have been
    closed. -/
theorem comesToBuild (hstart : Manager.start options = .ok s₀) (h : Run s₀ ms s)
    (hj : s.job? c = some ⟨c, .update service a.router a.dns, .turn⟩) (hh : s.holder = some c)
    (hne : s.applied ≠ some a) (haddr : a.router.localAddresses ≠ [])
    {K : List Move → Platform → State → State → Effects → Prop}
    (hseamless : Seamless s p → ∀ t e, s.enter c p = some (t, e) →
      s.build c service a.router a.dns p.chromeOs p = (t, e) → K [] p s t e)
    (hcleared : ¬ Seamless s p → ∀ ns u p' t e, Run s₀ (ms ++ .enter c p :: ns) u →
      u.job? c = some ⟨c, .update service a.router a.dns, .clearing p.chromeOs⟩ →
      (∃ x, u.multiplexer.answer? c = some x) → u.resume c p' = some (t, e) →
      (∃ calls events, State.build { u with multiplexer := { u.multiplexer with calls, events } } c
        service a.router a.dns p.chromeOs p' = (t, e)) → K (.enter c p :: ns) p' u t e) :
    ComesToBuild s c (.update service a.router a.dns) p K := by
  refine ⟨fun hp => ?_, fun hp => ?_⟩
  · have henter := enter_seamless hj hh hne haddr hp
    exact ⟨_, _, henter, hseamless hp _ _ henter rfl⟩
  · obtain ⟨v, henter⟩ := enter_clearing (orderly_of_run hstart h).1 hj hh hne hp
    refine ⟨_, henter, fun ns u hrun hju => ?_⟩
    have hall : Run s₀ (ms ++ .enter c p :: ns) u := by
      have hsnoc : Run s₀ (ms ++ [.enter c p]) _ := .snoc h rfl henter
      simpa using hsnoc.append hrun
    obtain ⟨hord, _, hunder⟩ := orderly_of_run hstart hall
    obtain ⟨hmem, -⟩ := mem_of_job? hju
    refine ⟨fun hstalled hlistening => ?_, fun x hx p' => ?_⟩
    · exact Multiplexer.State.answered_of_stalled (start_eq hstart).1 hunder.run hord.held
        (clearing_of_run hstart hall _ hmem _ rfl).2 ((hord.calls _ hmem).2 rfl) hstalled hlistening
    · obtain ⟨calls, events, hresume⟩ := resume_eq (p := p') hju hx
      rw [proceed_eq haddr] at hresume
      exact ⟨_, _, hresume, hcleared hp ns u p' _ _ hall hju ⟨x, hx⟩ hresume ⟨calls, events, rfl⟩⟩

/-! ## What a failure leaves -/

theorem applied_of_nextUpdate (hstart : Manager.start options = .ok s₀) (h : Run s₀ ms s)
    (hn : NextUpdate s t c service a) : t.applied = s.applied := by
  obtain ⟨ns, hrun, hturn, -⟩ := hn
  induction hrun with
  | nil => rfl
  | @snoc ns t u m e k ha hs ih =>
    obtain ⟨_, d⟩ := deed_of_step (orderly_of_run hstart (h.append k)).1 hs
    refine (applied_of_deed d (hturn m (by simp))).trans (ih fun m' hm' => hturn m' ?_)
    exact List.mem_append_left _ hm'

theorem ignores (hstart : Manager.start options = .ok s₀) (h : Run s₀ ms s)
    (ha : s.applied = some a) : Ignores s a := by
  intro t c service p hn
  have happlied := (applied_of_nextUpdate hstart h hn).trans ha
  obtain ⟨-, -, -, hh, hj⟩ := hn
  refine ⟨t.dismiss c, ?_⟩
  rw [enter_eq hj hh, State.run, if_pos happlied]
  rfl

theorem rebuilds (hstart : Manager.start options = .ok s₀) (h : Run s₀ ms s)
    (hnone : s.applied = none) (haddr : a.router.localAddresses ≠ []) : Rebuilds s a := by
  intro t c service p hn
  have happlied := (applied_of_nextUpdate hstart h hn).trans hnone
  obtain ⟨ns, hrun, -, hh, hj⟩ := hn
  have hattach : ∀ u p' calls events v e, u.options = t.options →
      State.build { u with multiplexer := { u.multiplexer with calls, events } } c service
        a.router a.dns p.chromeOs p' = (v, e) →
      e.calls.head? = some (.newBuilder service) ∧
      (¬ p'.Obstructs (plan t.options p.chromeOs a.router a.dns) → u.multiplexer.isOver = false →
        ∃ id device, Attaches u v e a id device) := by
    intro u p' calls events v e hoptions hb
    refine ⟨by rw [← calls_build, hb], fun hfree ho => ?_⟩
    rcases build_cases { u with multiplexer := { u.multiplexer with calls, events } } c service
      a.router a.dns p.chromeOs p' with ⟨_, error, hf, -, -⟩ | ⟨device, -, -, ⟨hover, -⟩ | ⟨-, he⟩⟩
    · exact absurd (obstructs_iff.2 ⟨error, hoptions ▸ hf⟩) hfree
    · have hover : u.multiplexer.isOver = true := hover
      rw [ho] at hover
      cases hover
    · obtain ⟨rfl, rfl⟩ := Prod.mk.inj (he.symm.trans hb)
      exact ⟨_, device, attaches_of_add haddr ho⟩
  refine comesToBuild hstart (h.append hrun) hj hh (by simp [happlied]) haddr ?_ ?_
  · intro _ v e _ hb
    exact hattach t p _ _ v e rfl hb
  · rintro _ ns' u p' v e hu _ _ _ ⟨calls, events, hb⟩
    refine hattach u p' calls events v e ?_ hb
    rw [options_of_run hstart hu, options_of_run hstart (h.append hrun)]

/-- When the shutdown before a new tunnel has been answered, the close of each device has come
    to its end, unless the device came too late. -/
theorem ended_of_clearing (hstart : Manager.start options = .ok s₀) (h : Run s₀ ms s) {j : Job}
    {chromeOs : Bool} (hj : j ∈ s.jobs) (hs : j.stage = .clearing chromeOs)
    (hw : s.multiplexer.awaits j.caller = false) (hc : s.multiplexer.coordinator ≠ .crashed) :
    s.multiplexer.slots = [] ∧
      ∀ id : DeviceId, 0 < id.number → id.number ≤ s.multiplexer.added →
        (∃ out, .multiplexer (.closeReturned id out) ∈ ms ∧ out ≠ .crash) ∨
          HandedInLate s₀ ms id := by
  obtain ⟨hord, ns, hu⟩ := orderly_of_run hstart h
  have hrun := hu.run
  rw [multiplexer_start hstart] at hrun
  obtain ⟨hnil, hdevices⟩ := Multiplexer.State.emptied_of_answered hrun hord.held
    (clearing_of_run hstart h j hj _ hs).1 hw (hord.present j hj) hc
  refine ⟨hnil, fun id hp hle => (hdevices id hp hle).imp ?_ fun hl => ?_⟩
  · rintro ⟨out, hout⟩
    refine ⟨out, hu.returned id out hout, ?_⟩
    rintro rfl
    exact Multiplexer.State.not_crash_of_emptied hrun hc hnil hout
  · exact hu.late id (by rwa [multiplexer_start hstart])

theorem emptied_of_clearing (hstart : Manager.start options = .ok s₀) (h : Run s₀ ms s) {task : Task}
    {chromeOs : Bool} (hj : s.job? c = some ⟨c, task, .clearing chromeOs⟩) {x : Multiplexer.Answer}
    (hx : s.multiplexer.answer? c = some x) : Emptied s₀ ms s := by
  obtain ⟨_, hrun⟩ := multiplexer_run hstart h
  have hw : s.multiplexer.awaits c = false := by
    by_contra hw
    have hnone := Multiplexer.State.answer?_eq_none_of_awaits
      (Multiplexer.State.accounted_of_run hrun).callers (by simpa using hw)
    rw [hx] at hnone
    cases hnone
  by_cases hc : s.multiplexer.coordinator = .crashed
  · exact .inl hc
  · obtain ⟨hnil, hdevices⟩ := ended_of_clearing hstart h (mem_of_job? hj).1 rfl hw hc
    exact .inr ⟨hnil, fun id hp hle => (hdevices id hp hle).imp_left fun ⟨out, hout, _⟩ => ⟨out, hout⟩⟩

/-- An update to another configuration that the platform obstructs fails with the error that
    tells why, and leaves nothing half done. -/
theorem failed_update_of_run (hstart : Manager.start options = .ok s₀) (h : Run s₀ ms s)
    (hj : s.job? c = some ⟨c, .update service a.router a.dns, .turn⟩) (hh : s.holder = some c)
    (hne : s.applied ≠ some a) (haddr : a.router.localAddresses ≠ []) (p : Platform) :
    ComesToBuild s c (.update service a.router a.dns) p fun ns p' _ t e =>
      p'.Obstructs (plan s.options p.chromeOs a.router a.dns) →
        (∃ error, Fault p' (plan s.options p.chromeOs a.router a.dns) error ∧
          e.result = some (.error error)) ∧ FailsAtomically s₀ (ms ++ ns) s p t := by
  refine comesToBuild hstart h hj hh hne haddr ?_ ?_
  · intro hp t e henter hb ho
    obtain ⟨made, error, hf, he⟩ := build_of_obstructs ho c service
    obtain ⟨rfl, rfl⟩ := Prod.mk.inj (he.symm.trans hb)
    refine ⟨⟨error, hf, rfl⟩, fun _ => ⟨applied_dismiss, multiplexer_dismiss, fun last hlast => ?_⟩,
      fun hn => absurd hp hn⟩
    exact ignores hstart (.snoc (m := .enter c p) h rfl henter) (applied_dismiss.trans hlast)
  · rintro hp ns u p' t e hu hju ⟨x, hx⟩ hresume ⟨calls, events, hb⟩ ho
    have hoptions : u.options = s.options := by
      rw [options_of_run hstart hu, options_of_run hstart h]
    rw [← hoptions] at ho ⊢
    obtain ⟨made, error, hf, he⟩ := build_of_obstructs
      (s := { u with multiplexer := { u.multiplexer with calls, events } }) ho c service
    obtain ⟨rfl, rfl⟩ := Prod.mk.inj (he.symm.trans hb)
    obtain ⟨hmem, -⟩ := mem_of_job? hju
    have hnone : u.applied = none := (orderly_of_run hstart hu).1.blank _ hmem rfl
    refine ⟨⟨error, hf, rfl⟩, fun hs => absurd hs hp, fun _ =>
      ⟨applied_dismiss.trans hnone, ?_, fun last hlast => ?_⟩⟩
    · have hemptied := emptied_of_clearing hstart hu hju hx
      rw [Emptied, multiplexer_dismiss]
      exact hemptied
    · refine rebuilds hstart (.snoc (m := .resume c p') hu rfl hresume)
        (applied_dismiss.trans hnone) (hlast.elim (fun hlast => ?_) id)
      obtain ⟨_, _, _, _, _, _, _, _, -, -, -, -, hatt, -⟩ := attached_of_run hstart h hlast
      exact hatt.addresses

end


/-! ## A second tunnel -/

def otherAddress : RouterConfig :=
  { localAddresses := [⟨.ofNat .ipv4 (10 * 2 ^ 24 + 6), 24, by decide⟩] }

def secondUpdate : Task :=
  .update "vpn" otherAddress none

/-- A platform that refuses the first builder call. -/
def refusing (chromeOs : Bool) : Platform :=
  { chromeOs, refuses := fun i _ => if i = 0 then some "no" else none, establish := .unavailable }

/-- The first tunnel is taken in, and the second update has its turn. -/
def replacing : State :=
  { updated with
    multiplexer := (updated.multiplexer.step .control).getD updated.multiplexer
    jobs := [{ caller := 1, task := secondUpdate }]
    holder := some 1 }

theorem run_replacing :
    Run fresh (firstMoves ++ [.multiplexer .control, .start 1 secondUpdate]) replacing :=
  run_updated.append (.of_play rfl)

theorem fault_refusing (chromeOs : Bool) {error : VpnError}
    (hf : Fault (refusing chromeOs) (plan {} chromeOs otherAddress none) error) :
    error = .builder "set_mtu" "no" := by
  have hplan : plan {} chromeOs otherAddress none = [] ++ .setMtu 1280 :: _ := rfl
  exact hf.unique (.refused hplan nofun rfl)

/-- The first tunnel stays when it is to be replaced and is closed first on ChromeOS, and
    either way the update fails. -/
theorem failed_update_refused :
    Run fresh (firstMoves ++ [.multiplexer .control, .start 1 secondUpdate]) replacing ∧
    (∃ t e, replacing.enter 1 (refusing false) = some (t, e) ∧
      e.result = some (.error (.builder "set_mtu" "no")) ∧
      t.applied = some ⟨oneAddress, none⟩ ∧ t.multiplexer = replacing.multiplexer) ∧
    ComesToBuild replacing 1 secondUpdate (refusing true) fun ns p' _ t e =>
      p'.Obstructs (plan {} true otherAddress none) →
        (∃ error, Fault p' (plan {} true otherAddress none) error ∧
          e.result = some (.error error)) ∧
        FailsAtomically fresh (firstMoves ++ [.multiplexer .control, .start 1 secondUpdate] ++ ns)
          replacing (refusing true) t := by
  refine ⟨run_replacing, ?_, failed_update_of_run start_fresh run_replacing
    (a := ⟨otherAddress, none⟩) rfl rfl (by decide) nofun (refusing true)⟩
  obtain ⟨t, e, henter, hk⟩ := (failed_update_of_run start_fresh run_replacing
    (a := ⟨otherAddress, none⟩) rfl rfl (by decide) nofun (refusing false)).seamless ⟨rfl, rfl⟩
  obtain ⟨⟨error, hf, hr⟩, hatomic⟩ := hk (.inr nofun)
  obtain ⟨happlied, hmux, -⟩ := hatomic.seamless ⟨rfl, rfl⟩
  obtain rfl := fault_refusing false hf
  exact ⟨t, e, henter, hr, happlied, hmux⟩

/-! ## A device that stays open -/

/-- A third update, on ChromeOS, fails at the end of these moves. The second device was handed
    in, and its close has not returned. -/
def FailsHalfway (ms : List Move) (c : Caller) : Prop :=
  ∃ s t e, Run fresh ms s ∧ s.job? c = some ⟨c, firstUpdate, .clearing true⟩ ∧
    s.step (.resume c (refusing true)) = some (t, e) ∧
    e.result = some (.error (.builder "set_mtu" "no")) ∧
    t.multiplexer.added = 2 ∧ ¬ Reported ms ⟨2⟩

/-- The close of the first device crashes the coordinator. -/
def crashing : List Move :=
  firstMoves ++ [.multiplexer .control, .start 1 secondUpdate] ++ .enter 1 (granting 1) ::
  (([.control, .pollWriter, .joinWriter, .closeReturned ⟨1⟩ .crash, .joinCloser ⟨1⟩] :
    List Multiplexer.Move).map .multiplexer ++ [.start 2 firstUpdate, .enter 2 (refusing true)])

/-- A close that was given up is still on its way when the second device is handed in. -/
def crossing : List Move :=
  firstMoves ++ [.multiplexer .control, .start 1 .close, .enter 1 (granting 1), .cancel 1,
    .start 2 secondUpdate] ++ .enter 2 (granting 1) ::
  (([.control, .pollWriter, .joinWriter, .closeReturned ⟨1⟩ (.value ()), .joinCloser ⟨1⟩,
    .pollReader, .joinReader] : List Multiplexer.Move).map .multiplexer ++
    [.start 3 firstUpdate, .enter 3 (refusing true)])

theorem Run.replaced {s t : State} {ms ns : List Move} {c : Caller} (h : Run fresh ms s)
    (he : s.enter c (granting 1) = some (s.build c "vpn" otherAddress none false (granting 1)))
    (ho : s.multiplexer.isOver = false)
    (hp : (State.dismiss { s with
      service := some "vpn"
      multiplexer := (s.multiplexer.add 1).2
      applied := some ⟨otherAddress, none⟩ } c).play ns = some t) :
    Run fresh (ms ++ .enter c (granting 1) :: ns) t := by
  rw [build_eq (fun _ _ _ => rfl) rfl ho] at he
  have hstep : Run fresh (ms ++ [.enter c (granting 1)]) _ := .snoc h rfl he
  simpa using hstep.append (.of_play hp)

theorem devices_open_after_failure : FailsHalfway crashing 2 ∧ FailsHalfway crossing 3 := by
  constructor
  · refine ⟨_, _, _, .replaced (run_updated.append (.of_play rfl)) rfl rfl rfl, rfl, rfl, rfl, rfl, ?_⟩
    simp [Reported, crashing, firstMoves]
  · refine ⟨_, _, _, .replaced (run_updated.append (.of_play rfl)) rfl rfl rfl, rfl, rfl, rfl, rfl, ?_⟩
    simp [Reported, crossing, firstMoves]

end SeamlessTunnel.Manager
