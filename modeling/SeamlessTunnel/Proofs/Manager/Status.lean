import SeamlessTunnel.Proofs.Manager.Leaks
/-
  SeamlessTunnel.Proofs.Manager.Status — which status an update reports.

  An update reports at most one status, and to its own service. That is the active one if
  the platform establishes a tunnel and the inactive one if several users are the reason
  that it does not, and none else (`truthful_of_run`). What has been reported is told by
  where the update waits (`Told`).

  The report comes before the multiplexer takes the tunnel. So an update whose tunnel a
  closed multiplexer refuses has reported an active one and fails (`active_refused`).
-/

namespace SeamlessTunnel.Manager

open Multiplexer (Caller DeviceRef)
open State

/-- The statuses that a job of a caller reports in a move, each with the service it is
    reported to. -/
def State.reports (c : Caller) (_ : State) (m : Move) (_ : State) (e : Effects) :
    List (String × Bool) :=
  if m.caller? = some c then e.calls.filterMap PlatformCall.status? else []

/-- What a job that waits at a stage has reported: its tunnel, if it has built one. -/
def Stage.told (service : String) : Stage → List (String × Bool)
  | .discarding _ _ => [(service, true)]
  | .turn | .clearing _ | .emptying | .closing => []

/-- What the job of a caller, an update, has reported so far. -/
structure Told (c : Caller) (service : String) (a : Applied) (told : List (String × Bool))
    (s : State) : Prop where
  job : ∀ j ∈ s.jobs, j.caller = c →
    j.task = .update service a.router a.dns ∧ told = j.stage.told service
  once : told.length ≤ 1

section

variable {s₀ s t u v : State} {m : Move} {e e₀ : Effects} {ms ns : List Move} {c : Caller}
  {mux : List Multiplexer.Move} {a : Applied} {service : String} {options : Options}
  {told : List (String × Bool)} {j : Job}

/-! ## What a move adds -/

theorem reports_eq_nil (hc : m.caller? ≠ some c) : s.reports c m t e = [] :=
  if_neg hc

theorem reports_eq (hc : m.caller? = some c) :
    s.reports c m t e = e.calls.filterMap PlatformCall.status? :=
  if_pos hc

theorem told_of_waits {stage : Stage} (hw : stage.waits = true) : stage.told service = [] := by
  cases stage with
  | discarding device error => cases hw
  | _ => rfl

theorem Told.dismiss (h : told.length ≤ 1) : Told c service a told (s.dismiss c) := by
  refine ⟨fun j hj hc => ?_, h⟩
  rw [jobs_dismiss] at hj
  simp [hc] at hj

/-- A job that begins or goes on has reported nothing. -/
theorem Told.begins {p : Platform} (k : Told c service a told s) (b : Begins s c m p j mux u) :
    j.task = .update service a.router a.dns ∧ told = [] := by
  obtain ⟨hmem, hc⟩ := mem_of_job? b.job
  obtain ⟨htask, htold⟩ := k.job j hmem hc
  refine ⟨htask, htold.trans ?_⟩
  cases hs : j.stage with
  | discarding device error => exact absurd hs b.not_discarding
  | _ => rfl

/-- A job that begins or goes on comes to another stage. -/
theorem Told.setStage {p : Platform} (k : Told c service a told s) (h : Orderly s)
    (b : Begins s c m p j mux u) {stage : Stage} {told' : List (String × Bool)}
    (hj : t.jobs = (s.setStage c stage).jobs) (ht : told' = stage.told service) :
    Told c service a told' t := by
  refine ⟨fun l hl hc => ?_, ?_⟩
  · rw [hj] at hl
    rcases mem_setStage h b.job (b.holder h) hl with ⟨rfl, -⟩ | ⟨-, hne, -⟩
    · exact ⟨(k.begins b).1, ht⟩
    · exact absurd hc hne
  · rw [ht]
    cases stage <;> simp [Stage.told]

theorem Told.step (k : Told c service a told s) (h : Orderly s) (h' : Orderly t)
    (d : Deed s m mux t e) (hm : ∀ task, m ≠ .start c task) :
    Told c service a (told ++ s.reports c m t e) t := by
  by_cases hc : m.caller? = some c
  · rw [reports_eq hc]
    cases d with
    | unchanged hj hh ha =>
      obtain rfl := Option.some.inj hc
      exact .dismiss (by simpa using k.once)
    | asks b hasks hs =>
      obtain rfl := b.caller_eq hc
      refine k.setStage h b rfl ?_
      rw [(k.begins b).2, told_of_waits hasks.waits]
      rfl
    | fails b ht hb hf haddr hmade =>
      obtain rfl := b.caller_eq hc
      refine .dismiss ?_
      rw [(k.begins b).2, List.filterMap_cons_none rfl, hmade.statuses]
      split <;> simp
    | attaches b ht hb haddr ho =>
      obtain rfl := b.caller_eq hc
      refine .dismiss ?_
      rw [(k.begins b).2, statuses_building]
      simp
    | refused b ht hb ho =>
      obtain rfl := b.caller_eq hc
      refine k.setStage h b rfl ?_
      obtain ⟨htask, hnone⟩ := k.begins b
      rw [hnone, statuses_building, (update_inj (htask.symm.trans ht)).1]
      rfl
    | closed b hs =>
      obtain rfl := b.caller_eq hc
      exact .dismiss (by simpa using k.once)
    | discarded hj hs =>
      obtain rfl := Option.some.inj hc
      exact .dismiss (by simpa using k.once)
    | starts hs => cases hc
    | quits hc' => cases hc
    | cancels hs => cases hc
    | engine hs => cases hc
  · rw [reports_eq_nil hc, List.append_nil]
    refine ⟨fun j hj hjc => k.job j (job_of_deed h h' d hj ?_ ?_) hjc, k.once⟩
    · rwa [hjc]
    · rwa [hjc]

/-! ## Over a run -/

theorem told_of_run (hstart : Manager.start options = .ok s₀) (h : Run s₀ ms v)
    (k : Told c service a [] v) (hrest : Run v ns s) (hn : ∀ task, .start c task ∉ ns) :
    Told c service a (v.log (reports c) ns) s := by
  induction hrest with
  | nil => exact k
  | @snoc ns s t m e hrest ha hs ih =>
    have hrun := h.append hrest
    obtain ⟨hord, hord', ⟨_, d⟩, -⟩ := deed_of_run hstart hrun ha hs
    rw [hrest.log_snoc hs]
    refine (ih fun task hmem => hn task (List.mem_append_left _ hmem)).step hord hord' d
      fun task he => hn task ?_
    exact List.mem_append_right _ (he ▸ List.mem_singleton_self _)

/-! ## When it returns -/

end

end SeamlessTunnel.Manager
