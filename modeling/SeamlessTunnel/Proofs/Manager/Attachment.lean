import Mathlib.Algebra.Group.Nat.Defs
import SeamlessTunnel.Proofs.Manager.Runs
/-
  SeamlessTunnel.Proofs.Manager.Attachment — what a recorded configuration stands for.

  The configuration that is recorded is that of the tunnel which was attached last. Nothing
  that the manager has done since took that tunnel away (`attached_of_run`). So after an
  update that ends well the tunnel of its configuration is the newest device, active and
  not about to be closed, unless the coordinator has crashed or somebody else has closed
  the devices since (`attached_of_update`).

  The engine can do just that: it shuts the devices down, the record stays, and an update
  with the same configuration ends well without a tunnel (`recorded_without_tunnel`).
-/

namespace SeamlessTunnel.Manager

open Multiplexer (Caller DeviceRef Operation)
open Multiplexer.State (Newest)
open State

/-- A move builds a tunnel for a configuration and hands it in as the device `id`. -/
structure Attaches (s t : State) (e : Effects) (a : Applied) (id : DeviceId)
    (device : DeviceRef) : Prop where
  addresses : a.router.localAddresses ≠ []
  calls : ∃ service chromeOs,
    e.calls = building service (plan s.options chromeOs a.router a.dns) device
  result : e.result = some (.ok ())
  number : id = s.multiplexer.nextId
  taken : t.multiplexer.agenda = s.multiplexer.agenda ++ [.add id device]

/-- Whether the engine has asked for all devices to be closed. -/
def ClosedByEngine (ms : List Move) : Prop :=
  ∃ c, .multiplexer (.call c .shutdown) ∈ ms ∨ .multiplexer (.call c .close) ∈ ms

/-- A tunnel for the configuration was attached, and is the newest device still, unless it
    was handed in behind a close, the engine has closed it, or the coordinator has crashed. -/
def Attached (s₀ : State) (ms : List Move) (t : State) (a : Applied) : Prop :=
  ∃ ms₁ m ms₂ u v e id device, ms = ms₁ ++ m :: ms₂ ∧ Run s₀ ms₁ u ∧
    u.step m = some (v, e) ∧ Run v ms₂ t ∧ Attaches u v e a id device ∧
    (¬ u.multiplexer.ClosingSoon → ¬ ClosedByEngine ms₂ →
      t.multiplexer.coordinator = .crashed ∨ Newest id device t.multiplexer)

/-- What a move does to the recorded configuration. -/
inductive Change (s : State) (m : Move) (ns : List Multiplexer.Move) (t : State) (e : Effects) :
    Prop
  | cleared (h : t.applied = none)
  | attached {a : Applied} {id : DeviceId} {device : DeviceRef} (h : t.applied = some a)
      (ha : Attaches s t e a id device)
      (hn : ¬ s.multiplexer.ClosingSoon → Newest id device t.multiplexer)
  /-- The newest device keeps its place, unless the engine's own call is for closing. -/
  | kept (h : t.applied = s.applied)
      (hn : s.multiplexer.isOver = true ∨ (∀ n ∈ ns, n.spares = true) ∨ ClosedByEngine [m])

section

variable {s₀ s t u : State} {m : Move} {e : Effects} {ms : List Move}
  {ns : List Multiplexer.Move} {a : Applied} {c : Caller} {p : Platform} {options : Options}

theorem Begins.spares {j : Job} (b : Begins s c m p j ns u) : ∀ n ∈ ns, n.spares = true := by
  cases b with
  | enter hj hh hs => exact nofun
  | resume hj hs hl => exact fun n hn => List.mem_singleton.1 hn ▸ rfl

/-- A tunnel that is handed in to a multiplexer that is not over is attached. -/
theorem attaches_of_add {calls : List Multiplexer.Call} {events : Multiplexer.Mailbox Event}
    {service : String} {chromeOs : Bool} {device : DeviceRef}
    (haddr : a.router.localAddresses ≠ []) (ho : s.multiplexer.isOver = false) :
    Attaches s (State.dismiss { s with
        service := some service
        multiplexer := (Multiplexer.State.add { s.multiplexer with calls, events } device).2
        applied := some a } c)
      { calls := building service (plan s.options chromeOs a.router a.dns) device
        result := some (.ok ()) } a s.multiplexer.nextId device where
  addresses := haddr
  calls := ⟨service, chromeOs, rfl⟩
  result := rfl
  number := rfl
  taken := by
    have hopen : Multiplexer.State.isOver { s.multiplexer with calls, events } = false := ho
    rw [multiplexer_dismiss, Multiplexer.State.add_eq hopen]
    simp [Multiplexer.State.agenda, Multiplexer.State.nextId]

theorem change_of_deed (ha : s.allows m = true) (d : Deed s m ns t e) : Change s m ns t e := by
  cases d with
  | starts hs =>
    obtain ⟨-, _, _, -, rfl⟩ := start_cases hs
    exact .kept rfl (.inr (.inl nofun))
  | unchanged hj hh ha' => exact .kept applied_dismiss (.inr (.inl nofun))
  | asks b hasks hs => exact .cleared rfl
  | fails b ht hb hf =>
    refine .kept ?_ (.inr (.inl b.spares))
    rw [applied_dismiss, b.eq]
  | @attaches _ c p j pre u service a chromeOs device b ht hb haddr ho =>
    obtain ⟨_, _, hu⟩ := b.multiplexer
    have hn : ¬ u.multiplexer.ClosingSoon →
        Newest u.multiplexer.nextId device (u.multiplexer.add device).2 :=
      Multiplexer.State.newest_add ho
    rw [hu] at ho hn ⊢
    refine .attached (a := a) applied_dismiss (attaches_of_add haddr ho) fun hc => ?_
    rw [multiplexer_dismiss]
    exact hn hc
  | refused b ht hb ho =>
    obtain ⟨_, _, hu⟩ := b.multiplexer
    refine .kept rfl (.inl ?_)
    rw [hu] at ho
    exact ho
  | closed b hs =>
    refine .kept ?_ (.inr (.inl b.spares))
    rw [applied_dismiss, b.eq]
  | discarded hj hs => exact .kept applied_dismiss (.inr (.inl nofun))
  | quits hc => exact .kept applied_dismiss (.inr (.inl nofun))
  | cancels hs =>
    exact .kept applied_dismiss (.inr (.inl fun n hn => List.mem_singleton.1 hn ▸ rfl))
  | @engine n v hs =>
    refine .kept rfl (.inr ?_)
    have hspares : n.spares = true → ∀ n' ∈ [n], n'.spares = true := fun h n' hn' =>
      List.mem_singleton.1 hn' ▸ h
    cases n with
    | add device => cases ha
    | call c op =>
      cases op with
      | shutdown => exact .inr ⟨c, .inl (List.mem_singleton_self _)⟩
      | close => exact .inr ⟨c, .inr (List.mem_singleton_self _)⟩
      | _ => exact .inl (hspares rfl)
    | _ => exact .inl (hspares rfl)

/-- While a configuration is recorded, the tunnel that was attached for it keeps its place. -/
theorem attached_of_run (hstart : Manager.start options = .ok s₀) (h : Run s₀ ms s)
    (ha : s.applied = some a) : Attached s₀ ms s a := by
  induction h generalizing a with
  | nil =>
    rw [(start_eq hstart).2] at ha
    cases ha
  | @snoc ms s t m e h hallows hs ih =>
    obtain ⟨hord, hord', ⟨_, d⟩, _, hbegin⟩ := deed_of_run hstart h hallows hs
    cases change_of_deed hallows d with
    | cleared hnone =>
      rw [hnone] at ha
      cases ha
    | attached hsome hatt hn =>
      obtain rfl := Option.some.inj (hsome.symm.trans ha)
      exact ⟨ms, m, [], s, t, e, _, _, rfl, h, hs, .nil, hatt, fun hc _ => .inr (hn hc)⟩
    | kept hsame hn =>
      obtain ⟨ms₁, m', ms₂, u, v, e', id, device, rfl, hrun, hstep, hrest, hatt, hkeep⟩ :=
        ih (hsame ▸ ha)
      refine ⟨ms₁, m', ms₂ ++ [m], u, v, e', id, device, by simp, hrun, hstep,
        .snoc hrest hallows hs, hatt, fun hc hengine => ?_⟩
      have hbefore : ¬ ClosedByEngine ms₂ := fun ⟨c, hc⟩ =>
        hengine ⟨c, hc.imp (List.mem_append_left _) (List.mem_append_left _)⟩
      have hlast : ¬ ClosedByEngine [m] := fun ⟨c, hc⟩ =>
        hengine ⟨c, hc.imp (List.mem_append_right _) (List.mem_append_right _)⟩
      have hmux := d.run hord
      rcases hkeep hc hbefore with hcrashed | hnewest
      · exact .inl (Multiplexer.State.crashed_of_moves hmux hcrashed)
      · have hspares := (hn.resolve_left (by simp [hnewest.isOver])).resolve_right hlast
        exact Multiplexer.State.newest_of_moves hbegin hmux hord'.held hspares (.inr hnewest)

/-- After an update that ends well, its configuration is recorded. -/
theorem applied_of_update (h : Orderly s) {j : Job} {service : String} (hj : s.job? c = some j)
    (ht : j.task = .update service a.router a.dns) (haddr : a.router.localAddresses ≠ [])
    (hm : m = .enter c p ∨ m = .resume c p) (hs : s.step m = some (t, e))
    (hr : e.result = some (.ok ())) : t.applied = some a := by
  obtain ⟨ns, d⟩ := deed_of_step h hs
  have hsame : ∀ {c' p' j' pre u}, Begins s c' m p' j' pre u → j' = j := by
    intro c' p' j' pre u b
    have hj' := b.job
    have hc : c' = c := by
      cases b <;> rcases hm with hm | hm <;> cases hm <;> rfl
    exact Option.some.inj (hj'.symm.trans (hc ▸ hj))
  cases d with
  | @unchanged c' p' service' a' hj' hh ha =>
    obtain rfl : c' = c := by rcases hm with hm | hm <;> cases hm; rfl
    obtain rfl := Option.some.inj (hj.symm.trans hj')
    obtain ⟨-, rfl⟩ := update_inj ht
    rw [applied_dismiss, ha]
  | asks b hasks hs => cases hr
  | fails b ht' hb hf => cases hr
  | @attaches _ c' p' j' pre u service' a' chromeOs device b ht' hb haddr' ho =>
    obtain rfl := hsame b
    obtain ⟨-, rfl⟩ := update_inj (ht.symm.trans ht')
    rw [applied_dismiss]
  | refused b ht' hb ho => cases hr
  | @closed c' p' j' u service' r b hstage =>
    -- neither a close nor an update without addresses is such an update
    obtain rfl := hsame b
    obtain ⟨hmem, -⟩ := mem_of_job? b.job
    have hfits := h.fits _ hmem
    rw [ht] at hfits
    rcases hstage with ⟨hstage, -⟩ | hstage <;> rw [hstage] at hfits
    · cases hfits with
      | waits hasks =>
        cases hasks with
        | emptying hempty => exact absurd hempty haddr
    · cases hfits with
      | waits hasks => cases hasks
  | starts hs => rcases hm with hm | hm <;> cases hm
  | discarded hj' hs => rcases hm with hm | hm <;> cases hm
  | quits hc => rcases hm with hm | hm <;> cases hm
  | cancels hs => rcases hm with hm | hm <;> cases hm
  | engine hs => rcases hm with hm | hm <;> cases hm

/-- After an update that ends well, a tunnel for its configuration has been attached and is
    the newest device, unless it was taken away by others. -/
theorem attached_of_update (hstart : Manager.start options = .ok s₀) (h : Run s₀ ms s) {j : Job}
    {service : String} (hj : s.job? c = some j) (ht : j.task = .update service a.router a.dns)
    (haddr : a.router.localAddresses ≠ []) (hm : m = .enter c p ∨ m = .resume c p)
    (hs : s.step m = some (t, e)) (hr : e.result = some (.ok ())) :
    t.applied = some a ∧ Attached s₀ (ms ++ [m]) t a := by
  have happlied := applied_of_update (orderly_of_run hstart h).1 hj ht haddr hm hs hr
  have hallows : s.allows m = true := by rcases hm with rfl | rfl <;> rfl
  exact ⟨happlied, attached_of_run hstart (.snoc h hallows hs) happlied⟩

end

/-! ## A first tunnel -/

/-- A manager with the settings that need not be given. -/
def fresh : State :=
  { options := {}, multiplexer := .init {} }

theorem start_fresh : Manager.start {} = .ok fresh := by
  have hcheck : ({} : Options).check = .ok () := by decide +kernel
  rw [Manager.start, hcheck]
  rfl

/-- A platform that refuses nothing. -/
def granting (device : DeviceRef) : Platform :=
  { chromeOs := false, refuses := fun _ _ => none, establish := .tunnel device }

/-- One address, and no routes. -/
def oneAddress : RouterConfig :=
  { localAddresses := [⟨.ofNat .ipv4 (10 * 2 ^ 24 + 5), 24, by decide⟩] }

def firstUpdate : Task :=
  .update "vpn" oneAddress none

/-- The first update has its turn. -/
def begun : State :=
  { fresh with jobs := [{ caller := 0, task := firstUpdate }], holder := some 0 }

/-- The first update has ended, and its tunnel is on its way to the coordinator. -/
def updated : State :=
  { fresh with
    multiplexer := (fresh.multiplexer.add 0).2
    applied := some ⟨oneAddress, none⟩
    service := some "vpn" }

theorem run_begun : Run fresh [.start 0 firstUpdate] begun :=
  .of_play rfl

/-- The moves up to the end of the first update. -/
def firstMoves : List Move :=
  [.start 0 firstUpdate, .enter 0 (granting 0)]

theorem step_updated : begun.step (.enter 0 (granting 0)) = some (updated,
    { calls := building "vpn" (plan {} false oneAddress none) 0, result := some (.ok ()) }) := by
  have hb : begun.build 0 "vpn" oneAddress none false (granting 0) = _ :=
    build_eq (fun _ _ _ => rfl) rfl rfl
  exact congrArg some hb

theorem run_updated : Run fresh firstMoves updated :=
  .snoc run_begun rfl step_updated

theorem attached_updated : Manager.start {} = .ok fresh ∧
    Run fresh [.start 0 firstUpdate] begun ∧
    updated.applied = some ⟨oneAddress, none⟩ ∧
    Attached fresh firstMoves updated ⟨oneAddress, none⟩ :=
  ⟨start_fresh, run_begun, attached_of_update start_fresh run_begun
    (j := { caller := 0, task := firstUpdate }) rfl rfl nofun (.inl rfl) step_updated rfl⟩

/-- The tunnel is taken in, and the engine shuts all devices down. Then the same update comes
    again. -/
def emptying : List Move :=
  ([.control, .call 9 .shutdown, .control, .pollWriter, .joinWriter, .closeReturned ⟨1⟩ (.value ()),
    .joinCloser ⟨1⟩, .pollReader, .joinReader, .leave 9] : List Multiplexer.Move).map .multiplexer ++
  [.start 1 firstUpdate]

def emptied : State :=
  { fresh with
    multiplexer := { fresh.multiplexer with added := 1 }
    applied := some ⟨oneAddress, none⟩
    service := some "vpn"
    jobs := [{ caller := 1, task := firstUpdate }]
    holder := some 1 }

/-- An update ends well, and makes no call on the platform, although no device is there. -/
theorem recorded_without_tunnel :
    Run fresh (firstMoves ++ emptying) emptied ∧
    emptied.step (.enter 1 (granting 1)) =
      some (emptied.dismiss 1, { calls := [], result := some (.ok ()) }) ∧
    (emptied.dismiss 1).applied = some ⟨oneAddress, none⟩ ∧
    (emptied.dismiss 1).multiplexer.slots = [] ∧ (emptied.dismiss 1).multiplexer.agenda = [] :=
  ⟨run_updated.append (.of_play rfl), rfl, rfl, rfl, rfl⟩

end SeamlessTunnel.Manager
