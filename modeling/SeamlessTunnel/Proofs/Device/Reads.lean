import Mathlib.Data.List.Forall2
import SeamlessTunnel.Proofs.Device.Steps
/-
  SeamlessTunnel.Proofs.Device.Reads — many reads of one device in memory.

  Whatever tasks do at a device, and in whatever order (`inTurn_of_run`):
  - What is put into a queue leaves it in order, each item with one read, and what no read
    came back with is still there (`Queue.Balanced`). So a read that is given up takes
    nothing with it.
  - The check decides (`returnsOf_of_fault`, `Barred.run`): a read that looks for an error
    while one is queued comes back with that and not with a packet, and a read that looks
    whether the device is closed after it was comes back with that.
  - No wake-up is lost. A read registers before it looks, and a change is made before it is
    announced. So a read that was not woken since it registered has seen everything, or a
    call is still under way (`Alert`).

  A read looks for an error and for a packet after it has found the device open, and a close
  may come in between: such a read may still come back with a packet (`packet_after_close`).
-/

namespace SeamlessTunnel.Device

section

variable {settings : DeviceSettings} {s t u : Shared} {m : Move} {ms ms' : List Move}
  {device device' : Memory} {r : Reader} {ticket : Nat} {out : Option (Outcome Packet)}

/-! ## What was taken -/

/-- A queue of a device. Moves fill it, and reads at one stage empty it. -/
structure Queue (α : Type) where
  content : Memory → List α
  put : Move → Option α
  stage : Stage
  /-- Whether a read came back with an item. -/
  Gives : α → Return → Prop

/-- The packets, cut to the buffers of their readers. -/
def packetQueue : Queue Packet where
  content := (·.packets)
  put
    | .queuePacket p => some p
    | _ => none
  stage := .checkingPackets
  Gives p x := x.outcome = .value (p.take x.size)

/-- The errors for reads. -/
def faultQueue : Queue TunnelError where
  content := (·.readFaults)
  put
    | .queueFault e => some e
    | _ => none
  stage := .checkingFaults
  Gives e x := x.outcome = .failure e

section

variable {α : Type} {q : Queue α}

/-- What was put in, in order, is what reads came back with, one each and in the order in
    which they did, and behind it what is still there. -/
def Queue.Balanced (q : Queue α) (ms : List Move) (s : Shared) : Prop :=
  ∃ taken, ms.filterMap q.put = taken ++ q.content s.device ∧
    List.Forall₂ q.Gives taken (s.returnsFrom q.stage)

/-- What one move does to a queue. -/
def Queue.Flow (q : Queue α) (s : Shared) (m : Move) (u : Shared) : Prop :=
  ∃ taken new, u.returns = s.returns ++ new ∧
    q.content s.device ++ (q.put m).toList = taken ++ q.content u.device ∧
    List.Forall₂ q.Gives taken (new.filter (·.stage = q.stage))

theorem Queue.balanced_run (hfresh : q.content (Shared.fresh settings).device = [])
    (hflow : ∀ s m u, s.step m = some u → q.Flow s m u) (h : Run (.fresh settings) ms s) :
    q.Balanced ms s := by
  induction h with
  | nil => exact ⟨[], hfresh.symm, .nil⟩
  | @snoc s u ms m _ hm ih =>
    obtain ⟨taken, hput, hgives⟩ := ih
    obtain ⟨next, new, hreturns, hcontent, hnew⟩ := hflow s m u hm
    refine ⟨taken ++ next, ?_, ?_⟩
    · have hsnoc : (ms ++ [m]).filterMap q.put = ms.filterMap q.put ++ (q.put m).toList := by
        rw [List.filterMap_append]
        cases hm : q.put m <;> simp [hm]
      rw [hsnoc, hput, List.append_assoc, hcontent, List.append_assoc]
    · unfold Shared.returnsFrom
      rw [hreturns, List.filter_append]
      exact List.rel_append hgives hnew

/-- A move that brings no read back only puts in. -/
theorem Queue.flow_put (hreturns : u.returns = s.returns)
    (hcontent : q.content u.device = q.content s.device ++ (q.put m).toList) : q.Flow s m u :=
  ⟨[], [], by rw [hreturns, List.append_nil], hcontent.symm, .nil⟩

/-- A step of a read only takes out. -/
theorem Queue.flow_advance {taken : List α} (hput : q.put (.advance r.ticket) = none)
    (hcontent : q.content s.device = taken ++ q.content device)
    (hgives : List.Forall₂ q.Gives taken ((returned r out).filter (·.stage = q.stage))) :
    q.Flow s (.advance r.ticket) { s with device, returns := s.returns ++ returned r out } :=
  ⟨taken, _, rfl, by rw [hput, Option.toList_none, List.append_nil, hcontent], hgives⟩

end

theorem Progress.packets (h : Progress device r device' out) :
    ∃ taken, device.packets = taken ++ device'.packets ∧
      List.Forall₂ packetQueue.Gives taken
        ((returned r out).filter (·.stage = .checkingPackets)) := by
  cases h with
  | took hstage hpackets => exact ⟨[_], hpackets, by simp [returned, hstage, packetQueue]⟩
  | refused hstage | failed hstage => exact ⟨[], rfl, by simp [returned, hstage]⟩
  | register | seesOpen | seesNoFault | seesNoPacket | woke => exact ⟨[], rfl, .nil⟩

theorem Progress.faults (h : Progress device r device' out) :
    ∃ taken, device.readFaults = taken ++ device'.readFaults ∧
      List.Forall₂ faultQueue.Gives taken
        ((returned r out).filter (·.stage = .checkingFaults)) := by
  cases h with
  | failed hstage hfaults => exact ⟨[_], hfaults, by simp [returned, hstage, faultQueue]⟩
  | refused hstage | took hstage => exact ⟨[], rfl, by simp [returned, hstage]⟩
  | register | seesOpen | seesNoFault | seesNoPacket | woke => exact ⟨[], rfl, .nil⟩

theorem flow_packetQueue (s : Shared) (m : Move) (u : Shared) (h : s.step m = some u) :
    packetQueue.Flow s m u := by
  cases effect_of_step h with
  | advance _ hp =>
    obtain ⟨taken, hpackets, hgives⟩ := hp.packets
    exact Queue.flow_advance rfl hpackets hgives
  | queuePacket hqueue =>
    rw [queuePacket_eq hqueue]
    exact Queue.flow_put rfl rfl
  | start | cancel | queueFault | markClosed | announce =>
    exact Queue.flow_put rfl (List.append_nil _).symm

theorem flow_faultQueue (s : Shared) (m : Move) (u : Shared) (h : s.step m = some u) :
    faultQueue.Flow s m u := by
  cases effect_of_step h with
  | advance _ hp =>
    obtain ⟨taken, hfaults, hgives⟩ := hp.faults
    exact Queue.flow_advance rfl hfaults hgives
  | queueFault => exact Queue.flow_put rfl rfl
  | queuePacket hqueue =>
    rw [queuePacket_eq hqueue]
    exact Queue.flow_put rfl (List.append_nil _).symm
  | start | cancel | markClosed | announce => exact Queue.flow_put rfl (List.append_nil _).symm

/-! ## The check for errors -/

theorem Progress.out_of_fault (hp : Progress device r device' out)
    (h : r.stage = .checkingFaults) {e : TunnelError} {rest : List TunnelError}
    (hfaults : device.readFaults = e :: rest) : out = some (.failure e) := by
  cases hp <;> simp_all

theorem returnsOf_of_fault (hb : Booked ms s) (hr : r ∈ s.device.readers)
    (hstage : r.stage = .checkingFaults) {e : TunnelError} {rest : List TunnelError}
    (hfaults : s.device.readFaults = e :: rest) (h : s.step (.advance r.ticket) = some t)
    (hrun : Run t ms' u) :
    u.returnsOf r.ticket = [⟨r.ticket, r.size, .checkingFaults, .failure e⟩] := by
  obtain ⟨device, out, hp, rfl⟩ := progress_of_step hb.tickets hr h
  obtain rfl := hp.out_of_fault hstage hfaults
  have hreturned : ⟨r.ticket, r.size, .checkingFaults, .failure e⟩ ∈
      s.returns ++ returned r (some (.failure e)) := by
    simp [returned, hstage]
  exact (hb.snoc h).returnsOf_of_run hreturned hrun

/-! ## The check for a close -/

/-- Whether a read has found the device open and its round is not over. -/
def Stage.isInside : Stage → Bool
  | checkingFaults | checkingPackets => true
  | _ => false

/-- A read that has yet to look whether the device is closed, which it is. -/
structure Barred (ticket : Nat) (s : Shared) : Prop where
  closed : s.device.isClosed = true
  outside : ∀ r ∈ s.device.readers, r.ticket = ticket → r.stage.isInside = false

/-- Came back because the device is closed. -/
def Refused (name : String) (x : Return) : Prop :=
  x.stage = .checkingClosed ∧ x.outcome = .failure (.deviceClosed name)

theorem Barred.progress (hb : Barred ticket s) (hs : s.device.tickets.Nodup)
    (hr : r ∈ s.device.readers) (hp : Progress s.device r device out) :
    (∀ r' ∈ device.readers, r'.ticket = ticket → r'.stage.isInside = false) ∧
      ∀ x ∈ returned r out, x.ticket = ticket → Refused s.device.name x := by
  have hother : r.stage.isInside = true → r.ticket ≠ ticket := by
    intro hinside hticket
    rw [hb.outside r hr hticket] at hinside
    cases hinside
  cases hp with
  | register => exact ⟨forall_register hs hr hb.outside fun _ => rfl, nofun⟩
  | refused hstage =>
    exact ⟨forall_cancelRead hb.outside, List.forall_mem_singleton.2 fun _ => ⟨hstage, rfl⟩⟩
  | seesOpen _ hopen =>
    rw [hb.closed] at hopen
    cases hopen
  | failed hstage | took hstage =>
    have hticket : r.ticket ≠ ticket := hother (by rw [hstage]; rfl)
    exact ⟨forall_cancelRead hb.outside, List.forall_mem_singleton.2 fun h => absurd h hticket⟩
  | seesNoFault hstage =>
    have hticket : r.ticket ≠ ticket := hother (by rw [hstage]; rfl)
    exact ⟨forall_setStage hs hr hb.outside fun h => absurd h hticket, nofun⟩
  | seesNoPacket | woke => exact ⟨forall_setStage hs hr hb.outside fun _ => rfl, nofun⟩

theorem Barred.step (hb : Barred ticket s) (hs : s.device.tickets.Nodup)
    (h : s.step m = some u) : Barred ticket u ∧ ∃ new, u.returns = s.returns ++ new ∧
      ∀ x ∈ new, x.ticket = ticket → Refused s.device.name x := by
  have hclosed := (frame_of_step h).2 (.inl hb.closed)
  have hnone : ∃ new, s.returns = s.returns ++ new ∧
      ∀ x ∈ new, x.ticket = ticket → Refused s.device.name x :=
    ⟨[], (List.append_nil _).symm, nofun⟩
  cases effect_of_step h with
  | start size =>
    refine ⟨⟨hclosed, ?_⟩, hnone⟩
    exact List.forall_mem_append.2 ⟨hb.outside, List.forall_mem_singleton.2 fun _ => rfl⟩
  | advance hr hp =>
    obtain ⟨houtside, hrefused⟩ := hb.progress hs hr hp
    exact ⟨⟨hclosed, houtside⟩, _, rfl, hrefused⟩
  | cancel => exact ⟨⟨hclosed, forall_cancelRead hb.outside⟩, hnone⟩
  | queuePacket hqueue =>
    rw [queuePacket_eq hqueue] at hclosed ⊢
    exact ⟨⟨hclosed, hb.outside⟩, hnone⟩
  | queueFault | markClosed => exact ⟨⟨hclosed, hb.outside⟩, hnone⟩
  | announce =>
    refine ⟨⟨hclosed, List.forall_mem_map.2 fun r hr => ?_⟩, hnone⟩
    have houtside := hb.outside r hr
    split <;> exact houtside

theorem Barred.run (hbarred : Barred ticket s) (hb : Booked ms s)
    (hreturns : s.returnsOf ticket = []) (h : Run s ms' u) :
    Barred ticket u ∧ ∀ x ∈ u.returnsOf ticket, Refused s.device.name x := by
  induction h with
  | nil =>
    rw [hreturns]
    exact ⟨hbarred, nofun⟩
  | snoc hrun hm ih =>
    obtain ⟨hbarred, new, hnew, hrefused⟩ := ih.1.step (hb.run hrun).tickets hm
    refine ⟨hbarred, ?_⟩
    unfold Shared.returnsOf
    rw [hnew, List.filter_append]
    refine List.forall_mem_append.2 ⟨ih.2, fun x hx => ?_⟩
    obtain ⟨hx, hticket⟩ := List.mem_filter.1 hx
    rw [← name_of_run hrun]
    exact hrefused x hx (of_decide_eq_true hticket)

theorem Progress.stage_of_returned (hp : Progress device r device' out) :
    ∀ x ∈ returned r out,
      x.stage = .checkingPackets ∨ x.stage = .checkingFaults ∨ Refused device.name x := by
  cases hp with
  | refused hstage => exact List.forall_mem_singleton.2 (.inr (.inr ⟨hstage, rfl⟩))
  | failed hstage => exact List.forall_mem_singleton.2 (.inr (.inl hstage))
  | took hstage => exact List.forall_mem_singleton.2 (.inl hstage)
  | register | seesOpen | seesNoFault | seesNoPacket | woke => nofun

theorem stage_of_run (h : Run (.fresh settings) ms s) : ∀ x ∈ s.returns,
    x.stage = .checkingPackets ∨ x.stage = .checkingFaults ∨ Refused settings.name x := by
  induction h with
  | nil => nofun
  | @snoc s _ _ _ hrun hm ih =>
    have hname : s.device.name = settings.name := name_of_run hrun
    cases effect_of_step hm with
    | advance _ hp =>
      refine List.forall_mem_append.2 ⟨ih, ?_⟩
      rw [← hname]
      exact hp.stage_of_returned
    | start | cancel | queuePacket | queueFault | markClosed | announce => exact ih

/-! ## Wake-ups -/

/-- What a read has looked at in its round is as it saw it. -/
def Clear (d : Memory) : Stage → Prop
  | .registering | .checkingClosed => True
  | .checkingFaults => d.isClosed = false
  | .checkingPackets => d.isClosed = false ∧ d.readFaults = []
  | .waiting => d.isClosed = false ∧ d.readFaults = [] ∧ d.packets = []

/-- A read that was not woken since it registered has missed nothing, or a wake-up is still
    to come. -/
def Alert (d : Memory) (r : Reader) : Prop :=
  r.woken = false → 0 < d.unannounced ∨ Clear d r.stage

/-- What leaves a queue does not matter to who found it empty. -/
theorem Alert.mono (h : Alert device r) (hcalls : device'.unannounced = device.unannounced)
    (hclosed : device'.isClosed = device.isClosed)
    (hfaults : device.readFaults = [] → device'.readFaults = [])
    (hpackets : device.packets = [] → device'.packets = []) : Alert device' r := by
  intro hwoken
  rw [hcalls]
  refine (h hwoken).imp_right ?_
  cases r.stage with
  | registering | checkingClosed => exact id
  | checkingFaults => exact hclosed.trans
  | checkingPackets => exact And.imp hclosed.trans hfaults
  | waiting => exact And.imp hclosed.trans (And.imp hfaults hpackets)

theorem Alert.progress (ha : ∀ r ∈ device.readers, Alert device r) (hs : device.tickets.Nodup)
    (hr : r ∈ device.readers) (hp : Progress device r device' out) :
    ∀ r' ∈ device'.readers, Alert device' r' := by
  cases hp with
  | register => exact forall_register hs hr ha fun _ => .inr trivial
  | refused => exact forall_cancelRead ha
  | failed _ hfaults =>
    refine forall_cancelRead fun r' hr' => (ha r' hr').mono rfl rfl ?_ id
    rw [hfaults]
    nofun
  | took _ hpackets =>
    refine forall_cancelRead fun r' hr' => (ha r' hr').mono rfl rfl id ?_
    rw [hpackets]
    nofun
  | seesOpen _ hopen => exact forall_setStage hs hr ha fun _ => .inr hopen
  | seesNoFault hstage hfaults =>
    refine forall_setStage hs hr ha fun hwoken => ?_
    have hbefore := ha r hr hwoken
    rw [hstage] at hbefore
    exact hbefore.imp_right fun hopen => ⟨hopen, hfaults⟩
  | seesNoPacket hstage hpackets =>
    refine forall_setStage hs hr ha fun hwoken => ?_
    have hbefore := ha r hr hwoken
    rw [hstage] at hbefore
    exact hbefore.imp_right fun hclear => ⟨hclear.1, hclear.2, hpackets⟩
  | woke => exact forall_setStage hs hr ha fun _ => .inr trivial

theorem Alert.step (ha : ∀ r ∈ s.device.readers, Alert s.device r)
    (hs : s.device.tickets.Nodup) (h : s.step m = some u) :
    ∀ r ∈ u.device.readers, Alert u.device r := by
  cases effect_of_step h with
  | start size =>
    exact List.forall_mem_append.2 ⟨ha, List.forall_mem_singleton.2 fun _ => .inr trivial⟩
  | advance hr hp => exact Alert.progress ha hs hr hp
  | cancel => exact forall_cancelRead ha
  | queuePacket hqueue =>
    rw [queuePacket_eq hqueue]
    exact fun _ _ _ => .inl (Nat.succ_pos _)
  | queueFault | markClosed => exact fun _ _ _ => .inl (Nat.succ_pos _)
  | announce =>
    -- whoever has registered is woken, and nobody else has looked at anything
    refine List.forall_mem_map.2 fun r _ => ?_
    split
    · rename_i hstage
      intro _
      rw [hstage]
      exact .inr trivial
    · nofun

theorem alert_of_run (h : Run (.fresh settings) ms s) :
    ∀ r ∈ s.device.readers, Alert s.device r := by
  induction h with
  | nil => nofun
  | snoc hrun hm ih => exact Alert.step ih (booked_of_run hrun).tickets hm

/-! ## All tasks together -/

/-- What holds after any moves of any number of tasks. -/
structure InTurn (name : String) (ms : List Move) (s : Shared) : Prop where
  /-- Packets leave in the order in which they came in, each with one read, cut to its
      buffer. -/
  packets : packetQueue.Balanced ms s
  faults : faultQueue.Balanced ms s
  /-- There is nothing else to come back with but that the device is closed. -/
  others : ∀ x ∈ s.returns,
    x.stage = .checkingPackets ∨ x.stage = .checkingFaults ∨ Refused name x
  once : (s.returns.map (·.ticket)).Nodup
  sizes : ∀ x ∈ s.returns, (sizesIn ms)[x.ticket]? = some x.size
  cancelled : ∀ ticket, .cancel ticket ∈ ms → s.returnsOf ticket = []
  /-- A read that looks for an error while one is queued comes back with it, and with nothing
      else ever. -/
  faultFirst : ∀ r ∈ s.device.readers, r.stage = .checkingFaults →
    ∀ e rest, s.device.readFaults = e :: rest → ∀ t, s.step (.advance r.ticket) = some t →
    ∀ ms' u, Run t ms' u →
      u.returnsOf r.ticket = [⟨r.ticket, r.size, .checkingFaults, .failure e⟩]
  /-- After a close, a read that has yet to look whether the device is closed comes back with
      that, if at all; so does every read that is yet to start. -/
  afterClose : .markClosed ∈ ms → ∀ ticket, s.returnsOf ticket = [] →
    (∀ r ∈ s.device.readers, r.ticket = ticket → r.stage.isInside = false) →
    ∀ ms' u, Run s ms' u → ∀ x ∈ u.returnsOf ticket, Refused name x
  /-- When all calls have returned, a read that waits and was not woken has nothing to find. -/
  noLostWakeUp : s.device.unannounced = 0 →
    ∀ r ∈ s.device.readers, r.stage = .waiting → r.woken = false →
    s.device.isClosed = false ∧ s.device.readFaults = [] ∧ s.device.packets = []

/-- Whatever the tasks at a device do, and in whatever order. -/
theorem inTurn_of_run (h : Run (.fresh settings) ms s) : InTurn settings.name ms s := by
  have hb := booked_of_run h
  have hname : s.device.name = settings.name := name_of_run h
  constructor
  · exact packetQueue.balanced_run rfl flow_packetQueue h
  · exact faultQueue.balanced_run rfl flow_faultQueue h
  · exact stage_of_run h
  · exact hb.once
  · exact hb.sizes
  · exact fun ticket hcancel => (returnsOf_of_cancel h hcancel).2
  · exact fun r hr hstage e rest hfaults t ht ms' u hrun =>
      returnsOf_of_fault hb hr hstage hfaults ht hrun
  · intro hclose ticket hreturns houtside ms' u hrun
    rw [← hname]
    exact (Barred.run ⟨closed_of_run h hclose, houtside⟩ hb hreturns hrun).2
  · intro hcalls r hr hstage hwoken
    have halert := alert_of_run h r hr hwoken
    rw [hcalls, hstage] at halert
    exact halert.resolve_left (Nat.lt_irrefl 0)

/-- Read 2 waits and is given up, read 1 meets the error between two of its checks, read 0
    waits and is woken for a packet that its buffer is too short for, and read 3 comes after
    the close; one packet is left. -/
theorem inTurn_interleaved :
    let moves : List Move := [.start 3, .start 8, .start 2, .start 9,
      .advance 0, .advance 0, .advance 0, .advance 2, .advance 2, .advance 0, .advance 2,
      .advance 2, .advance 1, .advance 1, .queuePacket [1, 2, 3, 4], .queueFault (.readFailed "x"),
      .cancel 2, .advance 1, .announce, .queuePacket [5], .announce, .announce, .advance 0,
      .advance 0, .advance 0, .advance 0, .advance 0, .markClosed, .advance 3, .advance 3,
      .announce]
    ∃ s, Run (.fresh {}) moves s ∧ InTurn "tun0" moves s ∧
      s.returns = [⟨1, 8, .checkingFaults, .failure (.readFailed "x")⟩,
        ⟨0, 3, .checkingPackets, .value [1, 2, 3]⟩,
        ⟨3, 9, .checkingClosed, .failure (.deviceClosed "tun0")⟩] ∧
      s.device.packets = [[5]] ∧ s.device.unannounced = 0 := by
  intro moves
  obtain ⟨s, hs, hend⟩ : ∃ s, moves.foldlM Shared.step (.fresh {}) = some s ∧
      s.returns = [⟨1, 8, .checkingFaults, .failure (.readFailed "x")⟩,
        ⟨0, 3, .checkingPackets, .value [1, 2, 3]⟩,
        ⟨3, 9, .checkingClosed, .failure (.deviceClosed "tun0")⟩] ∧
      s.device.packets = [[5]] ∧ s.device.unannounced = 0 := ⟨_, rfl, rfl, rfl, rfl⟩
  exact ⟨s, run_of_foldlM hs, inTurn_of_run (run_of_foldlM hs), hend⟩

/-- A read that found the device open before the close, and the packet after it. -/
theorem packet_after_close :
    let moves : List Move := [.start 9, .queuePacket [7], .announce, .advance 0, .advance 0,
      .markClosed, .announce, .advance 0, .advance 0]
    ∃ s, Run (.fresh {}) moves s ∧ s.returns = [⟨0, 9, .checkingPackets, .value [7]⟩] := by
  intro moves
  obtain ⟨s, hs, hend⟩ : ∃ s, moves.foldlM Shared.step (.fresh {}) = some s ∧
      s.returns = [⟨0, 9, .checkingPackets, .value [7]⟩] := ⟨_, rfl, rfl⟩
  exact ⟨s, run_of_foldlM hs, hend⟩

end

end SeamlessTunnel.Device
