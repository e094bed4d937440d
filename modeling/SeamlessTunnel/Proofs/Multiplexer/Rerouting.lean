import SeamlessTunnel.Proofs.Multiplexer.Devices
import SeamlessTunnel.Proofs.Multiplexer.Writes
/-
  SeamlessTunnel.Proofs.Multiplexer.Rerouting — writes go to the newest device.

  A write call takes the request at the head of the queue, while its caller waits, and goes
  to the active device: no newer one was taken in, and no teardown has told it to close
  (`starts_of_run`). While no device is active the queue stays as it is (`waiting_of_step`).
  Together with the fates of requests this says what a change of devices does to writes
  (`rerouting_of_run`).

  The queue is with the write pump while that runs. So a device that crashes in a write takes
  the requests in the queue with it, although the coordinator goes on until it hears of that
  (`queued_write_refused`).
-/

namespace SeamlessTunnel.Multiplexer

/-- The device that a call writes to. -/
def DeviceCall.write? : DeviceCall → Option DeviceId
  | .write id => some id
  | .read _ | .nextEvent _ | .close _ | .lateClose _ | .ask _ => none

namespace State

/-- The devices that a move tells to close, all at once. -/
def dismissedDevices (s : State) (_ : Move) (t : State) : List DeviceId :=
  match s.coordinator, t.coordinator with
  | .serving, .tearingDown _ => s.slots.map (·.id)
  | _, _ => []

/-- A write call that starts, after the moves so far. -/
structure WriteStart (s₀ : State) (ms : List Move) (u v : State) (id : DeviceId)
    (r : WriteRequest) : Prop where
  serving : u.coordinator = .serving
  active : ∃ k ∈ u.slots, k.id = id ∧ k.phase = .active
  /-- It takes the request at the head of the queue. -/
  head : u.writes.items = r :: v.writes.items
  /-- Its caller has not given up. -/
  wanted : u.awaits r.caller = true ∧ .cancel r.caller ∉ ms
  newest : ∀ id' ∈ s₀.log acceptedDevices ms, id'.number ≤ id.number
  kept : id ∉ s₀.log dismissedDevices ms

/-- What becomes of the writes of a run. -/
structure WritesRerouted (s₀ : State) (ms : List Move) (s : State) : Prop where
  /-- Of the calls on devices at most one is a write, with the packet of its request, and no
      write was issued before all earlier ones had returned. -/
  single : s.outstanding.filterMap (fun o => o.call.write?.map (·, o.request)) =
      s.inFlightWrite.toList.map (fun w => (w.1, .write w.2.packet)) ∧
    s₀.log issuedWrites ms =
      (s₀.log returnedWrites ms).map (fun w => (w.1, w.2.1)) ++ s.inFlightWrite.toList
  /-- Each request has one fate or is pending, in the order of the queue. -/
  fates : ∃ fates : List WriteFate,
    s₀.log enteredWrites ms = fates.map (·.request) ++ s.pendingWrites ∧
    s₀.log returnedWrites ms =
      fates.filterMap (fun f => f.result.map fun d => (d.1, f.request, d.2)) ∧
    s₀.log answeredWrites ms = fates.filterMap (fun f => f.answer.map (f.request, ·)) ∧
    ∀ f ∈ fates, Fated ms s f
  pending : ∀ r ∈ s.pendingWrites, s.answer? r.caller = none ∧
    (s.awaits r.caller = true ∨ .cancel r.caller ∈ ms)
  /-- What a write call returns goes to the caller whose request it serves, and to nobody
      else. -/
  results : ∀ ms₁ out ms₂, ms = ms₁ ++ .writeReturned out :: ms₂ →
    ∃ u v id r, Run s₀ ms₁ u ∧ u.step (.writeReturned out) = some v ∧
      u.inFlightWrite = some (id, r) ∧
      (u.awaits r.caller = true → v.answer? r.caller = some (writeAnswer out)) ∧
      (out ≠ .crash → ∀ c, c ≠ r.caller → v.answer? c = u.answer? c)
  starts : ∀ ms₁ m ms₂ u v, ms = ms₁ ++ m :: ms₂ → Run s₀ ms₁ u → u.step m = some v →
    ∀ w ∈ issuedWrites u m v, WriteStart s₀ ms₁ u v w.1 w.2
  /-- No device is written to after a newer one was. -/
  devices : ((s₀.log issuedWrites ms).map (·.1)).Pairwise (·.number ≤ ·.number)
  /-- While no device is active, requests stay in the queue. -/
  waiting : ∀ ms₁ m ms₂ u v, ms = ms₁ ++ m :: ms₂ → Run s₀ ms₁ u → u.step m = some v →
    .active ∉ u.phases → ¬ WritesClosed [m] v → u.writes.items <+: v.writes.items
  /-- An active device has the write pump, or is next to have it. -/
  next : s.isOver = false → s.hasHandle = true → ∀ k ∈ s.slots, k.phase = .active →
    ∃ pump, s.writer = some pump ∧ (pump.id = k.id ∨ s.Inactive pump.id)

section

variable {s₀ s t u v : State} {m : Move} {id : DeviceId} {ms : List Move}

/-! ## The write under way -/

/-- Of all calls on devices at most one is a write, with the packet of its request. -/
theorem writes_outstanding (s : State) :
    s.outstanding.filterMap (fun o => o.call.write?.map (·, o.request)) =
      s.inFlightWrite.toList.map fun w => (w.1, .write w.2.packet) := by
  obtain ⟨d, d', others, he, hothers⟩ := outstanding_parts s
  have hnone : others.filterMap (fun o => o.call.write?.map (·, o.request)) = [] := by
    refine List.filterMap_eq_nil_iff.2 fun o ho => ?_
    cases hc : o.call with
    | write id => exact absurd hc (hothers o ho id).2
    | _ => rfl
  rw [he, List.filterMap_append, List.filterMap_append, hnone]
  simp [DeviceCall.write?]

theorem inFlightWrite_pollWriter (hs : s.pollWriter = some t) : s.inFlightWrite = none := by
  obtain ⟨pump, hw, ⟨hstage | hstage, -, -⟩ | ⟨hstage, -⟩ | ⟨r, writes, hstage, -, -, -⟩ |
    ⟨hstage, -, -, -⟩⟩ := pollWriter_cases hs
  all_goals
    rw [inFlightWrite_of_writer hw, hstage]
    rfl

theorem inFlightWrite_writeReturned {out : Outcome Nat} (hs : s.writeReturned out = some t) :
    t.inFlightWrite = none := by
  obtain ⟨pump, r, -, -, ⟨a, -, rfl⟩ | ⟨-, rfl⟩⟩ := writeReturned_cases hs
  · rfl
  · cases ho : s.isOver <;> simp [inFlightWrite, shutWrites, WriteStage.request?]

/-- Nobody but the write pump and the device touches the write under way. -/
theorem inFlightWrite_of_step (h : Accounted s) (hset : s.isOver = false → Settled s)
    (hs : s.step m = some t) (hpoll : m ≠ .pollWriter) (hreturned : ∀ out, m ≠ .writeReturned out) :
    t.inFlightWrite = s.inFlightWrite := by
  rcases step_kinds hs with ⟨hwork, ho⟩ | ⟨device, -, rfl⟩ | q
  · rcases (hset ho).cut_or_spared h hwork hs with hc | hk
    · exact hc.ended.trans hc.idle.symm
    · exact hk.inFlight
  · obtain ⟨_, he⟩ := add_parts s device
    rw [he]
    rfl
  · rcases q.writes with ⟨hw, -⟩ | rfl | ⟨out, rfl⟩
    · rw [inFlightWrite, inFlightWrite, hw]
    · exact absurd rfl hpoll
    · exact absurd rfl (hreturned out)

/-- A write is issued only after all writes before it have returned. -/
theorem issued_writes_of_run {settings : MultiplexerSettings} (h : Run (.init settings) ms s) :
    (State.init settings).log issuedWrites ms =
      ((State.init settings).log returnedWrites ms).map (fun w => (w.1, w.2.1)) ++
        s.inFlightWrite.toList := by
  refine h.snocRec (p := fun ms s => (State.init settings).log issuedWrites ms =
    ((State.init settings).log returnedWrites ms).map (fun w => (w.1, w.2.1)) ++
      s.inFlightWrite.toList) rfl ?_
  intro ms s m t hrun ih hm
  rw [hrun.log_snoc hm, hrun.log_snoc hm, ih]
  by_cases hpoll : m = .pollWriter
  · subst hpoll
    rw [inFlightWrite_pollWriter hm]
    simp [issuedWrites, returnedWrites]
  · by_cases hreturned : ∃ out, m = .writeReturned out
    · obtain ⟨out, rfl⟩ := hreturned
      rw [inFlightWrite_writeReturned hm]
      simp [issuedWrites, returnedWrites, Function.comp_def]
    · rw [inFlightWrite_of_step (accounted_of_run hrun) (settled_of_run hrun) hm hpoll
        fun out he => hreturned ⟨out, he⟩, returnedWrites_eq_nil fun out he => hreturned ⟨out, he⟩]
      cases m with
      | pollWriter => exact absurd rfl hpoll
      | _ => simp [issuedWrites]

/-- What a write call returns goes to the caller whose request it serves. -/
theorem result_of_run {settings : MultiplexerSettings} {ms₁ ms₂ : List Move} {out : Outcome Nat}
    (h : Run (.init settings) (ms₁ ++ .writeReturned out :: ms₂) s) :
    ∃ u v id r, Run (.init settings) ms₁ u ∧ u.step (.writeReturned out) = some v ∧
      u.inFlightWrite = some (id, r) ∧
      (u.awaits r.caller = true → v.answer? r.caller = some (writeAnswer out)) ∧
      (out ≠ .crash → ∀ c, c ≠ r.caller → v.answer? c = u.answer? c) := by
  obtain ⟨u, v, hu, hv⟩ := h.at_move
  have hcallers := (accounted_of_run hu).callers
  have hreturned : u.writeReturned out = some v := hv
  obtain ⟨pump, r, hw, hstage, hcases⟩ := writeReturned_cases hreturned
  have hflight : u.inFlightWrite = some (pump.id, r) := by
    rw [inFlightWrite_of_writer hw, hstage]
    rfl
  refine ⟨u, v, pump.id, r, hu, hv, hflight, ?_, ?_⟩
  · intro hawaits
    rcases hcases with ⟨a, ⟨-, rfl⟩, rfl⟩ | ⟨rfl, rfl⟩
    · exact answer?_answer_self (s := { u with writer := some { pump with stage := .ready } })
        hcallers hawaits
    · refine answer?_refuse_of_some (answer?_answer_self (s := { u with
        writer := if u.isOver then none else some { pump with stage := .crashed } })
        hcallers hawaits)
  · intro hc c hne
    rcases hcases with ⟨a, -, rfl⟩ | ⟨rfl, -⟩
    · exact answer?_answer_of_ne (s := { u with writer := some { pump with stage := .ready } }) hne
    · exact absurd rfl hc

/-! ## Where writes start -/

/-- Devices that were told to close take no more writes. -/
structure Dismissals (ids : List DeviceId) (s : State) : Prop where
  passed : ∀ id ∈ ids, Passed id s
  inactive : s.isOver = false → ∀ id ∈ ids, s.Inactive id

theorem mem_dismissedDevices (h : id ∈ dismissedDevices s m t) : s.isOver = false ∧
    (∃ cause, t.coordinator = .tearingDown cause) ∧ ∃ k ∈ s.slots, k.id = id := by
  unfold dismissedDevices at h
  split at h
  · rename_i cause hs ht
    exact ⟨by simp [isOver, hs], ⟨cause, ht⟩, by simpa using h⟩
  · cases h

/-- A device that has passed does not become active again. -/
theorem Passed.inactive (hp : Passed id s) (hset : s.isOver = false → Settled s)
    (hs : s.step m = some t) (h : s.Inactive id) : t.Inactive id := by
  intro k' hk' he ha
  obtain ⟨k, hk, hl⟩ := hp.later hset hs hk' he
  exact h k hk (hl.id.symm.trans he) (hl.active ha)

theorem dismissals_of_run {settings : MultiplexerSettings} (h : Run (.init settings) ms s) :
    Dismissals ((State.init settings).log dismissedDevices ms) s := by
  refine h.snocRec (p := fun ms s => Dismissals ((State.init settings).log dismissedDevices ms) s)
    ⟨fun _ hid => (by cases hid), fun _ _ hid => (by cases hid)⟩ ?_
  intro ms s m t hrun ih hm
  have hset := settled_of_run hrun
  rw [hrun.log_snoc hm]
  refine ⟨?_, ?_⟩
  · intro id hid
    rcases List.mem_append.1 hid with hid | hid
    · exact (ih.passed id hid).step hset hm
    · obtain ⟨ho, -, k, hk, rfl⟩ := mem_dismissedDevices hid
      exact ((hset ho).tended.coherent.passed hk).step hset hm
  · intro ho id hid
    rcases List.mem_append.1 hid with hid | hid
    · exact (ih.passed id hid).inactive hset hm (ih.inactive (isOver_eq_false_of_step hm ho) id hid)
    · obtain ⟨-, ⟨cause, hc⟩, -⟩ := mem_dismissedDevices hid
      intro k hk _ ha
      exact (settled_of_run (hrun.snoc hm) ho).tended.tearing cause hc
        (List.mem_map.2 ⟨k, hk, ha⟩)

/-- The write pump passes on a request only while its device is active. -/
theorem taken_of_pollWriter (hset : Settled s) (hs : s.pollWriter = some t) {r : WriteRequest}
    (hf : t.inFlightWrite = some (id, r)) :
    (∃ k ∈ s.slots, k.id = id ∧ k.phase = .active) ∧ s.writes.items = r :: t.writes.items ∧
      s.awaits r.caller = true := by
  have hcoh := hset.tended.coherent
  obtain ⟨pump, hw, hcases⟩ := pollWriter_cases hs
  obtain ⟨k, hk, he⟩ := hcoh.writer pump.id (writtenId_of_writer hw)
  have hactive : s.isDraining pump.id = false := by
    by_contra hd
    rw [pollWriter_of_isDraining hw (by simpa using hd) hs, inFlightWrite_stopWriter] at hf
    cases hf
  rw [isDraining, ← he, hcoh.slot?_eq_some hk] at hactive
  rcases hcases with ⟨-, -, rfl⟩ | ⟨-, rfl⟩ | ⟨r', writes, -, -, hr, rfl⟩ | ⟨-, -, -, rfl⟩
  · rw [inFlightWrite_stopWriter] at hf
    cases hf
  · cases hf
  · cases hawaits : s.awaits r'.caller with
    | false => simp [inFlightWrite, hawaits, WriteStage.request?] at hf
    | true =>
      obtain ⟨rfl, rfl⟩ : pump.id = id ∧ r' = r := by
        simpa [inFlightWrite, hawaits, WriteStage.request?] using hf
      exact ⟨⟨k, hk, he, by simpa using hactive⟩, Mailbox.items_receive hr, hawaits⟩
  · rw [inFlightWrite_stopWriter] at hf
    cases hf

/-- The write pump stops once the coordinator is over. -/
theorem open_of_pollWriter (hs : s.pollWriter = some t) (hf : t.inFlightWrite ≠ none) :
    s.isOver = false := by
  obtain ⟨pump, hw, ⟨-, -, rfl⟩ | ⟨-, rfl⟩ | ⟨r, writes, -, ho, -, -⟩ | ⟨-, ho, -, -⟩⟩ :=
    pollWriter_cases hs
  · exact absurd inFlightWrite_stopWriter hf
  · exact absurd rfl hf
  · exact ho
  · exact ho

/-- A write starts only on the newest device, while it is active. -/
theorem starts_of_run {settings : MultiplexerSettings} (h : Run (.init settings) ms u)
    (hm : u.step m = some v) : ∀ w ∈ issuedWrites u m v,
      WriteStart (.init settings) ms u v w.1 w.2 := by
  rintro ⟨id, r⟩ hw
  cases m with
  | pollWriter =>
    have hf : v.inFlightWrite = some (id, r) := Option.mem_toList.1 hw
    have ho := open_of_pollWriter hm (by rw [hf]; exact Option.some_ne_none _)
    have hset := settled_of_run h ho
    obtain ⟨⟨k, hk, rfl, ha⟩, hhead, hawaits⟩ := taken_of_pollWriter hset hm hf
    refine ⟨?_, ⟨k, hk, rfl, ha⟩, hhead, ⟨hawaits, not_cancelled_of_awaits h hawaits⟩, ?_, ?_⟩
    · cases hc : u.coordinator with
      | serving => rfl
      | tearingDown cause =>
        exact absurd (List.mem_map.2 ⟨k, hk, ha⟩) (hset.tended.tearing cause hc)
      | ended => simp [isOver, hc] at ho
      | crashed => simp [isOver, hc] at ho
    · exact fun id' hid' => (taken_of_run h).newest ho id' hid' k hk ha
    · exact fun hid => (dismissals_of_run h).inactive ho k.id hid k hk rfl ha
  | _ => cases hw

/-- Writes go to devices that were taken in, each at least as new as those before. -/
theorem issued_ascending {settings : MultiplexerSettings} (h : Run (.init settings) ms s) :
    ((State.init settings).log issuedWrites ms).map (·.1) ⊆
        (State.init settings).log acceptedDevices ms ∧
      (((State.init settings).log issuedWrites ms).map (·.1)).Pairwise (·.number ≤ ·.number) := by
  refine h.snocRec (p := fun ms _ => ((State.init settings).log issuedWrites ms).map (·.1) ⊆
      (State.init settings).log acceptedDevices ms ∧
    (((State.init settings).log issuedWrites ms).map (·.1)).Pairwise (·.number ≤ ·.number))
    ⟨List.Subset.refl _, .nil⟩ ?_
  intro ms s m t hrun ih hm
  have hstart := starts_of_run hrun hm
  have hone : (issuedWrites s m t).map (·.1) = [] ∨
      ∃ w ∈ issuedWrites s m t, (issuedWrites s m t).map (·.1) = [w.1] := by
    cases m with
    | pollWriter => cases hf : t.inFlightWrite <;> simp [issuedWrites, hf]
    | _ => exact .inl rfl
  rw [hrun.log_snoc hm, hrun.log_snoc hm, List.map_append]
  rcases hone with hnil | ⟨w, hw, hone⟩
  · rw [hnil, List.append_nil]
    exact ⟨List.Subset.trans ih.1 (List.subset_append_left _ _), ih.2⟩
  · obtain ⟨k, hk, he, -⟩ := (hstart w hw).active
    rw [hone]
    refine ⟨?_, List.pairwise_append.2 ⟨ih.2, List.pairwise_singleton _ _, ?_⟩⟩
    · intro id hid
      refine List.mem_append_left _ ?_
      rcases List.mem_append.1 hid with hid | hid
      · exact ih.1 hid
      · rw [List.mem_singleton.1 hid, ← he]
        exact (taken_of_run hrun).listed k hk
    · intro id hid id' hid'
      rw [List.mem_singleton.1 hid']
      exact (hstart w hw).newest id (ih.1 hid)

/-! ## Waiting -/

/-- While no device is active, no request leaves the queue until it is closed. -/
theorem waiting_of_step (h : Accounted s) (hset : s.isOver = false → Settled s)
    (hs : s.step m = some t) (hn : .active ∉ s.phases) (hc : ¬ WritesClosed [m] t) :
    s.writes.items <+: t.writes.items := by
  have hopen : t.isOver = false := by
    by_contra ho
    exact hc (.inl (by simpa using ho))
  have hbefore := isOver_eq_false_of_step hs hopen
  rcases step_kinds hs with ⟨hwork, -⟩ | ⟨device, -, rfl⟩ | q
  · rcases (hset hbefore).cut_or_spared h hwork hs with hcut | hk
    · exact absurd (.inl hcut.isOver) hc
    · exact hk.writes ▸ List.prefix_rfl
  · obtain ⟨_, he⟩ := add_parts s device
    have hitems : (s.add device).2.writes.items = s.writes.items := by rw [he]
    exact hitems ▸ List.prefix_rfl
  · rcases q.writes with ⟨-, hitems⟩ | rfl | ⟨out, rfl⟩
    · exact hitems
    · obtain ⟨pump, hw, -⟩ := pollWriter_cases hs
      have hcoh := (hset hbefore).tended.coherent
      obtain ⟨k, hk, he⟩ := hcoh.writer pump.id (writtenId_of_writer hw)
      have hd : s.isDraining pump.id = true := by
        rw [isDraining, ← he, hcoh.slot?_eq_some hk]
        have hphase : k.phase ≠ .active := fun ha => hn (List.mem_map.2 ⟨k, hk, ha⟩)
        simpa using hphase
      rw [pollWriter_of_isDraining hw hd hs, stopWriter]
      have ho : s.dropForwarder.isOver = false := hbefore
      simp only [ho]
      exact List.prefix_rfl
    · obtain ⟨pump, r, -, -, ⟨a, -, rfl⟩ | ⟨rfl, -⟩⟩ := writeReturned_cases hs
      · exact List.prefix_rfl
      · exact absurd (.inr (List.mem_singleton_self _)) hc

/-- While someone holds the multiplexer the write pump is on the active device, or on one
    that it leaves. -/
theorem Settled.next_writer (h : Settled s) (hl : s.hasHandle = true) {k : Slot} (hk : k ∈ s.slots)
    (ha : k.phase = .active) :
    ∃ pump, s.writer = some pump ∧ (pump.id = k.id ∨ s.Inactive pump.id) := by
  have hcoh := h.tended.coherent
  cases hw : s.writer with
  | none =>
    cases hwriting : k.writing with
    | idle => exact absurd hwriting (h.tended.writes.idle hw k hk ha)
    | running =>
      have hwritten := (hcoh.agrees k hk).writing.1 hwriting
      rw [writtenId_eq_none.2 hw] at hwritten
      cases hwritten
    | done => exact absurd ((h.tended.closes k hk).2 ha hwriting) (by simp [hl])
  | some pump =>
    refine ⟨pump, rfl, ?_⟩
    by_cases he : pump.id = k.id
    · exact .inl he
    · refine .inr fun l hl he' hactive => he ?_
      have hlast := hcoh.last_of_active hk ha
      rw [hcoh.last_of_active hl hactive] at hlast
      rw [← he', Option.some.inj hlast]

/-! ## In all -/

/-- Over any run, writes survive the change of devices and go to the newest one. -/
theorem rerouting_of_run {settings : MultiplexerSettings} (h : Run (.init settings) ms s) :
    WritesRerouted (.init settings) ms s where
  single := ⟨writes_outstanding s, issued_writes_of_run h⟩
  fates := fates_of_run h
  pending := by
    intro r hr
    have hmem : r.caller ∈ s.writers :=
      List.mem_map_of_mem ((pendingWrites_sublist s).subset hr)
    exact ⟨(accounted_of_run h).not_answered_write hr,
      ((accounted_of_run h).awaits_writer hmem).imp_right (cancelled_of_run h _)⟩
  results := by
    rintro ms₁ out ms₂ rfl
    exact result_of_run h
  starts := by
    rintro ms₁ m ms₂ u v rfl hu hv
    exact starts_of_run hu hv
  devices := (issued_ascending h).2
  waiting := by
    rintro ms₁ m ms₂ u v rfl hu hv
    exact waiting_of_step (accounted_of_run hu) (settled_of_run hu) hv
  next := fun ho hl k hk ha => (settled_of_run h ho).next_writer hl hk ha

/-- A second device comes while the first one is written to and another write waits. -/
def rerouting : List Move :=
  [.add 0, .control, .pollWriter, .call 7 (.write [1, 2]), .pollWriter, .call 8 (.write [3]),
    .add 1, .control, .writeReturned (.value 2), .pollWriter, .joinWriter, .pollWriter,
    .pollWriter, .writeReturned (.value 1)]

def rerouted : State where
  defaultMtu := 1280
  slots :=
    [{ id := ⟨1⟩, device := 0, phase := .draining, reading := .running, writing := .done,
        closing := true },
      { id := ⟨2⟩, device := 1, writing := .running }]
  reads := { capacity := 64 }
  writes := { capacity := 64 }
  events := { capacity := 64 }
  holdsReads := false
  holdsWrites := false
  reader := some ⟨⟨1⟩, 0, .ready none⟩
  writer := some ⟨⟨2⟩, 1, .ready⟩
  forwarder := some { id := ⟨2⟩, device := 1 }
  closers := [{ id := ⟨1⟩, device := 0 }]
  added := 2
  calls := [{ caller := 7, answer := some (.written 2) }, { caller := 8, answer := some (.written 1) }]

theorem rerouting_rerouted : Run (.init {}) rerouting rerouted ∧
    (State.init {}).log issuedWrites rerouting = [(⟨1⟩, ⟨7, [1, 2]⟩), (⟨2⟩, ⟨8, [3]⟩)] ∧
    WritesRerouted (.init {}) rerouting rerouted := by
  have hrun : Run (.init {}) rerouting rerouted := .of_foldlM rfl
  exact ⟨hrun, rfl, rerouting_of_run hrun⟩

/-! ## Crashes -/

/-- A device crashes in a write while another write waits. -/
def bereaving : List Move :=
  [.add 0, .control, .pollWriter, .call 7 (.write [1, 2]), .pollWriter, .call 8 (.write [3]),
    .writeReturned .crash]

def bereft : State where
  defaultMtu := 1280
  slots := [{ id := ⟨1⟩, device := 0, reading := .running, writing := .running }]
  reads := { capacity := 64 }
  writes := { capacity := 64, isOpen := false }
  events := { capacity := 64 }
  holdsReads := false
  holdsWrites := false
  reader := some ⟨⟨1⟩, 0, .ready none⟩
  writer := some ⟨⟨1⟩, 0, .crashed⟩
  forwarder := some { id := ⟨1⟩, device := 0 }
  added := 1
  calls :=
    [{ caller := 7, answer := some (.failed .closed) },
      { caller := 8, answer := some (.failed .closed) }]

/-- While the coordinator serves, a request may leave the queue unwritten although its caller
    waits. -/
theorem queued_write_refused : ¬ ∀ ms s, Run (.init {}) ms s → s.coordinator = .serving →
    ∀ r ∈ (State.init {}).log enteredWrites ms, .cancel r.caller ∉ ms →
      r ∈ s.pendingWrites ∨
        ∃ id out, (id, r, out) ∈ (State.init {}).log returnedWrites ms ∧
          s.answer? r.caller = some (writeAnswer out) := by
  intro h
  have hbereft : Run (.init {}) bereaving bereft := .of_foldlM rfl
  have hentered : (State.init {}).log enteredWrites bereaving = [⟨7, [1, 2]⟩, ⟨8, [3]⟩] := rfl
  have hreturned : (State.init {}).log returnedWrites bereaving =
      [(⟨1⟩, ⟨7, [1, 2]⟩, .crash)] := rfl
  obtain hp | ⟨id, out, hr, -⟩ :=
    h _ _ hbereft rfl ⟨8, [3]⟩ (by rw [hentered]; simp) (by simp [bereaving])
  · cases hp
  · rw [hreturned] at hr
    simp at hr

end

end State

end SeamlessTunnel.Multiplexer
