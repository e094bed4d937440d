import SeamlessTunnel.Proofs.Multiplexer.Closing
import SeamlessTunnel.Proofs.Multiplexer.Joins
import SeamlessTunnel.Proofs.Multiplexer.Targets
/-
  SeamlessTunnel.Proofs.Multiplexer.Dismissal — a teardown gets to its end.

  In a teardown every listed device is told to close, and something is on its way for each:
  its close, the end of its write pump, after which it is closed, or the end of its read
  pump. A coordinator that ends has closed each device that it took in (`dismissed_of_run`).

  There is one gap. A teardown leaves the close of a device to the end of its write pump,
  where that runs. But a pump that ended because nobody holds the multiplexer makes nobody
  close the device (`LeftOpen`). From then on no close of that device starts, and the
  teardown waits for it for good (`Forsaken.snoc`, `teardown_stranded`). Nor is a device
  closed by a coordinator that a crash has reached (`closes_abandoned`).
-/

namespace SeamlessTunnel.Multiplexer

namespace State

/-- Whether a teardown has taken the queue back from a write pump that ended because nobody
    holds the multiplexer, and not because of its device. -/
def LeftOpen (s₀ : State) (ms : List Move) : Prop :=
  ∃ ms₁ ms₂ u, ms = ms₁ ++ .joinWriter :: ms₂ ∧ Run s₀ ms₁ u ∧
    (∃ cause, u.coordinator = .tearingDown cause) ∧
    ∃ pump, u.writer = some pump ∧ pump.stage = .stopped .disconnected

/-- A device that was taken in and is not closed, nor will be. -/
structure Forsaken (s₀ : State) (ms : List Move) (s : State) (id : DeviceId) : Prop where
  accepted : id ∈ s₀.log acceptedDevices ms
  unclosed : id ∉ s₀.log startedCloses ms
  /-- The teardown waits for a close that nobody starts, unless a crash has ended it. -/
  waits : (∃ cause, s.coordinator = .tearingDown cause) ∧ s.writtenId ≠ some id ∨
    s.coordinator = .crashed

/-- What a move of the coordinator makes of closes and of the write pump in a teardown. -/
structure Winding (s : State) (m : Move) (t : State) : Prop where
  /-- A close starts only where a write pump has drained its device. -/
  closers : ∀ c ∈ t.closers, c ∈ s.closers ∨
    ∃ pump, m = .joinWriter ∧ s.writer = some pump ∧ pump.id = c.id ∧ pump.stage = .stopped .drained
  /-- No write pump starts. -/
  writer : ∀ pump, t.writer = some pump → s.writer = some pump ∧ m ≠ .joinWriter

/-- What becomes of the devices when the multiplexer is done with them. -/
structure Dismissed (s₀ : State) (ms : List Move) (s : State) : Prop where
  /-- A teardown goes on only while there is something to wait for. -/
  awaited : ∀ cause, s.coordinator = .tearingDown cause → ¬ LeftOpen s₀ ms →
    s.slots ≠ [] ∧ ∀ k ∈ s.slots, k.phase ≠ .active ∧
      (k.id ∈ s.closerIds ∨ s.writtenId = some k.id ∨ k.phase = .closed ∧ s.readId = some k.id)
  /-- Once the coordinator has ended, each device that it took in was closed once. -/
  closed : s.coordinator = .ended → s.slots = [] ∧ ∀ id ∈ s₀.log acceptedDevices ms,
    (s₀.log startedCloses ms).count id = 1 ∧ Reported ms id
  /-- A teardown that has left a device open does not end. -/
  forsaken : LeftOpen s₀ ms → ∃ id, Forsaken s₀ ms s id

section

variable {s₀ s t u : State} {m : Move} {id : DeviceId} {ms ns : List Move}

theorem LeftOpen.append (h : LeftOpen s₀ ms) : LeftOpen s₀ (ms ++ ns) := by
  obtain ⟨ms₁, ms₂, u, rfl, hu⟩ := h
  exact ⟨ms₁, ms₂ ++ ns, u, by simp, hu⟩

/-! ## Devices that are told to close -/

/-- Whether all listed devices are told to close. -/
def AllRequested (s : State) : Prop :=
  ∀ k ∈ s.slots, Requested k

/-- Devices that were told to close stay so while the write pump is the same. -/
theorem AllRequested.after (h : AllRequested s) (hs : Coherent s) (ht : Coherent t)
    (ha : After s t) (hw : t.writtenId = s.writtenId) : AllRequested t := by
  intro k' hk'
  obtain ⟨k, hk, hl⟩ := ha k' hk'
  obtain ⟨hphase, hreq⟩ := h k hk
  refine ⟨fun hactive => hphase (hl.active hactive), hreq.imp hl.closing fun hrun => ?_⟩
  have hwritten := (hs.agrees k hk).writing.1 hrun
  exact (ht.agrees k' hk').writing.2 (by rw [hw, hl.id, hwritten])

theorem AllRequested.closeAll (h : Coherent s) (cause : Teardown) :
    AllRequested (s.closeAll cause) := fun k hk =>
  ((h.requested_closeAll cause).2.2 k hk).1

/-- A device whose write pump has drained it is closed next. -/
theorem AllRequested.onWriteExit (h : AllRequested s) (ht : Tended s) {pump : WritePump}
    (hw : s.writer = some pump) (hs : pump.stage = .stopped .drained) :
    AllRequested (s.onWriteExit pump.id .drained) := by
  have hwritten := writtenId_of_writer hw
  obtain ⟨hsteady, hcoh, -, -⟩ := ht.closeAfter hw hs
  have hrest : After ((s.freeWriter pump.id).closeAfter pump.id .drained)
      (s.onWriteExit pump.id .drained) := by
    rw [onWriteExit_eq]
    exact ((Steady.ensureWriter hcoh).trans .prune).after
  intro k' hk'
  obtain ⟨k₁, hk₁, hl₁⟩ := hrest k' hk'
  obtain ⟨k, hk, hl⟩ := hsteady.after k₁ hk₁
  obtain ⟨hphase, hreq⟩ := h k hk
  refine ⟨fun hactive => hphase ((hl.trans hl₁).active hactive), .inl (hl₁.closing ?_)⟩
  rcases mem_startCloser (ht.coherent.freeWriter hwritten) hk₁ with ⟨hne, -⟩ | ⟨-, l, -, rfl⟩
  · -- no write pump runs on another device, so its close was started
    refine hl.closing (hreq.resolve_right fun hrun => hne ?_)
    have he := (ht.coherent.agrees k hk).writing.1 hrun
    rw [hwritten] at he
    rw [hl.id, Option.some.inj he]
  · rfl

/-! ## Teardowns -/

/-- A teardown that goes on is the one that was there before its devices were looked at. -/
theorem settleTeardown_of_tearing {cause : Teardown}
    (hc : u.settleTeardown.coordinator = .tearingDown cause) : u.settleTeardown = u := by
  rcases settleTeardown_cases u with ⟨he, -⟩ | ⟨cause', -, -, he⟩
  · exact he
  · rw [he, coordinator_endTeardown] at hc
    cases cause' <;> cases hc

theorem allRequested_control (hset : Settled s) (hs : s.takeControl = some t) {cause : Teardown}
    (hc : t.coordinator = .tearingDown cause) : AllRequested t := by
  have hbegun : ∀ (v : State) (cause' : Teardown), Coherent v →
      (v.beginTeardown cause').coordinator = .tearingDown cause →
      AllRequested (v.beginTeardown cause') := fun v cause' hv hc => by
    rw [beginTeardown_eq] at hc ⊢
    rw [settleTeardown_of_tearing hc]
    exact .closeAll hv cause'
  obtain ⟨hserving, ⟨m, rest, hm, rfl⟩ | ⟨-, -, rfl⟩⟩ := takeControl_cases hs
  · have hcoh := (hset.taken hm).tended.coherent
    have hsame : ∀ v : State, v.coordinator = s.coordinator →
        v.coordinator = .tearingDown cause → AllRequested v := fun v he hc => by
      rw [he, hserving] at hc
      cases hc
    cases m with
    | add id device => exact hsame _ (coordinator_addSlot _ id device) hc
    | mtu c => exact hsame _ Quiet.query.coordinator hc
    | name c => exact hsame _ Quiet.query.coordinator hc
    | count c => exact hsame _ rfl hc
    | shutdown c => exact hbegun _ _ hcoh hc
    | close c => exact hbegun _ _ hcoh hc
  · exact hbegun _ _ hset.tended.coherent hc

/-- The end of a read pump leaves all devices told to close. -/
theorem AllRequested.onReadExit (h : AllRequested s) (ht : Tended s) {pump : ReadPump}
    {exit : ReadExit} (hr : s.reader = some pump) (hs : pump.stage = .stopped exit) :
    AllRequested (s.onReadExit pump.id exit) := by
  have hparked : (s.freeReader pump.id).parked = none := ht.reads.parked_eq_none hr
  have hcoh := ht.coherent.freeReader (readId_of_reader hr)
  obtain ⟨slots, reader, parked, _, he⟩ := restart_eq (s := s.freeReader pump.id) rfl hparked exit
  have hafter : After s (s.onReadExit pump.id exit) := by
    rw [onReadExit_eq]
    exact (After.freeReader s pump.id).trans
      ((Worked.restart hcoh rfl hparked).steady.trans .prune).after
  refine h.after ht.coherent (ht.onReadExit hr hs).coherent hafter ?_
  rw [onReadExit_eq, he]
  rfl

/-- A close that has returned leaves all devices told to close. -/
theorem AllRequested.onClosed (h : AllRequested s) (ht : Tended s) (hid : id ∈ s.closerIds)
    (error : Option TunnelError) :
    AllRequested ({ s with closers := s.closers.filter (·.id != id) }.onClosed id error) := by
  refine h.after ht.coherent (ht.onClosed hid error).coherent ?_ ?_
  · rw [onClosed_eq]
    exact ((Steady.markClosed s id).trans
      (Steady.prune (s := { s.markClosed id with closeError := error.or s.closeError }))).after
  · rw [onClosed_eq]
    rfl

/-- In a teardown the coordinator leaves all devices told to close, unless it leaves one
    open. -/
theorem AllRequested.work (h : ∀ cause, s.coordinator = .tearingDown cause → AllRequested s)
    (hset : Settled s) (hm : m.isWork = true) (hs : s.step m = some t) {cause : Teardown}
    (hc : t.coordinator = .tearingDown cause)
    (hleft : m = .joinWriter → (∃ cause, s.coordinator = .tearingDown cause) →
      ∀ pump, s.writer = some pump → pump.stage ≠ .stopped .disconnected) : AllRequested t := by
  have hcrash : ∀ v : State, v.crash.coordinator ≠ .tearingDown cause := fun v hv => by
    rw [coordinator_crash] at hv
    cases hv
  have hhandled : ∀ v : State, Handled s v → v.settleTeardown.coordinator = .tearingDown cause →
      v.settleTeardown = v ∧ s.coordinator = .tearingDown cause := fun v hh hv => by
    have he := settleTeardown_of_tearing hv
    obtain ⟨_, _, _, _, _, _, _, _, heq⟩ := hh.eq
    refine ⟨he, ?_⟩
    rw [he, heq] at hv
    exact hv
  cases m with
  | control => exact allRequested_control hset hs hc
  | joinReader =>
    obtain ⟨-, pump, hp, ⟨exit, he, rfl⟩ | ⟨-, rfl⟩⟩ := joinReader_cases hs
    · obtain ⟨hsame, hc⟩ := hhandled _ (.onReadExit hset.tended.reads hp he) hc
      rw [hsame]
      exact (h cause hc).onReadExit hset.tended hp he
    · exact absurd hc (hcrash s)
  | joinWriter =>
    obtain ⟨-, pump, hp, ⟨exit, he, rfl⟩ | ⟨-, rfl⟩⟩ := joinWriter_cases hs
    · obtain ⟨hsame, hbefore⟩ := hhandled _ (.onWriteExit hp he) hc
      rw [hsame]
      cases exit with
      | drained => exact (h cause hbefore).onWriteExit hset.tended hp he
      | disconnected => exact absurd he (hleft rfl ⟨cause, hbefore⟩ pump hp)
    · exact absurd hc (hcrash s)
  | joinCloser id =>
    obtain ⟨-, closer, hf, ⟨error, -, rfl⟩ | ⟨-, rfl⟩⟩ := joinCloser_cases hs
    · obtain rfl : closer.id = id := by simpa using List.find?_some hf
      have hid : closer.id ∈ s.closerIds := List.mem_map_of_mem (List.mem_of_find?_eq_some hf)
      obtain ⟨hsame, hc⟩ := hhandled _ (.onClosed closer.id error) hc
      rw [hsame]
      exact (h cause hc).onClosed hset.tended hid error
    · exact absurd hc (hcrash _)
  | _ => cases hm

theorem allRequested_of_run {settings : MultiplexerSettings} (h : Run (.init settings) ms s)
    (hleft : ¬ LeftOpen (.init settings) ms) :
    ∀ cause, s.coordinator = .tearingDown cause → AllRequested s := by
  refine h.snocRec (p := fun ms s => ¬ LeftOpen (.init settings) ms →
    ∀ cause, s.coordinator = .tearingDown cause → AllRequested s)
    (fun _ _ hc => by cases hc) ?_ hleft
  intro ms s m t hrun ih hm hleft cause hc
  have hbefore := ih fun hl => hleft hl.append
  rcases step_kinds hm with ⟨hwork, ho⟩ | ⟨device, -, rfl⟩ | q
  · refine AllRequested.work hbefore (settled_of_run hrun ho) hwork hm hc ?_
    rintro rfl hc pump hp hs
    exact hleft ⟨ms, [], s, rfl, hrun, hc, pump, hp, hs⟩
  · obtain ⟨_, he⟩ := add_parts s device
    rw [he] at hc ⊢
    exact hbefore cause hc
  · intro k hk
    rw [q.slots] at hk
    exact hbefore cause (q.coordinator ▸ hc) k hk

/-- A device that was told to close is waited for. -/
theorem Kept.awaits_of_requested (h : Kept s) {k : Slot} (hk : k ∈ s.slots) (hr : Requested k) :
    k.id ∈ s.closerIds ∨ s.writtenId = some k.id ∨ k.phase = .closed ∧ s.readId = some k.id := by
  have hagrees := h.coherent.agrees k hk
  by_cases hrun : k.writing = .running
  · exact .inr (.inl (hagrees.writing.1 hrun))
  · have hclosing := hr.2.resolve_right hrun
    by_cases hp : k.phase = .closed
    · have hreading : k.reading = .running := by
        have hretired := h.retired k hk
        simp only [Slot.isRetired, hp] at hretired
        simp_all
      exact .inr (.inr ⟨hp, hagrees.reading.1 hreading⟩)
    · exact .inl (hagrees.closers.2 ⟨hclosing, hp⟩)

/-! ## The end -/

theorem slots_of_ended {settings : MultiplexerSettings} (h : Run (.init settings) ms s)
    (he : s.coordinator = .ended) : s.slots = [] := by
  refine h.snocRec (p := fun _ s => s.coordinator = .ended → s.slots = []) (fun _ => rfl) ?_ he
  intro ms s m t hrun ih hm he
  rcases step_kinds hm with ⟨hwork, ho⟩ | ⟨device, -, rfl⟩ | q
  · rcases (settled_of_run hrun ho).before hwork hm with rfl | ⟨u, b⟩
    · rw [coordinator_crash] at he
      cases he
    · rw [b.eq, slots_settleTeardown]
      exact slots_eq_nil_of_over b.working (by rw [← b.eq]; simp [isOver, he])
  · obtain ⟨_, hparts⟩ := add_parts s device
    rw [hparts] at he ⊢
    exact ih he
  · exact q.slots.trans (ih (q.coordinator ▸ he))

/-- A close that has returned was started. -/
theorem started_of_reported {settings : MultiplexerSettings} (h : Run (.init settings) ms s)
    (hr : Reported ms id) : id ∈ (State.init settings).log startedCloses ms := by
  refine h.snocRec (p := fun ms _ => Reported ms id →
    id ∈ (State.init settings).log startedCloses ms) ?_ ?_ hr
  · rintro ⟨out, hout⟩
    cases hout
  intro ms s m t hrun ih hm hr
  rw [hrun.log_snoc hm]
  refine List.mem_append_left _ ?_
  obtain ⟨out, hout⟩ := hr
  rcases List.mem_append.1 hout with hout | hout
  · exact ih ⟨out, hout⟩
  · obtain rfl := List.mem_singleton.1 hout
    obtain ⟨closer, hc, he, hn⟩ := (closeReturned_cases hm).1
    exact (closings_of_run hrun).calls (mem_closeCalls.2 ⟨closer, hc, he, hn⟩)

/-! ## Devices that are left open -/

theorem closers_settleTeardown : s.settleTeardown.closers = s.closers := by
  obtain ⟨_, _, _, _, _, _, _, _, _, _, he⟩ := settleTeardown_parts s
  rw [he]

/-- The end of a write pump in a teardown starts a close if the pump has drained its device. -/
theorem Settled.winding_writer (h : Settled s) {cause : Teardown}
    (hc : s.coordinator = .tearingDown cause) {pump : WritePump} {exit : WriteExit}
    (hw : s.writer = some pump) (he : pump.stage = .stopped exit) :
    Winding s .joinWriter (s.onWriteExit pump.id exit) := by
  obtain ⟨-, hcoh, -, hphases⟩ := h.tended.closeAfter hw he
  -- no device is active, so no write pump starts
  have hsame : ((s.freeWriter pump.id).closeAfter pump.id exit).ensureWriter =
      (s.freeWriter pump.id).closeAfter pump.id exit := by
    rcases ensureWriter_cases hcoh with ⟨he, -⟩ | ⟨k, hk, -, ha, -⟩
    · exact he
    · have hactive := List.mem_map.2 ⟨k, hk, ha⟩
      rw [← phases, hphases] at hactive
      exact absurd hactive (h.tended.tearing cause hc)
  rw [onWriteExit_eq, hsame]
  cases exit with
  | disconnected => exact ⟨fun c hc => .inl hc, fun _ hp => by cases hp⟩
  | drained =>
    rcases startCloser_cases (h.tended.coherent.freeWriter (writtenId_of_writer hw)) pump.id with
      ⟨hs, -⟩ | ⟨k, -, -, -, -, hs⟩
    · rw [closeAfter, hs]
      exact ⟨fun c hc => .inl hc, fun _ hp => by cases hp⟩
    · rw [closeAfter, hs]
      refine ⟨fun c hc => ?_, fun _ hp => by cases hp⟩
      rcases List.mem_append.1 hc with hc | hc
      · exact .inl hc
      · exact .inr ⟨pump, rfl, hw, by rw [List.mem_singleton.1 hc], he⟩

theorem Settled.winding (h : Settled s) {cause : Teardown}
    (hc : s.coordinator = .tearingDown cause) (hm : m.isWork = true) (hs : s.step m = some t)
    (hcrash : t.coordinator ≠ .crashed) : Winding s m t := by
  have hsettle : ∀ u : State, Winding s m u → Winding s m u.settleTeardown := fun u w =>
    ⟨by rw [closers_settleTeardown]; exact w.closers, by rw [writer_settleTeardown]; exact w.writer⟩
  cases m with
  | control => cases hc.symm.trans (takeControl_cases hs).1
  | joinReader =>
    obtain ⟨-, pump, hp, ⟨exit, -, rfl⟩ | ⟨-, rfl⟩⟩ := joinReader_cases hs
    · have hparked : (s.freeReader pump.id).parked = none := h.tended.reads.parked_eq_none hp
      obtain ⟨_, _, _, _, he⟩ := restart_eq (s := s.freeReader pump.id) rfl hparked exit
      refine hsettle _ ?_
      rw [onReadExit_eq, he]
      exact ⟨fun c hc => .inl hc, fun p hp => ⟨hp, by simp⟩⟩
    · exact absurd (coordinator_crash s) hcrash
  | joinWriter =>
    obtain ⟨-, pump, hp, ⟨exit, he, rfl⟩ | ⟨-, rfl⟩⟩ := joinWriter_cases hs
    · exact hsettle _ (h.winding_writer hc hp he)
    · exact absurd (coordinator_crash s) hcrash
  | joinCloser id =>
    obtain ⟨-, closer, -, ⟨error, -, rfl⟩ | ⟨-, rfl⟩⟩ := joinCloser_cases hs
    · refine hsettle _ ?_
      rw [onClosed_eq]
      exact ⟨fun c hc => .inl (List.mem_filter.1 hc).1, fun p hp => ⟨hp, by simp⟩⟩
    · exact absurd (coordinator_crash _) hcrash
  | _ => cases hm

/-- A close that starts in a teardown follows the end of a write pump. -/
theorem Winding.started (w : Winding s m t) (hn : t.closerIds.Nodup)
    (hid : id ∈ startedCloses s m t) :
    ∃ pump, m = .joinWriter ∧ s.writer = some pump ∧ pump.id = id ∧
      pump.stage = .stopped .drained := by
  obtain ⟨ht, hnew⟩ := (mem_startedCloses hn).1 hid
  obtain ⟨c, hc, rfl, hr⟩ := mem_closeCalls.1 ht
  exact (w.closers c hc).resolve_left fun hc => hnew (mem_closeCalls.2 ⟨c, hc, rfl, hr⟩)

/-- A teardown does not end while a device that was taken in is to be closed. -/
theorem tearing_of_step {settings : MultiplexerSettings} {cause : Teardown}
    (h : Run (.init settings) ms s) (hs : s.step m = some t)
    (hc : s.coordinator = .tearingDown cause) (hcrash : t.coordinator ≠ .crashed)
    (ha : id ∈ (State.init settings).log acceptedDevices (ms ++ [m]))
    (hu : id ∉ (State.init settings).log startedCloses (ms ++ [m])) :
    t.coordinator = .tearingDown cause := by
  rcases step_kinds hs with ⟨hm, ho⟩ | ⟨device, -, rfl⟩ | q
  · have hcontrol : m ≠ .control := by
      rintro rfl
      cases hc.symm.trans (takeControl_cases hs).1
    obtain ⟨u, j, rfl⟩ := ((settled_of_run h ho).joined hm hcontrol hs).resolve_left fun he =>
      hcrash (he ▸ coordinator_crash s)
    rcases settleTeardown_cases u with ⟨he, -⟩ | ⟨_, -, hnil, -⟩
    · obtain ⟨_, _, _, _, _, _, _, _, hu⟩ := j.handled.eq
      rw [he, hu]
      exact hc
    · rcases listed_or_reported (h.snoc hs) id ha with ⟨k, hk, -⟩ | hr
      · rw [slots_settleTeardown, hnil] at hk
        cases hk
      · exact absurd (started_of_reported (h.snoc hs) hr) hu
  · obtain ⟨_, he⟩ := add_parts s device
    rw [he]
    exact hc
  · exact q.coordinator.trans hc

/-- No write pump is there that was not there before a move in a teardown. -/
theorem writtenId_of_tearing (hset : s.isOver = false → Settled s) (hs : s.step m = some t)
    {cause : Teardown} (hc : s.coordinator = .tearingDown cause) (hcrash : t.coordinator ≠ .crashed)
    (hw : t.writtenId = some id) : s.writtenId = some id := by
  obtain ⟨pump, hp, rfl⟩ := Option.map_eq_some_iff.1 hw
  rcases step_kinds hs with ⟨hm, ho⟩ | ⟨device, -, rfl⟩ | q
  · exact writtenId_of_writer (((hset ho).winding hc hm hs hcrash).writer pump hp).1
  · obtain ⟨_, he⟩ := add_parts s device
    rw [he] at hp
    exact writtenId_of_writer hp
  · obtain ⟨pump', hp', hid⟩ := q.writer hs pump hp
    rw [writtenId_of_writer hp', hid]

/-- No move closes a device that a teardown has left open. -/
theorem Forsaken.snoc {settings : MultiplexerSettings} (f : Forsaken (.init settings) ms s id)
    (h : Run (.init settings) ms s) (hs : s.step m = some t) :
    Forsaken (.init settings) (ms ++ [m]) t id := by
  have hset := settled_of_run h
  have haccepted : id ∈ (State.init settings).log acceptedDevices (ms ++ [m]) := by
    rw [h.log_snoc hs]
    exact List.mem_append_left _ f.accepted
  have hunclosed : id ∉ (State.init settings).log startedCloses (ms ++ [m]) := by
    rw [h.log_snoc hs, List.mem_append, not_or]
    refine ⟨f.unclosed, fun hid => ?_⟩
    have hn := (guarded_of_run (h.snoc hs)).1
    obtain ⟨ho, hopen, hm, -⟩ := started_of_step hset hs hn hid
    obtain ⟨⟨cause, hc⟩, hw⟩ := f.waits.resolve_right fun hc => by simp [isOver, hc] at ho
    have hcrash : t.coordinator ≠ .crashed := fun hc => by simp [isOver, hc] at hopen
    obtain ⟨pump, -, hp, rfl, -⟩ := ((hset ho).winding hc hm hs hcrash).started hn hid
    exact hw (writtenId_of_writer hp)
  refine ⟨haccepted, hunclosed, ?_⟩
  by_cases hcrash : t.coordinator = .crashed
  · exact .inr hcrash
  · obtain ⟨⟨cause, hc⟩, hw⟩ := f.waits.resolve_right fun hc => 
      hcrash ((coordinator_of_over (by simp [isOver, hc]) hs).trans hc)
    exact .inl ⟨⟨cause, tearing_of_step h hs hc hcrash haccepted hunclosed⟩,
      fun he => hw (writtenId_of_tearing hset hs hc hcrash he)⟩

theorem Forsaken.append {settings : MultiplexerSettings} (f : Forsaken (.init settings) ms s id)
    (h : Run (.init settings) ms s) (k : Run s ns t) :
    Forsaken (.init settings) (ms ++ ns) t id := by
  induction k generalizing ms with
  | nil =>
    rw [List.append_nil]
    exact f
  | cons hs _ ih =>
    rw [List.append_cons]
    exact ih (f.snoc h hs) (h.snoc hs)

/-- The device whose write pump ends in a teardown because nobody holds the multiplexer is
    left open. -/
theorem forsaken_of_joinWriter {settings : MultiplexerSettings} (h : Run (.init settings) ms s)
    (hs : s.joinWriter = some t) {cause : Teardown} (hc : s.coordinator = .tearingDown cause)
    {pump : WritePump} (hp : s.writer = some pump) (he : pump.stage = .stopped .disconnected) :
    Forsaken (.init settings) (ms ++ [.joinWriter]) t pump.id := by
  have hset := settled_of_run h (by simp [isOver, hc])
  have hstep : s.step .joinWriter = some t := hs
  have hwritten := writtenId_of_writer hp
  have hcrash : t.coordinator ≠ .crashed := by
    obtain ⟨ho, pump', hp', ⟨exit, he', rfl⟩ | ⟨he', -⟩⟩ := joinWriter_cases hs
    · exact coordinator_settleTeardown_ne ((Handled.onWriteExit hp' he').isOver.trans ho)
    · obtain rfl := Option.some.inj (hp.symm.trans hp')
      cases he.symm.trans he'
  have w := hset.winding hc rfl hstep hcrash
  have haccepted : pump.id ∈ (State.init settings).log acceptedDevices (ms ++ [.joinWriter]) := by
    obtain ⟨k, hk, hid⟩ := hset.tended.coherent.writer pump.id hwritten
    rw [h.log_snoc hstep]
    exact List.mem_append_left _ (hid ▸ (taken_of_run h).listed k hk)
  have hunclosed : pump.id ∉ (State.init settings).log startedCloses (ms ++ [.joinWriter]) := by
    rw [h.log_snoc hstep, List.mem_append, not_or]
    refine ⟨fun hid => (closings_of_run h).unwritten _ hid hwritten, fun hid => ?_⟩
    obtain ⟨pump', -, hp', -, hdrained⟩ := w.started (guarded_of_run (h.snoc hstep)).1 hid
    obtain rfl := Option.some.inj (hp.symm.trans hp')
    cases he.symm.trans hdrained
  refine ⟨haccepted, hunclosed,
    .inl ⟨⟨cause, tearing_of_step h hstep hc hcrash haccepted hunclosed⟩, fun hw => ?_⟩⟩
  obtain ⟨pump', hp', -⟩ := Option.map_eq_some_iff.1 hw
  exact (w.writer pump' hp').2 rfl

theorem forsaken_of_leftOpen {settings : MultiplexerSettings} (h : Run (.init settings) ms s)
    (hl : LeftOpen (.init settings) ms) : ∃ id, Forsaken (.init settings) ms s id := by
  obtain ⟨ms₁, ms₂, u, rfl, hu, ⟨cause, hc⟩, pump, hp, he⟩ := hl
  obtain ⟨u', v, hu', hv, hk⟩ := h.split
  obtain rfl := hu'.unique hu
  have f := (forsaken_of_joinWriter hu hv hc hp he).append (hu.snoc hv) hk
  exact ⟨pump.id, by simpa using f⟩

/-- Over any run, a teardown gets on and the coordinator ends without a device. -/
theorem dismissed_of_run {settings : MultiplexerSettings} (h : Run (.init settings) ms s) :
    Dismissed (.init settings) ms s where
  awaited := by
    intro cause hc hleft
    have hset := settled_of_run h (by simp [isOver, hc])
    have hreq := allRequested_of_run h hleft cause hc
    exact ⟨hset.listed cause hc, fun k hk =>
      ⟨(hreq k hk).1, hset.tended.toKept.awaits_of_requested hk (hreq k hk)⟩⟩
  closed := by
    intro he
    have hnil := slots_of_ended h he
    refine ⟨hnil, fun id hid => ?_⟩
    have hr : Reported ms id := by
      refine (listed_or_reported h id hid).resolve_left ?_
      rintro ⟨k, hk, -⟩
      rw [hnil] at hk
      cases hk
    exact ⟨List.count_eq_one_of_mem (closings_of_run h).once (started_of_reported h hr), hr⟩
  forsaken := forsaken_of_leftOpen h

/-- The last holder lets go while a device is there. -/
def dismissing : List Move :=
  [.add 0, .control, .pollWriter, .release, .control, .pollWriter, .joinWriter,
    .closeReturned ⟨1⟩ (.value ()), .joinCloser ⟨1⟩, .pollReader, .joinReader]

def dismissed : State where
  defaultMtu := 1280
  reads := { capacity := 64, isOpen := false }
  writes := { capacity := 64, isOpen := false }
  events := { capacity := 64, isOpen := false }
  holdsReads := false
  holdsWrites := false
  coordinator := .ended
  added := 1
  held := false

theorem dismissed_released : Run (.init {}) dismissing dismissed ∧
    dismissed.coordinator = .ended ∧
    (State.init {}).log acceptedDevices dismissing = [⟨1⟩] ∧
    Dismissed (.init {}) dismissing dismissed := by
  have hrun : Run (.init {}) dismissing dismissed := .of_foldlM rfl
  exact ⟨hrun, rfl, rfl, dismissed_of_run hrun⟩

/-! ## Devices that stay open -/

/-- The last holder lets go, and the write pump notices before the coordinator does. -/
def stranding : List Move :=
  [.add 0, .control, .pollWriter, .release, .pollWriter, .control, .joinWriter, .pollReader,
    .joinReader]

def stranded : State where
  defaultMtu := 1280
  slots := [{ id := ⟨1⟩, device := 0, phase := .draining, reading := .done, writing := .done }]
  reads := { capacity := 64 }
  writes := { capacity := 64 }
  events := { capacity := 64, isOpen := false }
  coordinator := .tearingDown .released
  added := 1
  held := false

/-- A teardown may have nothing left to wait for although a device is listed. -/
theorem teardown_stranded :
    ¬ ∀ ms s, Run (.init {}) ms s → s.coordinator = .tearingDown .released → s.slots ≠ [] →
      s.reader ≠ none ∨ s.writer ≠ none ∨ s.closers ≠ [] := by
  intro h
  have hstranded : Run (.init {}) stranding stranded := .of_foldlM rfl
  rcases h _ _ hstranded rfl (by decide) with hn | hn | hn
  · exact hn rfl
  · exact hn rfl
  · exact hn rfl

/-- The last holder lets go of two devices. The close of the first one crashes while the
    second one is still being written to. -/
def abandoning : List Move :=
  [.add 0, .control, .pollWriter, .add 1, .control, .pollWriter, .joinWriter, .pollWriter,
    .call 0 (.write [7]), .pollWriter, .cancel 0, .release, .control, .closeReturned ⟨1⟩ .crash,
    .joinCloser ⟨1⟩, .writeReturned (.value 1), .pollWriter, .pollReader]

def abandoned : State where
  defaultMtu := 1280
  slots :=
    [{ id := ⟨1⟩, device := 0, phase := .draining, reading := .running, writing := .done,
        closing := true },
      { id := ⟨2⟩, device := 1, phase := .draining, writing := .running }]
  reads := { capacity := 64, isOpen := false }
  writes := { capacity := 64, isOpen := false }
  events := { capacity := 64, isOpen := false }
  holdsReads := false
  holdsWrites := false
  coordinator := .crashed
  added := 2
  gone := [0]
  held := false

/-- A coordinator that a crash has reached may leave a device that it took in. -/
theorem closes_abandoned :
    ¬ ∀ ms s, Run (.init {}) ms s → s.isOver = true →
      ∀ id ∈ (State.init {}).log acceptedDevices ms,
        ((State.init {}).log startedCloses ms).count id = 1 := by
  intro h
  have habandoned : Run (.init {}) abandoning abandoned := .of_foldlM rfl
  have haccepted : (State.init {}).log acceptedDevices abandoning = [⟨1⟩, ⟨2⟩] := rfl
  have hstarted : (State.init {}).log startedCloses abandoning = [⟨1⟩] := rfl
  have hone := h _ _ habandoned rfl ⟨2⟩ (by rw [haccepted]; decide)
  rw [hstarted] at hone
  exact absurd hone (by decide)

end

end State

end SeamlessTunnel.Multiplexer
