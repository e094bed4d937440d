import SeamlessTunnel.Proofs.Multiplexer.Devices
/-
  SeamlessTunnel.Proofs.Multiplexer.Targets — devices become the target of writes in order.

  A write pump starts only where none is at work, on a device that is active and was never
  written or that has just come (`writer_of_work`). So each device becomes the target of
  writes at most once and after all older ones that do (`targets_of_run`), and one that has a
  successor before its turn never does (`not_targeted_of_superseded`). The forwarder is that
  of the newest target. What it passes on is touched by few moves (`unheard_of_step`).
-/

namespace SeamlessTunnel.Multiplexer

/-- Whether a move may pass an event on or start and stop what does. -/
def Move.isEventful : Move → Bool
  | .pollWriter | .pollForwarder | .takeEvent | .eventReturned _ => true
  | _ => false

namespace State

/-- The device that becomes the target of writes with a move. -/
def targetedDevices (s : State) (_ : Move) (t : State) : List DeviceId :=
  if t.writtenId = s.writtenId then [] else t.writtenId.toList

/-- Whether no write pump is at work. -/
def WriterFree (s : State) : Prop :=
  ∀ pump, s.writer = some pump → ∃ exit, pump.stage = .stopped exit

/-- Whether a write pump is at work and has begun. -/
def WriterLive (s : State) : Prop :=
  ∃ pump, s.writer = some pump ∧ pump.stage ≠ .starting ∧ ∀ exit, pump.stage ≠ .stopped exit

/-- Whether a device may be the next target of writes. -/
def MayBeWritten (s : State) (id : DeviceId) : Prop :=
  (∃ k ∈ s.slots, k.id = id ∧ k.phase = .active ∧ k.writing = .idle) ∨ s.Coming id

/-- What is known of the devices that became the target of writes. -/
structure Targets (ids : List DeviceId) (s : State) : Prop where
  ascending : ids.Pairwise (·.number < ·.number)
  writer : ∀ pump, s.writer = some pump → ids.getLast? = some pump.id
  forwarder : ∀ f, s.forwarder = some f → ids.getLast? = some f.id
  /-- The forwarder runs with its write pump, which it survives only when that has crashed. -/
  follows : s.forwarder ≠ none → (s.isOver = true ∧ s.writer = none) ∨ s.WriterLive
  written : s.isOver = false → ∀ id ∈ ids, ∀ k ∈ s.slots, k.id = id → k.writing ≠ .idle

section

variable {s t u : State} {m : Move} {id : DeviceId} {ms : List Move}

/-! ## Starting a write pump -/

/-- What a move of the coordinator makes of the write pump. -/
inductive WriterTurn (s t : State) : Prop
  | kept (hw : t.writer = s.writer)
  | dropped (hc : t.coordinator = .crashed) (hw : t.writer = none)
  | freed (hfree : s.WriterFree) (hw : t.writer = none)
  | started (pump : WritePump) (hfree : s.WriterFree) (hw : t.writer = some pump)
      (hs : pump.stage = .starting) (hid : s.MayBeWritten pump.id)

theorem WriterTurn.congr (h : WriterTurn s t) (hw : u.writer = t.writer)
    (hc : t.coordinator = .crashed → u.coordinator = .crashed) : WriterTurn s u := by
  cases h with
  | kept hk => exact .kept (hw.trans hk)
  | dropped hcrashed hn => exact .dropped (hc hcrashed) (hw.trans hn)
  | freed hfree hn => exact .freed hfree (hw.trans hn)
  | started pump hfree hp hs hid => exact .started pump hfree (hw.trans hp) hs hid

theorem writer_settleTeardown : s.settleTeardown.writer = s.writer := by
  obtain ⟨_, _, _, _, _, _, _, _, _, _, he⟩ := settleTeardown_parts s
  rw [he]

theorem writer_closeAll {cause : Teardown} : (s.closeAll cause).writer = s.writer := by
  obtain ⟨_, _, he⟩ := closeAll_eq s cause
  rw [he]

theorem WriterTurn.crash (closers : List Closer) : WriterTurn s (State.crash { s with closers }) := by
  rcases writer_crash (s := { s with closers }) with he | he
  · exact .kept he
  · exact .dropped (coordinator_crash _) he

/-- A device that has come may become the target at once. -/
theorem WriterTurn.addSlot (h : Tended s) {device : DeviceRef} {rest : List Control}
    (hm : s.control = .add id device :: rest) :
    WriterTurn s ({ s with control := rest }.addSlot id device) := by
  have hcoh := (h.toKept.superseded hm).2
  have hkept := h.toKept.takeControl hm
  obtain ⟨_, _, hs⟩ := supersede_eq { s with control := rest }
  obtain ⟨_, _, _, _, hr⟩ := ensureReader_eq
    (s := { supersede { s with control := rest } with
      slots := (supersede { s with control := rest }).slots ++ [({ id, device } : Slot)]
      }.ensureWriter) (.inl (Eq.refl none))
  have hwriter : (supersede { s with control := rest }).writer = s.writer := by rw [hs]
  rw [addSlot_eq, adopt, hr]
  rcases ensureWriter_cases hcoh with ⟨he, -⟩ | ⟨k, hk, hnone, ha, -, he⟩
  · refine .kept ?_
    rw [he]
    exact hwriter
  · refine .started ⟨k.id, k.device, .starting⟩ ?_ (by rw [he]) rfl ?_
    · intro pump hp
      cases hwriter.symm.trans hnone |>.symm.trans hp
    · rcases List.mem_append.1 hk with hk | hk
      · exact absurd ha (hkept.inactive_supersede k hk)
      · rw [List.mem_singleton.1 hk]
        exact .inr (by simp [Coming, hm, Control.number?])

theorem writer_onReadExit (h : Tended s) {pump : ReadPump} {exit : ReadExit}
    (hp : s.reader = some pump) : (s.onReadExit pump.id exit).writer = s.writer := by
  obtain ⟨_, _, _, _, he⟩ :=
    restart_eq (s := s.freeReader pump.id) rfl (h.reads.parked_eq_none hp) exit
  rw [onReadExit_eq, he]
  rfl

/-- Where the write pump has ended the next one may start. -/
theorem WriterTurn.onWriteExit (h : Tended s) {pump : WritePump} {exit : WriteExit}
    (hp : s.writer = some pump) (he : pump.stage = .stopped exit) :
    WriterTurn s (s.onWriteExit pump.id exit) := by
  have hfree : s.WriterFree := fun pump' hp' => by
    obtain rfl := Option.some.inj (hp.symm.trans hp')
    exact ⟨exit, he⟩
  have hcoh := (h.closeAfter hp he).2.1
  obtain ⟨_, _, hc⟩ := closeAfter_eq (s.freeWriter pump.id) pump.id exit
  have hnone : ((s.freeWriter pump.id).closeAfter pump.id exit).writer = none := by
    rw [hc]
    rfl
  rw [onWriteExit_eq]
  rcases ensureWriter_cases hcoh with ⟨hw, -⟩ | ⟨k', hk', -, ha, hi, hw⟩
  · rw [hw]
    exact .freed hfree hnone
  · refine .started ⟨k'.id, k'.device, .starting⟩ hfree (by rw [hw]; rfl) rfl (.inl ?_)
    have hwork : Worked s ((s.freeWriter pump.id).closeAfter pump.id exit) :=
      Worked.freeWriter.trans (.closeAfter (h.coherent.freeWriter (writtenId_of_writer hp)))
    obtain ⟨k, hk, hl⟩ := hwork.steady.after k' hk'
    exact ⟨k, hk, hl.id.symm, hl.active ha, hl.unwritten hi⟩

theorem WriterTurn.takeControl (h : Settled s) (hs : s.takeControl = some t) : WriterTurn s t := by
  obtain ⟨-, ⟨k, rest, hm, rfl⟩ | ⟨-, -, rfl⟩⟩ := takeControl_cases hs
  · cases k with
    | add id device => exact .addSlot h.tended hm
    | mtu c => exact .kept writer_query
    | name c => exact .kept writer_query
    | count c => exact .kept rfl
    | shutdown c => exact .kept (writer_settleTeardown.trans writer_closeAll)
    | close c => exact .kept (writer_settleTeardown.trans writer_closeAll)
  · exact .kept (writer_settleTeardown.trans writer_closeAll)

theorem writer_of_work (h : Settled s) (hm : m.isWork = true) (hs : s.step m = some t) :
    WriterTurn s t := by
  cases m with
  | control => exact .takeControl h hs
  | joinReader =>
    obtain ⟨-, pump, hp, ⟨exit, -, rfl⟩ | ⟨-, rfl⟩⟩ := joinReader_cases hs
    · exact .kept (writer_settleTeardown.trans (writer_onReadExit h.tended hp))
    · exact .crash s.closers
  | joinWriter =>
    obtain ⟨ho, pump, hp, ⟨exit, he, rfl⟩ | ⟨-, rfl⟩⟩ := joinWriter_cases hs
    · refine (WriterTurn.onWriteExit h.tended hp he).congr writer_settleTeardown fun hc => ?_
      have hover : (s.onWriteExit pump.id exit).isOver = true := by simp [isOver, hc]
      rw [(Handled.onWriteExit hp he).isOver, ho] at hover
      cases hover
    · exact .crash s.closers
  | joinCloser id =>
    obtain ⟨-, closer, -, ⟨error, -, rfl⟩ | ⟨-, rfl⟩⟩ := joinCloser_cases hs
    · refine .kept (writer_settleTeardown.trans ?_)
      rw [onClosed_eq]
      rfl
    · exact .crash _
  | _ => cases hm

/-! ## Becoming the target -/

theorem mem_targetedDevices :
    id ∈ targetedDevices s m t ↔ t.writtenId = some id ∧ s.writtenId ≠ some id := by
  unfold targetedDevices
  split
  · rename_i he
    simp [he]
  · rename_i hne
    refine ⟨fun hid => ⟨Option.mem_toList.1 hid, fun hs => hne ?_⟩, fun hid => Option.mem_toList.2 hid.1⟩
    rw [hs]
    exact Option.mem_toList.1 hid

/-- Only the coordinator starts a write pump. -/
theorem targeted_of_step (hset : s.isOver = false → Settled s) (hs : s.step m = some t)
    (hid : id ∈ targetedDevices s m t) :
    s.isOver = false ∧ s.WriterFree ∧ s.MayBeWritten id := by
  obtain ⟨ht, hn⟩ := mem_targetedDevices.1 hid
  obtain ⟨pump, hp, rfl⟩ := Option.map_eq_some_iff.1 ht
  have hsame : ∀ pump', s.writer = some pump' → pump'.id ≠ pump.id := fun pump' hp' he =>
    hn (by rw [writtenId_of_writer hp', he])
  rcases step_kinds hs with ⟨hwork, ho⟩ | ⟨device, -, rfl⟩ | q
  · refine ⟨ho, ?_⟩
    cases writer_of_work (hset ho) hwork hs with
    | kept hw => exact absurd rfl (hsame pump (hw.symm.trans hp))
    | dropped _ hw => cases hw.symm.trans hp
    | freed _ hw => cases hw.symm.trans hp
    | started _ hfree hw _ hmay =>
      obtain rfl := Option.some.inj (hw.symm.trans hp)
      exact ⟨hfree, hmay⟩
  · obtain ⟨_, he⟩ := add_parts s device
    rw [he] at hp
    exact absurd rfl (hsame pump hp)
  · obtain ⟨pump', hp', he⟩ := q.writer hs pump hp
    exact absurd he (hsame pump' hp')

/-- A write pump that has not begun was there before, or starts on the next target. -/
theorem starting_of_step (hset : s.isOver = false → Settled s) (hs : s.step m = some t)
    {pump : WritePump} (hp : t.writer = some pump) (hstage : pump.stage = .starting) :
    s.writer = some pump ∨ s.isOver = false ∧ s.MayBeWritten pump.id := by
  rcases step_kinds hs with ⟨hwork, ho⟩ | ⟨device, -, rfl⟩ | q
  · cases writer_of_work (hset ho) hwork hs with
    | kept hw => exact .inl (hw.symm.trans hp)
    | dropped _ hw => cases hw.symm.trans hp
    | freed _ hw => cases hw.symm.trans hp
    | started _ _ hw _ hmay =>
      obtain rfl := Option.some.inj (hw.symm.trans hp)
      exact .inr ⟨ho, hmay⟩
  · obtain ⟨_, he⟩ := add_parts s device
    rw [he] at hp
    exact .inl hp
  · rcases q.writes with ⟨hw, -⟩ | rfl | ⟨out, rfl⟩
    · exact .inl (hw ▸ hp)
    · obtain ⟨pump', -, ⟨-, -, rfl⟩ | ⟨-, rfl⟩ | ⟨r, _, -, -, -, rfl⟩ | ⟨-, -, -, rfl⟩⟩ :=
        pollWriter_cases hs
      · cases (stage_of_stopWriter hp).symm.trans hstage
      · rw [← Option.some.inj hp] at hstage
        cases hstage
      · rw [← Option.some.inj hp] at hstage
        simp only [] at hstage
        split at hstage <;> cases hstage
      · cases (stage_of_stopWriter hp).symm.trans hstage
    · obtain ⟨pump', r, -, -, ⟨a, -, rfl⟩ | ⟨-, rfl⟩⟩ := writeReturned_cases hs
      · rw [← Option.some.inj hp] at hstage
        cases hstage
      · by_cases ho : s.isOver = true
        · simp [shutWrites, ho] at hp
        · have hcrashed : { pump' with stage := .crashed } = pump := by simpa [shutWrites, ho] using hp
          rw [← hcrashed] at hstage
          cases hstage

/-- No device that was taken in is newer than the next target. -/
theorem Taken.le_of_mayBeWritten {ids : List DeviceId} (h : Taken ids s) (ho : s.isOver = false)
    {id' : DeviceId} (hid : id' ∈ ids) (hmay : s.MayBeWritten id) : id'.number ≤ id.number := by
  rcases hmay with ⟨k, hk, rfl, ha, -⟩ | hc
  · exact h.newest ho id' hid k hk ha
  · exact Nat.le_of_lt ((h.passed id' hid).coming _ hc)

/-- The next target was none before. -/
theorem Targets.lt_of_mayBeWritten {ids accepted : List DeviceId} (h : Targets ids s)
    (htaken : Taken accepted s) (hids : ids ⊆ accepted) (ho : s.isOver = false)
    (hmay : s.MayBeWritten id) : ∀ id' ∈ ids, id'.number < id.number := by
  intro id' hid
  refine Nat.lt_of_le_of_ne (htaken.le_of_mayBeWritten ho (hids hid) hmay) fun he => ?_
  obtain rfl : id' = id := congrArg DeviceId.mk he
  rcases hmay with ⟨k, hk, hk', -, hi⟩ | hc
  · exact h.written ho id' hid k hk hk' hi
  · exact (htaken.passed id' (hids hid)).not_coming hc

/-! ## The forwarder -/

/-- A move that passes no event on: nobody may be left to listen, and callers come to listen
    or give up. -/
structure Unheard (s : State) (m : Move) (t : State) : Prop where
  forwarder : t.forwarder = s.forwarder
  events : t.events = s.events ∨ t.events = s.events.shut ∧ t.hasHandle = false
  listeners : ∀ c ∈ t.listeners, c ∈ s.listeners ∧ m ≠ .cancel c ∨ m = .call c .nextEvent

namespace Unheard

theorem of_eq (hf : t.forwarder = s.forwarder) (he : t.events = s.events)
    (hl : t.listeners = s.listeners) (hm : ∀ c, m ≠ .cancel c) : Unheard s m t :=
  ⟨hf, .inl he, fun c hc => .inl ⟨hl ▸ hc, hm c⟩⟩

theorem releaseEvents (h : Unheard s m t) (he : t.events = s.events) :
    Unheard s m t.releaseEvents := by
  unfold State.releaseEvents
  split
  · exact h
  · rename_i hh
    exact ⟨h.forwarder, .inr ⟨congrArg Mailbox.shut he, (by simpa using hh : t.hasHandle = false)⟩, h.listeners⟩

theorem work (h : Settled s) (hm : m.isWork = true) (hs : s.step m = some t) : Unheard s m t := by
  have hc : ∀ c, m ≠ .cancel c := fun c he => by
    rw [he] at hm
    cases hm
  cases h.act hm hs with
  | answer => exact .of_eq rfl rfl rfl hc
  | ask => exact .of_eq rfl rfl rfl hc
  | fail closers =>
    obtain ⟨_, _, _, _, _, _, _, he, -⟩ := crash_parts { s with closers }
    rw [he]
    exact .of_eq rfl rfl rfl hc
  | @handle control coordinator u _ hh =>
    obtain ⟨_, _, _, _, _, _, _, _, hu⟩ := hh.eq
    obtain ⟨_, _, _, _, _, _, _, _, _, _, he⟩ := settleTeardown_parts u
    rw [he, hu]
    exact .of_eq rfl rfl rfl hc

theorem call {c : Caller} {op : Operation} (hs : s.call c op = some t) :
    Unheard s (.call c op) t := by
  obtain ⟨-, ⟨_, -, rfl⟩ | ⟨_, -, rfl⟩ | ⟨rfl, rfl⟩ | ⟨_, -, -, rfl⟩ | rfl⟩ := call_cases hs
  · exact .of_eq rfl rfl rfl fun _ => nofun
  · exact .of_eq rfl rfl rfl fun _ => nofun
  · refine ⟨rfl, .inl rfl, fun c' hc => ?_⟩
    rcases List.mem_append.1 hc with hc | hc
    · exact .inl ⟨hc, nofun⟩
    · exact .inr (by rw [List.mem_singleton.1 hc])
  · exact .of_eq rfl rfl rfl fun _ => nofun
  · exact .of_eq rfl rfl rfl fun _ => nofun

theorem cancel {c : Caller} (hs : s.cancel c = some t) : Unheard s (.cancel c) t := by
  obtain ⟨-, rfl⟩ := cancel_cases hs
  have hquit : Unheard s (.cancel c) (s.quit c) := by
    refine ⟨rfl, .inl rfl, fun c' hc => ?_⟩
    obtain ⟨hmem, hne⟩ := List.mem_filter.1 hc
    refine .inl ⟨hmem, fun he => ?_⟩
    obtain rfl := Move.cancel.inj he
    simp at hne
  exact hquit.releaseEvents rfl

theorem release (hs : s.release = some t) : Unheard s .release t := by
  unfold State.release at hs
  split at hs
  · obtain rfl := Option.some.inj hs
    exact releaseEvents (t := { s with held := false }) (.of_eq rfl rfl rfl fun _ => nofun) rfl
  · cases hs

end Unheard

theorem unheard_of_step (hset : s.isOver = false → Settled s) (hs : s.step m = some t)
    (hm : m.isEventful = false) : Unheard s m t := by
  cases m with
  | control => exact .work (hset (isOver_of_isWork rfl hs)) rfl hs
  | joinReader => exact .work (hset (isOver_of_isWork rfl hs)) rfl hs
  | joinWriter => exact .work (hset (isOver_of_isWork rfl hs)) rfl hs
  | joinCloser id => exact .work (hset (isOver_of_isWork rfl hs)) rfl hs
  | call c op => exact .call hs
  | enter c =>
    obtain ⟨_, -, rfl⟩ | ⟨_, -, rfl⟩ := enter_cases hs
    all_goals exact .of_eq rfl rfl rfl fun _ => nofun
  | leave c =>
    obtain ⟨_, -, rfl⟩ := leave_cases hs
    exact Unheard.releaseEvents (t := { s with calls := s.calls.filter (·.caller != c) })
      (.of_eq rfl rfl rfl fun _ => nofun) rfl
  | cancel c => exact .cancel hs
  | add device =>
    obtain rfl := step_add hs
    obtain ⟨_, he⟩ := add_parts s device
    rw [he]
    exact .of_eq rfl rfl rfl fun _ => nofun
  | release => exact .release hs
  | pollReader =>
    obtain ⟨_, _, _, rfl⟩ := pollReader_eq hs
    exact .of_eq rfl rfl rfl fun _ => nofun
  | readReturned out =>
    obtain ⟨_, _, _, rfl⟩ := readReturned_eq hs
    exact .of_eq rfl rfl rfl fun _ => nofun
  | writeReturned out =>
    obtain ⟨_, _, _, rfl⟩ := writeReturned_eq hs
    exact .of_eq rfl rfl rfl fun _ => nofun
  | closeReturned id out =>
    obtain ⟨-, rfl⟩ := closeReturned_cases hs
    exact .of_eq rfl rfl rfl fun _ => nofun
  | lateCloseReturned id =>
    obtain rfl := lateCloseReturned_cases hs
    exact .of_eq rfl rfl rfl fun _ => nofun
  | answered ticket out =>
    obtain ⟨_, _, -, rfl⟩ := answered_cases hs
    exact .of_eq rfl rfl rfl fun _ => nofun
  | _ => cases hm

theorem forwarder_stopWriter {pump : WritePump} {exit : WriteExit} :
    (s.stopWriter pump exit).forwarder = none ∧
      (s.stopWriter pump exit).events = s.events.withdraw fun _ => true := by
  unfold stopWriter
  simp only []
  split
  · obtain ⟨_, _, he⟩ := shutWrites_eq { s.dropForwarder with writer := none }
    rw [he]
    exact ⟨rfl, rfl⟩
  · exact ⟨rfl, rfl⟩

/-- A forwarder was there before, or the write pump has started it. -/
theorem forwarder_of_step (hset : s.isOver = false → Settled s) (hs : s.step m = some t) :
    ∀ f, t.forwarder = some f → (∃ f', s.forwarder = some f' ∧ f'.id = f.id) ∨
      m = .pollWriter ∧ ∃ pump, s.writer = some pump ∧ pump.stage = .starting ∧ pump.id = f.id ∧
        t.writer = some { pump with stage := .ready } := by
  intro f hf
  by_cases hm : m.isEventful = true
  · cases m with
    | pollWriter =>
      obtain ⟨pump, hp, ⟨-, -, rfl⟩ | ⟨hstage, rfl⟩ | ⟨_, _, -, -, -, rfl⟩ | ⟨-, -, -, rfl⟩⟩ :=
        pollWriter_cases hs
      · cases forwarder_stopWriter.1.symm.trans hf
      · obtain rfl := Option.some.inj hf
        exact .inr ⟨rfl, pump, hp, hstage, rfl, rfl⟩
      · exact .inl ⟨f, hf, rfl⟩
      · cases forwarder_stopWriter.1.symm.trans hf
    | pollForwarder =>
      obtain ⟨f', hf', -, ⟨-, rfl⟩ | ⟨_, -, -, rfl⟩⟩ := pollForwarder_cases hs
      · cases hf
      · obtain rfl := Option.some.inj hf
        exact .inl ⟨f', hf', rfl⟩
    | takeEvent =>
      obtain ⟨_, _, _, _, -, rfl⟩ := takeEvent_eq hs
      exact .inl ⟨f, hf, rfl⟩
    | eventReturned out =>
      obtain ⟨f', hf', -, ⟨_, -, -, rfl⟩ | ⟨-, rfl⟩⟩ := eventReturned_cases hs
      · obtain rfl := Option.some.inj hf
        exact .inl ⟨f', hf', rfl⟩
      · cases hf
    | _ => cases hm
  · have q := unheard_of_step hset hs (by simpa using hm)
    exact .inl ⟨f, q.forwarder ▸ hf, rfl⟩

theorem WriterLive.not_free (h : s.WriterLive) (hfree : s.WriterFree) : False := by
  obtain ⟨pump, hp, -, hlive⟩ := h
  obtain ⟨exit, he⟩ := hfree pump hp
  exact hlive exit he

theorem WriterLive.work (h : s.WriterLive) (hset : Settled s) (hm : m.isWork = true)
    (hs : s.step m = some t) : (t.isOver = true ∧ t.writer = none) ∨ t.WriterLive := by
  cases writer_of_work hset hm hs with
  | kept hw =>
    obtain ⟨pump, hp, hlive⟩ := h
    exact .inr ⟨pump, hw.trans hp, hlive⟩
  | dropped hc hw => exact .inl ⟨by simp [isOver, hc], hw⟩
  | freed hfree _ => exact (h.not_free hfree).elim
  | started _ hfree _ _ _ => exact (h.not_free hfree).elim

/-- A write pump that stops stops its forwarder too, and one that crashes does not. -/
theorem WriterLive.aside (h : s.WriterLive) (q : Aside s m t) (hs : s.step m = some t)
    (hf : t.forwarder ≠ none) : (t.isOver = true ∧ t.writer = none) ∨ t.WriterLive := by
  obtain ⟨pump, hp, hstarted, hlive⟩ := h
  rcases q.writes with ⟨hw, -⟩ | rfl | ⟨out, rfl⟩
  · exact .inr ⟨pump, hw.trans hp, hstarted, hlive⟩
  · obtain ⟨pump', hp', ⟨-, -, rfl⟩ | ⟨hstage, rfl⟩ | ⟨r, _, -, -, -, rfl⟩ | ⟨-, -, -, rfl⟩⟩ :=
      pollWriter_cases hs
    · exact absurd forwarder_stopWriter.1 hf
    · obtain rfl := Option.some.inj (hp.symm.trans hp')
      exact absurd hstage hstarted
    · refine .inr ⟨_, rfl, ?_, fun exit => ?_⟩
      · simp only []
        split <;> simp
      · simp only []
        split <;> simp
    · exact absurd forwarder_stopWriter.1 hf
  · obtain ⟨pump', r, -, -, ⟨a, -, rfl⟩ | ⟨-, rfl⟩⟩ := writeReturned_cases hs
    · exact .inr ⟨_, rfl, by simp, by simp⟩
    · by_cases ho : s.isOver = true
      · exact .inl ⟨isOver_of_step hs ho, by simp [shutWrites, ho]⟩
      · exact .inr ⟨{ pump' with stage := .crashed }, by simp [shutWrites, ho], by simp, by simp⟩

/-! ## Over a run -/

section

variable {ids accepted : List DeviceId}

/-- While its forwarder passes events on a write pump has no successor. -/
theorem Targets.targeted_eq_nil (h : Targets ids s) (hset : s.isOver = false → Settled s)
    (hs : s.step m = some t) {f : Forwarder} (hf : s.forwarder = some f) :
    targetedDevices s m t = [] := by
  refine List.eq_nil_iff_forall_not_mem.2 fun id hid => ?_
  obtain ⟨ho, hfree, -⟩ := targeted_of_step hset hs hid
  rcases h.follows (by simp [hf]) with ⟨hover, -⟩ | hlive
  · rw [ho] at hover
    cases hover
  · exact hlive.not_free hfree

theorem Targets.writer_step (h : Targets ids s) :
    ∀ pump, t.writer = some pump →
      (ids ++ targetedDevices s m t).getLast? = some pump.id := by
  intro pump hp
  have hwritten := writtenId_of_writer hp
  by_cases he : t.writtenId = s.writtenId
  · rw [targetedDevices, if_pos he, List.append_nil]
    obtain ⟨pump', hp', hid⟩ := Option.map_eq_some_iff.1 (he.symm.trans hwritten)
    rw [h.writer pump' hp', hid]
  · rw [targetedDevices, if_neg he, hwritten]
    simp

theorem Targets.follows_step (h : Targets ids s) (hset : s.isOver = false → Settled s)
    (hs : s.step m = some t) (hf : t.forwarder ≠ none) :
    (t.isOver = true ∧ t.writer = none) ∨ t.WriterLive := by
  obtain ⟨f, hf'⟩ := Option.ne_none_iff_exists'.1 hf
  rcases forwarder_of_step hset hs f hf' with ⟨f', hf', -⟩ | ⟨-, pump, -, -, -, hp⟩
  · rcases h.follows (by simp [hf']) with ⟨ho, hn⟩ | hlive
    · have hover := isOver_of_step hs ho
      refine .inl ⟨hover, Option.eq_none_iff_forall_ne_some.2 fun pump hp => ?_⟩
      obtain ⟨pump', hp', -⟩ := writer_of_over hset hs hover pump hp
      cases hn.symm.trans hp'
    · rcases step_kinds hs with ⟨hwork, ho⟩ | ⟨device, -, rfl⟩ | q
      · exact hlive.work (hset ho) hwork hs
      · obtain ⟨_, he⟩ := add_parts s device
        rw [he]
        exact .inr hlive
      · exact hlive.aside q hs hf
  · exact .inr ⟨_, hp, nofun, fun _ => nofun⟩

theorem Targets.step (h : Targets ids s) (htaken : Taken accepted s) (hids : ids ⊆ accepted)
    (hset : s.isOver = false → Settled s) (hset' : t.isOver = false → Settled t)
    (hs : s.step m = some t) : Targets (ids ++ targetedDevices s m t) t where
  ascending := by
    refine List.pairwise_append.2 ⟨h.ascending, ?_, ?_⟩
    · unfold targetedDevices
      split
      · exact .nil
      · cases t.writtenId <;> simp
    · intro id' hid' id hid
      obtain ⟨ho, -, hmay⟩ := targeted_of_step hset hs hid
      exact h.lt_of_mayBeWritten htaken hids ho hmay id' hid'
  writer := h.writer_step
  forwarder := by
    intro f hf
    rcases forwarder_of_step hset hs f hf with ⟨f', hf', he⟩ | ⟨-, pump, -, -, he, hp⟩
    · rw [h.targeted_eq_nil hset hs hf', List.append_nil, ← he]
      exact h.forwarder f' hf'
    · rw [← he]
      exact h.writer_step { pump with stage := .ready } hp
  follows := h.follows_step hset hs
  written := by
    intro ho id hid k' hk' he hi
    rcases List.mem_append.1 hid with hid | hid
    · obtain ⟨k, hk, hl⟩ := (htaken.passed id (hids hid)).later hset hs hk' he
      exact h.written (isOver_eq_false_of_step hs ho) id hid k hk (hl.id.symm.trans he)
        (hl.unwritten hi)
    · have hw := ((hset' ho).tended.coherent.agrees k' hk').writing.2
        ((mem_targetedDevices.1 hid).1.trans (congrArg some he.symm))
      rw [hi] at hw
      cases hw

end

theorem accepted_of_targeted {settings : MultiplexerSettings} (h : Run (.init settings) ms s) :
    (State.init settings).log targetedDevices ms ⊆ (State.init settings).log acceptedDevices ms := by
  refine h.snocRec (p := fun ms _ => (State.init settings).log targetedDevices ms ⊆
    (State.init settings).log acceptedDevices ms) (List.Subset.refl _) ?_
  intro ms s m t hrun ih hm id hid
  have hlisted := (pumpsListed_of_run (hrun.snoc hm)).writer id
  have htaken := taken_of_run (hrun.snoc hm)
  rw [hrun.log_snoc hm] at hid htaken ⊢
  rcases List.mem_append.1 hid with hid | hid
  · exact List.mem_append_left _ (ih hid)
  · obtain ⟨k, hk, rfl⟩ := hlisted (mem_targetedDevices.1 hid).1
    exact htaken.listed k hk

/-- Devices become the target of writes in the order they came, each at most once. -/
theorem targets_of_run {settings : MultiplexerSettings} (h : Run (.init settings) ms s) :
    Targets ((State.init settings).log targetedDevices ms) s := by
  refine h.snocRec (p := fun ms s => Targets ((State.init settings).log targetedDevices ms) s)
    ⟨.nil, fun _ hp => (by cases hp), fun _ hf => (by cases hf), fun hf => absurd rfl hf,
      fun _ _ hid => (by cases hid)⟩ ?_
  intro ms s m t hrun ih hm
  rw [hrun.log_snoc hm]
  exact ih.step (taken_of_run hrun) (accepted_of_targeted hrun) (settled_of_run hrun)
    (settled_of_run (hrun.snoc hm)) hm

/-- A device that has a successor before it became the target of writes never does. -/
theorem not_targeted_of_superseded {settings : MultiplexerSettings} {ms₁ ms₂ : List Move}
    (hu : Run (.init settings) ms₁ u) (h : Run u ms₂ s) {newer : DeviceId}
    (hnew : newer ∈ (State.init settings).log acceptedDevices ms₁) (hlt : id.number < newer.number)
    (hid : id ∉ (State.init settings).log targetedDevices ms₁) :
    id ∉ (State.init settings).log targetedDevices (ms₁ ++ ms₂) := by
  have hboth := h.snocRec (p := fun ms _ =>
    newer ∈ (State.init settings).log acceptedDevices (ms₁ ++ ms) ∧
      id ∉ (State.init settings).log targetedDevices (ms₁ ++ ms)) (by simpa using ⟨hnew, hid⟩) ?_
  · exact hboth.2
  intro ms s m t hrun ih hm
  have hall := hu.append hrun
  rw [← List.append_assoc, hall.log_snoc hm, hall.log_snoc hm]
  refine ⟨List.mem_append_left _ ih.1, fun hmem => ?_⟩
  rcases List.mem_append.1 hmem with hmem | hmem
  · exact ih.2 hmem
  · obtain ⟨ho, -, hmay⟩ := targeted_of_step (settled_of_run hall) hm hmem
    have hle := (taken_of_run hall).le_of_mayBeWritten ho ih.1 hmay
    omega

end

end State

end SeamlessTunnel.Multiplexer
