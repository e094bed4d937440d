import SeamlessTunnel.Proofs.Multiplexer.Mailbox
import SeamlessTunnel.Proofs.Multiplexer.Settling
/-
  SeamlessTunnel.Proofs.Multiplexer.Requests — where requests are.

  A request that has left its queue is with a pump, with a pump that has stopped, or parked
  (`carried`, `inFlightWrite`). Handlers move it between those places and lose none
  (`carried_addSlot`, `carried_onReadExit`, `inFlightWrite_onWriteExit`). What a move of the
  coordinator makes of a state follows from this (`Act`, `Settled.act`).
-/

namespace SeamlessTunnel.Multiplexer

/-! ## Requests outside the queues -/

/-- The request that a read pump has with it. -/
def ReadStage.request? : ReadStage → Option ReadRequest
  | .ready carry | .stopped (.drained carry) => carry
  | .reading r => some r
  | .stopped .failed | .stopped .disconnected | .crashed => none

/-- The request that a device is asked to serve. -/
def ReadStage.reading? : ReadStage → Option ReadRequest
  | .reading r => some r
  | .ready _ | .stopped _ | .crashed => none

/-- The request that a write pump has with it. -/
def WriteStage.request? : WriteStage → Option WriteRequest
  | .writing r => some r
  | .starting | .ready | .stopped _ | .crashed => none

namespace State

def inRead (s : State) : Option ReadRequest :=
  s.reader.bind (·.stage.request?)

def inWrite (s : State) : Option WriteRequest :=
  s.writer.bind (·.stage.request?)

/-- Read requests that have left the queue, the oldest of all. -/
def carried (s : State) : List ReadRequest :=
  s.inRead.toList ++ s.parked.toList

/-- Read requests that have entered the queue and are not done, oldest first. -/
def pendingReads (s : State) : List ReadRequest :=
  s.carried ++ s.reads.items

/-- The read under way on a device. -/
def inFlight (s : State) : Option (DeviceId × ReadRequest) :=
  s.reader.bind fun pump => pump.stage.reading?.map (pump.id, ·)

/-- Whether a request has left the queue and no device is asked to serve it. -/
def Keeps (s : State) (r : ReadRequest) : Prop :=
  s.carried = [r] ∧ s.inFlight = none

/-- The write under way on a device. -/
def inFlightWrite (s : State) : Option (DeviceId × WriteRequest) :=
  s.writer.bind fun pump => pump.stage.request?.map (pump.id, ·)

variable {s t : State} {id : DeviceId} {carry : Option ReadRequest}

theorem inFlight_of_reader {pump : ReadPump} (h : s.reader = some pump) :
    s.inFlight = pump.stage.reading?.map (pump.id, ·) := by
  rw [inFlight, h]
  rfl

theorem inFlight_eq_none (h : s.reader = none) : s.inFlight = none := by
  rw [inFlight, h]
  rfl

theorem inRead_of_reader {pump : ReadPump} (h : s.reader = some pump) :
    s.inRead = pump.stage.request? := by
  rw [inRead, h]
  rfl

theorem inRead_eq_none (h : s.reader = none) : s.inRead = none := by
  rw [inRead, h]
  rfl

theorem inWrite_of_writer {pump : WritePump} (h : s.writer = some pump) :
    s.inWrite = pump.stage.request? := by
  rw [inWrite, h]
  rfl

theorem inWrite_eq (s : State) : s.inWrite = s.inFlightWrite.map (·.2) := by
  cases hw : s.writer with
  | none => simp [inWrite, inFlightWrite, hw]
  | some pump => simp [inWrite, inFlightWrite, hw, Function.comp_def]

theorem inFlightWrite_of_writer {pump : WritePump} (h : s.writer = some pump) :
    s.inFlightWrite = pump.stage.request?.map (pump.id, ·) := by
  rw [inFlightWrite, h]
  rfl

theorem inFlightWrite_eq_none (h : s.writer = none) : s.inFlightWrite = none := by
  rw [inFlightWrite, h]
  rfl

/-- Of the calls on devices, the read and the write under way are the only ones that read or
    write. -/
theorem outstanding_parts (s : State) : ∃ (d d' : DeviceRef) (others : List Outstanding),
    s.outstanding = s.inFlight.toList.map (fun w => ⟨.read w.1, d, .read w.2.size⟩) ++
      (s.inFlightWrite.toList.map (fun w => ⟨.write w.1, d', .write w.2.packet⟩) ++ others) ∧
    ∀ o ∈ others, ∀ id, o.call ≠ .read id ∧ o.call ≠ .write id := by
  unfold outstanding
  simp only [List.append_assoc]
  refine ⟨(s.reader.map (·.device)).getD 0, (s.writer.map (·.device)).getD 0, _,
    congrArg₂ (· ++ ·) ?_ (congrArg₂ (· ++ ·) ?_ rfl), ?_⟩
  · cases hr : s.reader with
    | none =>
      rw [inFlight_eq_none hr]
      rfl
    | some pump =>
      obtain ⟨id, device, stage⟩ := pump
      rw [inFlight_of_reader hr]
      cases stage <;> rfl
  · cases hw : s.writer with
    | none =>
      rw [inFlightWrite_eq_none hw]
      rfl
    | some pump =>
      obtain ⟨id, device, stage⟩ := pump
      rw [inFlightWrite_of_writer hw]
      cases stage <;> rfl
  intro o ho id
  simp only [List.mem_append, List.mem_map] at ho
  rcases ho with ho | ⟨k, -, rfl⟩ | ⟨k, -, rfl⟩ | ⟨q, -, rfl⟩
  · split at ho
    · rw [List.mem_singleton.1 ho]
      exact ⟨by simp, by simp⟩
    · cases ho
  all_goals exact ⟨by simp, by simp⟩

theorem ReaderTended.parked_eq_none (h : ReaderTended s) {pump : ReadPump}
    (hr : s.reader = some pump) : s.parked = none := by
  by_contra hp
  rw [(h.parked hp).1] at hr
  cases hr

/-! ## Handlers -/

theorem carried_congr (hreader : t.reader = s.reader) (hparked : t.parked = s.parked) :
    t.carried = s.carried := by
  rw [carried, carried, inRead, inRead, hreader, hparked]

/-- A carried request goes to the new pump or is parked. -/
theorem carried_ensureReader (hfree : s.holdsReads = true → s.reader = none)
    (hcarry : carry = none ∨ s.holdsReads = true ∧ s.parked = none) :
    (s.ensureReader carry).carried = carry.toList ++ s.carried := by
  rcases ensureReader_cases hcarry with ⟨hq, he⟩ | ⟨hq, -, he⟩ | ⟨k, hq, -, he⟩
  · have hn : carry = none := hcarry.resolve_right fun h => by simp [hq] at h
    rw [he, hn]
    rfl
  · have hr := hfree hq
    rw [he]
    rcases hcarry with rfl | ⟨-, hp⟩
    · simp [carried, inRead, hr]
    · simp [carried, inRead, hr, hp]
  · have hr := hfree hq
    rw [he]
    rcases hcarry with rfl | ⟨-, hp⟩
    · simp [carried, inRead, hr, ReadStage.request?]
    · simp [carried, inRead, hr, hp, ReadStage.request?]

theorem carried_ensureWriter : s.ensureWriter.carried = s.carried := by
  obtain ⟨_, _, _, he⟩ := ensureWriter_eq s
  rw [he]
  rfl

/-- A write pump that starts has no request yet. -/
theorem inFlightWrite_ensureWriter : s.ensureWriter.inFlightWrite = s.inFlightWrite := by
  unfold ensureWriter
  split
  · rfl
  · rename_i hw
    have hw : s.writer = none := by simpa using hw
    repeat' split
    any_goals rfl
    rw [inFlightWrite_eq_none hw]
    rfl

theorem carried_addSlot (hfree : s.holdsReads = true → s.reader = none) (device : DeviceRef) :
    (s.addSlot id device).carried = s.carried := by
  obtain ⟨_, _, hs⟩ := supersede_eq s
  obtain ⟨_, _, _, hw⟩ :=
    ensureWriter_eq { s.supersede with slots := s.supersede.slots ++ [({ id, device } : Slot)] }
  rw [addSlot_eq, adopt, carried_ensureReader (by rw [hw, hs]; exact hfree) (.inl rfl),
    carried_ensureWriter, hs]
  rfl

theorem inFlightWrite_addSlot (device : DeviceRef) :
    (s.addSlot id device).inFlightWrite = s.inFlightWrite := by
  obtain ⟨_, _, hs⟩ := supersede_eq s
  obtain ⟨_, _, _, _, hr⟩ := ensureReader_eq
    (s := { s.supersede with slots := s.supersede.slots ++ [({ id, device } : Slot)] }.ensureWriter)
    (.inl (Eq.refl none))
  have hsame : (s.addSlot id device).inFlightWrite = { s.supersede with
      slots := s.supersede.slots ++ [({ id, device } : Slot)] }.ensureWriter.inFlightWrite := by
    rw [addSlot_eq, adopt, hr]
    rfl
  rw [hsame, inFlightWrite_ensureWriter, hs]
  rfl

/-- The request of a read pump that has stopped is carried on. -/
theorem carried_onReadExit (h : ReaderTended s) {pump : ReadPump} {exit : ReadExit}
    (hr : s.reader = some pump) (hs : pump.stage = .stopped exit) :
    (s.onReadExit pump.id exit).carried = s.carried := by
  have hp := h.parked_eq_none hr
  have hfree : (s.freeReader pump.id).carried = [] := by
    show none.toList ++ s.parked.toList = []
    rw [hp]
    rfl
  have hbefore : s.carried = pump.stage.request?.toList := by
    rw [carried, inRead_of_reader hr, hp]
    simp
  have hrestart : ((s.freeReader pump.id).restart exit).carried = s.carried := by
    rw [hbefore, hs]
    cases exit with
    | drained carry =>
      rw [restart, carried_ensureReader (s := s.freeReader pump.id) (fun _ => rfl)
        (.inr ⟨rfl, hp⟩), hfree]
      simp [ReadStage.request?]
    | failed =>
      rw [restart, carried_ensureReader (s := s.freeReader pump.id) (fun _ => rfl)
        (.inr ⟨rfl, hp⟩), hfree]
      rfl
    | disconnected => exact hfree
  rw [onReadExit_eq]
  exact hrestart

theorem inFlightWrite_onWriteExit {pump : WritePump} {exit : WriteExit}
    (hw : s.writer = some pump) (hs : pump.stage = .stopped exit) :
    (s.onWriteExit pump.id exit).inFlightWrite = s.inFlightWrite := by
  obtain ⟨_, _, he⟩ := closeAfter_eq (s.freeWriter pump.id) pump.id exit
  have hbefore : s.inFlightWrite = none := by
    rw [inFlightWrite_of_writer hw, hs]
    rfl
  have hafter :
      ((s.freeWriter pump.id).closeAfter pump.id exit).ensureWriter.inFlightWrite = none := by
    rw [inFlightWrite_ensureWriter, he]
    rfl
  rw [onWriteExit_eq, hbefore]
  exact hafter

/-- A read pump that starts reads nothing yet. -/
theorem inFlight_ensureReader (hfree : s.holdsReads = true → s.reader = none)
    (hcarry : carry = none ∨ s.holdsReads = true ∧ s.parked = none) :
    (s.ensureReader carry).inFlight = s.inFlight := by
  rcases ensureReader_cases hcarry with ⟨-, he⟩ | ⟨-, -, he⟩ | ⟨k, hq, -, he⟩
  · rw [he]
  · rw [he]
    rfl
  · rw [he, inFlight_eq_none (hfree hq)]
    rfl

theorem inFlight_addSlot (hfree : s.holdsReads = true → s.reader = none) (device : DeviceRef) :
    (s.addSlot id device).inFlight = s.inFlight := by
  obtain ⟨_, _, hs⟩ := supersede_eq s
  obtain ⟨_, _, _, hw⟩ :=
    ensureWriter_eq { s.supersede with slots := s.supersede.slots ++ [({ id, device } : Slot)] }
  rw [addSlot_eq, adopt, inFlight_ensureReader (by rw [hw, hs]; exact hfree) (.inl rfl), hw, hs]
  rfl

theorem inFlight_onReadExit (h : ReaderTended s) {pump : ReadPump} {exit : ReadExit}
    (hr : s.reader = some pump) (hs : pump.stage = .stopped exit) :
    (s.onReadExit pump.id exit).inFlight = s.inFlight := by
  have hp : (s.freeReader pump.id).parked = none := h.parked_eq_none hr
  have hbefore : s.inFlight = none := by
    rw [inFlight_of_reader hr, hs]
    rfl
  rw [onReadExit_eq, hbefore]
  show ((s.freeReader pump.id).restart exit).inFlight = none
  cases exit with
  | drained carry => exact inFlight_ensureReader (fun _ => rfl) (.inr ⟨rfl, hp⟩)
  | failed => exact inFlight_ensureReader (fun _ => rfl) (.inl rfl)
  | disconnected => rfl

/-- What a handler does with devices and pumps; all else stays, requests included. -/
structure Handled (s t : State) : Prop where
  eq : ∃ slots closers reader writer holdsReads holdsWrites parked closeError,
    t = { s with slots, closers, reader, writer, holdsReads, holdsWrites, parked, closeError }
  carried : t.carried = s.carried
  inFlight : t.inFlight = s.inFlight
  inFlightWrite : t.inFlightWrite = s.inFlightWrite

namespace Handled

theorem addSlot (hfree : s.holdsReads = true → s.reader = none) (device : DeviceRef) :
    Handled s (s.addSlot id device) := by
  refine ⟨?_, carried_addSlot hfree device, inFlight_addSlot hfree device,
    inFlightWrite_addSlot device⟩
  obtain ⟨_, _, hs⟩ := supersede_eq s
  obtain ⟨_, _, _, _, _, _, ha⟩ := adopt_eq s.supersede { id, device }
  exact ⟨_, _, _, _, _, _, _, _, by rw [addSlot_eq, ha, hs]⟩

theorem onReadExit (h : ReaderTended s) {pump : ReadPump} {exit : ReadExit}
    (hr : s.reader = some pump) (hs : pump.stage = .stopped exit) :
    Handled s (s.onReadExit pump.id exit) := by
  obtain ⟨slots, reader, parked, holdsReads, he⟩ :=
    restart_eq (s := s.freeReader pump.id) rfl (h.parked_eq_none hr) exit
  have heq : s.onReadExit pump.id exit = { (s.freeReader pump.id).prune with
      slots := slots.filter (!·.isRetired), reader, parked, holdsReads } := by
    rw [onReadExit_eq, he]
    rfl
  exact ⟨⟨_, _, _, _, _, _, _, _, heq⟩, carried_onReadExit h hr hs, inFlight_onReadExit h hr hs,
    by rw [heq]; rfl⟩

theorem onWriteExit {pump : WritePump} {exit : WriteExit} (hw : s.writer = some pump)
    (hs : pump.stage = .stopped exit) : Handled s (s.onWriteExit pump.id exit) := by
  obtain ⟨_, closers, he⟩ := closeAfter_eq (s.freeWriter pump.id) pump.id exit
  obtain ⟨slots, writer, holdsWrites, he'⟩ :=
    ensureWriter_eq ((s.freeWriter pump.id).closeAfter pump.id exit)
  have heq : s.onWriteExit pump.id exit = { (s.freeWriter pump.id).prune with
      slots := slots.filter (!·.isRetired), closers, writer, holdsWrites } := by
    rw [onWriteExit_eq, he', he]
    rfl
  exact ⟨⟨_, _, _, _, _, _, _, _, heq⟩, by rw [heq]; rfl, by rw [heq]; rfl,
    inFlightWrite_onWriteExit hw hs⟩

theorem onClosed (id : DeviceId) (error : Option TunnelError) :
    Handled s ({ s with closers := s.closers.filter (·.id != id) }.onClosed id error) := by
  rw [onClosed_eq]
  exact ⟨⟨_, _, _, _, _, _, _, _, rfl⟩, rfl, rfl, rfl⟩

theorem closeAll (cause : Teardown) :
    Handled { s with coordinator := .tearingDown cause } (s.closeAll cause) := by
  obtain ⟨_, _, he⟩ := closeAll_eq s cause
  rw [he]
  exact ⟨⟨_, _, _, _, _, _, _, _, rfl⟩, rfl, rfl, rfl⟩

theorem inWrite (hh : Handled s t) : t.inWrite = s.inWrite := by
  rw [inWrite_eq, inWrite_eq, hh.inFlightWrite]

/-- What is parked after a handler had left the queue before it. -/
theorem keeps_of_parked {control : List Control} {coordinator : Coordinator} {r : ReadRequest}
    (hh : Handled { s with control, coordinator } t) (ht : Tended t) (hp : t.parked = some r) :
    s.Keeps r := by
  have hreader : t.reader = none := (ht.reads.parked (by simp [hp])).1
  have hcarried : t.carried = [r] := by
    rw [State.carried, inRead_eq_none hreader, hp]
    rfl
  exact ⟨hh.carried.symm.trans hcarried, hh.inFlight.symm.trans (inFlight_eq_none hreader)⟩

theorem isOver (hh : Handled s t) : t.isOver = s.isOver := by
  obtain ⟨_, _, _, _, _, _, _, _, he⟩ := hh.eq
  rw [he]
  rfl

end Handled

theorem isOver_closeAll {cause : Teardown} : (s.closeAll cause).isOver = false := by
  obtain ⟨_, _, he⟩ := closeAll_eq s cause
  rw [he]
  rfl

/-! ## Moves of the coordinator -/

/-- A move of the coordinator: it answers or passes on a question, fails, or handles
    something, after which a teardown may end. The caller of its message is answered, waits
    for the answer to a question, or waits for the teardown that begins. -/
inductive Act (s : State) : State → Prop
  | answer {c : Caller} {rest : List Control} (a : Answer)
      (hc : controlCallers s.control = [c] ++ controlCallers rest) :
      Act s (State.answer { s with control := rest } c a)
  | ask {q : Query} {rest : List Control} (hq : q.ticket = s.tickets)
      (hc : controlCallers s.control = [q.caller] ++ controlCallers rest) :
      Act s { s with control := rest, queries := s.queries ++ [q], tickets := s.tickets + 1 }
  | fail (closers : List Closer) : Act s (State.crash { s with closers })
  | handle {control : List Control} {coordinator : Coordinator} {u : State}
      (hc : coordinator.caller?.toList ++ controlCallers control =
        s.coordinator.caller?.toList ++ controlCallers s.control)
      (hh : Handled { s with control, coordinator } u) (ht : Tended u) (ho : u.isOver = false) :
      Act s u.settleTeardown

theorem controlCallers_cons (m : Control) (rest : List Control) :
    controlCallers (m :: rest) = m.caller?.toList ++ controlCallers rest := by
  cases hc : m.caller? <;> simp [controlCallers, hc]

theorem Act.query {rest : List Control}
    (hc : controlCallers s.control = [c] ++ controlCallers rest) (question : Question)
    (default : Answer) : Act s (State.query { s with control := rest } c question default) := by
  unfold State.query
  split
  · exact .answer default hc
  · exact .ask (q := ⟨s.tickets, c, _, question⟩) rfl hc

/-- A teardown begins, for the caller of its message or because nobody is left. -/
theorem Act.teardown {cause : Teardown} {rest : List Control} (hs : s.coordinator = .serving)
    (hc : cause.caller?.toList ++ controlCallers rest = controlCallers s.control)
    (h : Kept { s with control := rest }) :
    Act s (State.beginTeardown { s with control := rest } cause) := by
  have hh : Handled { s with control := rest, coordinator := .tearingDown cause }
      (State.closeAll { s with control := rest } cause) :=
    Handled.closeAll (s := { s with control := rest }) cause
  refine .handle ?_ hh (h.closeAll cause).1 isOver_closeAll
  rw [hs]
  exact hc

theorem Settled.act_control (h : Settled s) (hs : s.takeControl = some t) : Act s t := by
  obtain ⟨hserving, ⟨m, rest, hm, rfl⟩ | ⟨-, -, rfl⟩⟩ := takeControl_cases hs
  · have hkept := h.tended.toKept.takeControl hm
    have hc : controlCallers s.control = m.caller?.toList ++ controlCallers rest := by
      rw [hm, controlCallers_cons]
    cases m with
    | add id device =>
      have hnone : (State.addSlot { s with control := rest } id device).settleTeardown =
          State.addSlot { s with control := rest } id device := by
        rw [State.settleTeardown, coordinator_addSlot, hserving]
      have ho : (State.addSlot { s with control := rest } id device).isOver = false := by
        simp [State.isOver, coordinator_addSlot, hserving]
      show Act s (State.addSlot { s with control := rest } id device)
      rw [← hnone]
      have hh : Handled { s with control := rest, coordinator := s.coordinator }
          (State.addSlot { s with control := rest } id device) :=
        .addSlot hkept.coherent.holdsReads_iff.1 device
      refine .handle ?_ hh (h.tended.addSlot hm hserving) ho
      rw [hc]
      rfl
    | mtu c => exact .query hc _ _
    | name c => exact .query hc _ _
    | count c => exact .answer _ hc
    | shutdown c => exact .teardown hserving hc.symm hkept
    | close c => exact .teardown hserving hc.symm hkept
  · have hkept : Kept { s with control := s.control } := h.tended.toKept
    exact .teardown hserving rfl hkept

theorem Settled.act (h : Settled s) {m : Move} (hm : m.isWork = true) (hs : s.step m = some t) :
    Act s t := by
  cases m with
  | control => exact h.act_control hs
  | joinReader =>
    obtain ⟨ho, pump, hp, ⟨exit, he, rfl⟩ | ⟨-, rfl⟩⟩ := joinReader_cases hs
    · have hh := Handled.onReadExit h.tended.reads hp he
      exact .handle rfl hh (h.tended.onReadExit hp he) (hh.isOver.trans ho)
    · exact .fail s.closers
  | joinWriter =>
    obtain ⟨ho, pump, hp, ⟨exit, he, rfl⟩ | ⟨-, rfl⟩⟩ := joinWriter_cases hs
    · have hh := Handled.onWriteExit hp he
      exact .handle rfl hh (h.tended.onWriteExit hp he) (hh.isOver.trans ho)
    · exact .fail s.closers
  | joinCloser id =>
    obtain ⟨ho, closer, hf, ⟨error, -, rfl⟩ | ⟨-, rfl⟩⟩ := joinCloser_cases hs
    · have hh := Handled.onClosed (s := s) id error
      have hid : closer.id = id := by simpa using List.find?_some hf
      have hc : id ∈ s.closerIds := List.mem_map.2 ⟨closer, List.mem_of_find?_eq_some hf, hid⟩
      exact .handle rfl hh (h.tended.onClosed hc error) (hh.isOver.trans ho)
    · exact .fail _
  | _ => cases hm

end State

end SeamlessTunnel.Multiplexer
