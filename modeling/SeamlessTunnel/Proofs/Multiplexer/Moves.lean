import SeamlessTunnel.Proofs.Multiplexer.Calls
/-
  SeamlessTunnel.Proofs.Multiplexer.Moves — what each move can do.

  One lemma for each move that branches lists all it can make of a state, with the
  conditions (`call_cases`, `takeControl_cases`, `pollReader_cases`, ...). Later proofs go by
  these cases and not by the definitions of the moves.
-/

namespace SeamlessTunnel.Multiplexer.State

variable {s t : State} {c : Caller} {id : DeviceId}

/-! ## Callers -/

theorem caller?_controlOf {op : Operation} {m : Control} (h : controlOf c op = some m) :
    m.caller? = some c := by
  cases op <;> cases h <;> rfl

/-- A caller has made a call. -/
def enlist (s : State) (c : Caller) : State :=
  { s with calls := s.calls ++ [({ caller := c } : Call)] }

/-- A call goes to a queue, to the listeners or to the coordinator, or is refused. -/
theorem call_cases {op : Operation} (h : s.call c op = some t) :
    (s.held = true ∧ c ∉ s.callers ∧ c ∉ s.gone) ∧
    ((∃ size, op = .read size ∧ t = { s.enlist c with reads := s.reads.send ⟨c, size⟩ }) ∨
      (∃ packet, op = .write packet ∧
        t = { s.enlist c with writes := s.writes.send ⟨c, packet⟩ }) ∨
      (op = .nextEvent ∧ t = { s.enlist c with listeners := s.listeners ++ [c] }) ∨
      (∃ m : Control, controlOf c op = some m ∧ s.isOver = false ∧
        t = { s.enlist c with control := s.control ++ [m] }) ∨
      t = (s.enlist c).refuse [c]) := by
  unfold call at h
  split at h
  · cases h
  · rename_i hfree
    simp only [Bool.or_eq_true, Bool.not_eq_true', List.any_eq_true, decide_eq_true_eq,
      List.contains_iff_mem, not_or, Bool.not_eq_false] at hfree
    refine ⟨⟨hfree.1.1, fun hc => hfree.1.2 ?_, hfree.2⟩, ?_⟩
    · obtain ⟨k, hk, he⟩ := List.mem_map.1 hc
      exact ⟨k, hk, he⟩
    · cases op with
      | read size =>
        simp only [] at h
        split at h
        · exact .inl ⟨size, rfl, (Option.some.inj h).symm⟩
        · exact .inr (.inr (.inr (.inr (Option.some.inj h).symm)))
      | write packet =>
        simp only [] at h
        split at h
        · exact .inr (.inl ⟨packet, rfl, (Option.some.inj h).symm⟩)
        · exact .inr (.inr (.inr (.inr (Option.some.inj h).symm)))
      | nextEvent => exact .inr (.inr (.inl ⟨rfl, (Option.some.inj h).symm⟩))
      | _ =>
        simp only [] at h
        split at h
        · exact .inr (.inr (.inr (.inr (Option.some.inj h).symm)))
        · rename_i ho
          exact .inr (.inr (.inr (.inl
            ⟨_, rfl, eq_false_of_ne_true ho, (Option.some.inj h).symm⟩)))

theorem enter_cases (h : s.enter c = some t) :
    (∃ reads, s.reads.enter (·.caller = c) = some reads ∧ t = { s with reads }) ∨
    ∃ writes, s.writes.enter (·.caller = c) = some writes ∧ t = { s with writes } := by
  unfold enter at h
  split at h
  · rename_i reads hr
    exact .inl ⟨reads, hr, (Option.some.inj h).symm⟩
  · obtain ⟨writes, hw, he⟩ := Option.map_eq_some_iff.1 h
    exact .inr ⟨writes, hw, he.symm⟩

theorem leave_cases (h : s.leave c = some t) : ∃ a, s.answer? c = some a ∧
    t = { s with calls := s.calls.filter (·.caller != c) }.releaseEvents := by
  obtain ⟨a, ha, he⟩ := Option.map_eq_some_iff.1 h
  exact ⟨a, ha, he.symm⟩

/-- A caller gives up. -/
def quit (s : State) (c : Caller) : State :=
  { s with
    calls := s.calls.filter (·.caller != c)
    gone := s.gone ++ [c]
    listeners := s.listeners.filter (· != c)
    reads := s.reads.withdraw (·.caller = c)
    writes := s.writes.withdraw (·.caller = c) }

theorem cancel_cases (h : s.cancel c = some t) :
    c ∈ s.callers ∧ t = (s.quit c).releaseEvents := by
  unfold cancel at h
  split at h
  · cases h
  · rename_i hc
    simp only [Bool.not_eq_true', Bool.not_eq_false, List.any_eq_true, decide_eq_true_eq] at hc
    obtain ⟨k, hk, he⟩ := hc
    exact ⟨List.mem_map.2 ⟨k, hk, he⟩, (Option.some.inj h).symm⟩

/-! ## The coordinator -/

theorem takeControl_cases (h : s.takeControl = some t) : s.coordinator = .serving ∧
    ((∃ m rest, s.control = m :: rest ∧ t = { s with control := rest }.handle m) ∨
      (s.control = [] ∧ s.hasHandle = false ∧ t = s.beginTeardown .released)) := by
  unfold takeControl at h
  split at h
  · cases h
  · rename_i hc
    refine ⟨by simpa using hc, ?_⟩
    split at h
    · rename_i m rest hm
      exact .inl ⟨m, rest, hm, (Option.some.inj h).symm⟩
    · rename_i hm
      split at h
      · cases h
      · rename_i hh
        exact .inr ⟨hm, by simpa using hh, (Option.some.inj h).symm⟩

theorem joinReader_cases (h : s.joinReader = some t) : s.isOver = false ∧
    ∃ pump, s.reader = some pump ∧
      ((∃ exit, pump.stage = .stopped exit ∧ t = (s.onReadExit pump.id exit).settleTeardown) ∨
        (pump.stage = .crashed ∧ t = s.crash)) := by
  unfold joinReader at h
  split at h
  · cases h
  · rename_i ho
    refine ⟨by simpa using ho, ?_⟩
    split at h
    · rename_i id device exit hr
      exact ⟨_, hr, .inl ⟨exit, rfl, (Option.some.inj h).symm⟩⟩
    · rename_i id device hr
      exact ⟨_, hr, .inr ⟨rfl, (Option.some.inj h).symm⟩⟩
    · cases h

theorem joinWriter_cases (h : s.joinWriter = some t) : s.isOver = false ∧
    ∃ pump, s.writer = some pump ∧
      ((∃ exit, pump.stage = .stopped exit ∧ t = (s.onWriteExit pump.id exit).settleTeardown) ∨
        (pump.stage = .crashed ∧ t = s.crash)) := by
  unfold joinWriter at h
  split at h
  · cases h
  · rename_i ho
    refine ⟨by simpa using ho, ?_⟩
    split at h
    · rename_i id device exit hr
      exact ⟨_, hr, .inl ⟨exit, rfl, (Option.some.inj h).symm⟩⟩
    · rename_i id device hr
      exact ⟨_, hr, .inr ⟨rfl, (Option.some.inj h).symm⟩⟩
    · cases h

theorem joinCloser_cases (h : s.joinCloser id = some t) : s.isOver = false ∧
    ∃ closer, s.closers.find? (·.id = id) = some closer ∧
      ((∃ error, closer.result ≠ none ∧
          t = ({ s with closers := s.closers.filter (·.id != id) }.onClosed id error).settleTeardown) ∨
        (closer.result = some .crash ∧
          t = { s with closers := s.closers.filter (·.id != id) }.crash)) := by
  unfold joinCloser at h
  split at h
  · cases h
  · rename_i ho
    refine ⟨by simpa using ho, ?_⟩
    obtain ⟨closer, hf, h⟩ := Option.bind_eq_some_iff.1 h
    obtain ⟨out, hout, h⟩ := Option.bind_eq_some_iff.1 h
    refine ⟨closer, hf, ?_⟩
    have hres : closer.result ≠ none := by simp [hout]
    cases out with
    | value u => exact .inl ⟨none, hres, (Option.some.inj h).symm⟩
    | failure e => exact .inl ⟨some e, hres, (Option.some.inj h).symm⟩
    | crash => exact .inr ⟨hout, (Option.some.inj h).symm⟩

theorem closeReturned_cases {out : Outcome Unit} (h : s.closeReturned id out = some t) :
    (∃ closer ∈ s.closers, closer.id = id ∧ closer.result = none) ∧
    t = { s with closers := s.closers.map fun k =>
      if k.id = id then { k with result := some out } else k } := by
  unfold closeReturned at h
  split at h
  · rename_i hc
    simp only [List.any_eq_true, Bool.and_eq_true, decide_eq_true_eq, Option.isNone_iff_eq_none] at hc
    obtain ⟨k, hk, he, hn⟩ := hc
    exact ⟨⟨k, hk, he, hn⟩, (Option.some.inj h).symm⟩
  · cases h

theorem lateCloseReturned_cases (h : s.lateCloseReturned id = some t) :
    t = { s with lateCloses := s.lateCloses.filter (·.1 != id) } := by
  unfold lateCloseReturned at h
  split at h
  · exact (Option.some.inj h).symm
  · cases h

/-- A question is answered, with what the device says or with a failure. -/
theorem answered_cases {ticket : Nat} {out : Outcome Answer} (h : s.answered ticket out = some t) :
    ∃ q a, s.queries.find? (·.ticket = ticket) = some q ∧
      t = { s with queries := s.queries.filter (·.ticket != ticket) }.answer q.caller a := by
  obtain ⟨q, hq, h⟩ := Option.bind_eq_some_iff.1 h
  cases out with
  | value a => exact ⟨q, a, hq, (Option.some.inj h).symm⟩
  | failure e => exact ⟨q, .failed e, hq, (Option.some.inj h).symm⟩
  | crash => exact ⟨q, .failed .closed, hq, (Option.some.inj h).symm⟩

/-! ## Reading -/

/-- The read pump has taken a request. A request whose caller has gone away is skipped. -/
def takeRead (s : State) (pump : ReadPump) (r : ReadRequest) : State :=
  { s with reader := some { pump with
      stage := if s.awaits r.caller then .reading r else .ready none } }

theorem pollReader_cases (h : s.pollReader = some t) : ∃ pump, s.reader = some pump ∧
    ((∃ r, pump.stage = .ready (some r) ∧ t = s.takeRead pump r) ∨
      (pump.stage = .ready none ∧ (s.isOver = true ∨ s.isClosed pump.id = true) ∧
        t = s.stopReader pump (.drained none)) ∨
      (∃ r reads, pump.stage = .ready none ∧ s.isOver = false ∧ s.reads.receive = some (r, reads) ∧
        t = { s with reads }.takeRead pump r) ∨
      (pump.stage = .ready none ∧ s.isOver = false ∧ s.hasHandle = false ∧
        t = s.stopReader pump .disconnected)) := by
  obtain ⟨pump, hp, h⟩ := Option.bind_eq_some_iff.1 h
  refine ⟨pump, hp, ?_⟩
  simp only [] at h
  split at h
  · rename_i r hs
    exact .inl ⟨r, hs, (Option.some.inj h).symm⟩
  · rename_i hs
    split at h
    · rename_i hc
      exact .inr (.inl ⟨hs, by simpa using hc, (Option.some.inj h).symm⟩)
    · rename_i hc
      have ho : s.isOver = false := by simp_all
      split at h
      · rename_i r reads hr
        exact .inr (.inr (.inl ⟨r, reads, hs, ho, hr, (Option.some.inj h).symm⟩))
      · split at h
        · cases h
        · rename_i hh
          exact .inr (.inr (.inr ⟨hs, ho, by simpa using hh, (Option.some.inj h).symm⟩))
  · cases h

/-- What becomes of the request of a read that has returned. -/
theorem readReturned_cases {out : Outcome Packet} (h : s.readReturned out = some t) :
    ∃ pump r, s.reader = some pump ∧ pump.stage = .reading r ∧
    ((∃ p, out = .value p ∧
        t = { s with reader := some { pump with stage := .ready none } }.answer r.caller (.packet p)) ∨
      (∃ e, out = .failure e ∧ s.isDraining pump.id = true ∧
        t = s.stopReader pump (.drained (some r))) ∨
      (∃ e, out = .failure e ∧ s.isDraining pump.id = false ∧
        t = (s.answer r.caller (.failed e)).stopReader pump .failed) ∨
      (out = .crash ∧
        t = ({ s with
          reader := if s.isOver then none else some { pump with stage := .crashed } }.refuse
            [r.caller]).shutReads)) := by
  obtain ⟨pump, hp, h⟩ := Option.bind_eq_some_iff.1 h
  simp only [] at h
  split at h
  · rename_i r hs
    refine ⟨pump, r, hp, hs, ?_⟩
    cases out with
    | value p => exact .inl ⟨p, rfl, (Option.some.inj h).symm⟩
    | failure e =>
      simp only [] at h
      split at h
      · rename_i hd
        exact .inr (.inl ⟨e, rfl, hd, (Option.some.inj h).symm⟩)
      · rename_i hd
        exact .inr (.inr (.inl ⟨e, rfl, by simpa using hd, (Option.some.inj h).symm⟩))
    | crash => exact .inr (.inr (.inr ⟨rfl, (Option.some.inj h).symm⟩))
  · cases h

/-! ## Writing -/

theorem pollWriter_cases (h : s.pollWriter = some t) : ∃ pump, s.writer = some pump ∧
    (((pump.stage = .starting ∨ pump.stage = .ready) ∧
        (s.isOver = true ∨ s.isDraining pump.id = true) ∧ t = s.stopWriter pump .drained) ∨
      (pump.stage = .starting ∧ t = { s with
        writer := some { pump with stage := .ready }
        forwarder := some { id := pump.id, device := pump.device } }) ∨
      (∃ r writes, pump.stage = .ready ∧ s.isOver = false ∧ s.writes.receive = some (r, writes) ∧
        t = { s with writes, writer := some { pump with
          stage := if s.awaits r.caller then .writing r else .ready } }) ∨
      (pump.stage = .ready ∧ s.isOver = false ∧ s.hasHandle = false ∧
        t = s.stopWriter pump .disconnected)) := by
  obtain ⟨pump, hp, h⟩ := Option.bind_eq_some_iff.1 h
  refine ⟨pump, hp, ?_⟩
  split at h
  · rename_i hs
    split at h
    · rename_i hc
      exact .inl ⟨.inl hs, by simpa using hc, (Option.some.inj h).symm⟩
    · exact .inr (.inl ⟨hs, (Option.some.inj h).symm⟩)
  · rename_i hs
    split at h
    · rename_i hc
      exact .inl ⟨.inr hs, by simpa using hc, (Option.some.inj h).symm⟩
    · rename_i hc
      have ho : s.isOver = false := by simp_all
      split at h
      · rename_i r writes hr
        exact .inr (.inr (.inl ⟨r, writes, hs, ho, hr, (Option.some.inj h).symm⟩))
      · split at h
        · cases h
        · rename_i hh
          exact .inr (.inr (.inr ⟨hs, ho, by simpa using hh, (Option.some.inj h).symm⟩))
  · cases h

/-- While its device drains the write pump takes no request. -/
theorem pollWriter_of_isDraining {pump : WritePump} (hp : s.writer = some pump)
    (hd : s.isDraining pump.id = true) (h : s.pollWriter = some t) :
    t = s.stopWriter pump .drained := by
  obtain ⟨pump', hp', h⟩ := Option.bind_eq_some_iff.1 h
  obtain rfl := Option.some.inj (hp.symm.trans hp')
  rw [hd, Bool.or_true] at h
  split at h
  · exact (Option.some.inj h).symm
  · exact (Option.some.inj h).symm
  · cases h

/-- What the caller of a write is told once the write has returned. -/
def writeAnswer : Outcome Nat → Answer
  | .value n => .written n
  | .failure e => .failed e
  | .crash => .failed .closed

theorem writeReturned_cases {out : Outcome Nat} (h : s.writeReturned out = some t) :
    ∃ pump r, s.writer = some pump ∧ pump.stage = .writing r ∧
    ((∃ a, (out ≠ .crash ∧ a = writeAnswer out) ∧
        t = { s with writer := some { pump with stage := .ready } }.answer r.caller a) ∨
      (out = .crash ∧ t = ({ s with writer :=
          if s.isOver then none else some { pump with stage := .crashed } }.refuse
            [r.caller]).shutWrites)) := by
  obtain ⟨pump, hp, h⟩ := Option.bind_eq_some_iff.1 h
  split at h
  · rename_i r hs
    refine ⟨pump, r, hp, hs, ?_⟩
    cases out with
    | value n => exact .inl ⟨_, ⟨by simp, rfl⟩, (Option.some.inj h).symm⟩
    | failure e => exact .inl ⟨_, ⟨by simp, rfl⟩, (Option.some.inj h).symm⟩
    | crash => exact .inr ⟨rfl, (Option.some.inj h).symm⟩
  · cases h

/-! ## Events -/

/-- An event goes to the queue or waits for room, and is lost where nobody listens. -/
theorem eventReturned_cases {out : Outcome (Option Event)} (h : s.eventReturned out = some t) :
    ∃ f, s.forwarder = some f ∧ f.asking = true ∧
    ((∃ e, out = .value (some e) ∧ s.events.isOpen = true ∧
        t = { s with
          events := s.events.send e
          forwarder := some { f with asking := (s.events.send e).blocked.isEmpty } }) ∨
      ((∀ e, out = .value (some e) → s.events.isOpen = false) ∧
        t = { s with forwarder := none })) := by
  obtain ⟨f, hf, h⟩ := Option.bind_eq_some_iff.1 h
  split at h
  · cases h
  · rename_i ha
    refine ⟨f, hf, by simpa using ha, ?_⟩
    split at h
    · rename_i e _
      split at h
      · rename_i ho
        exact .inr ⟨fun _ _ => by simpa using ho, (Option.some.inj h).symm⟩
      · rename_i ho
        exact .inl ⟨e, rfl, by simpa using ho, (Option.some.inj h).symm⟩
    all_goals exact .inr ⟨fun _ he => (by cases he), (Option.some.inj h).symm⟩

theorem eventReturned_eq {out : Outcome (Option Event)} (h : s.eventReturned out = some t) :
    ∃ events forwarder, t = { s with events, forwarder } := by
  obtain ⟨f, -, -, ⟨e, -, -, rfl⟩ | ⟨-, rfl⟩⟩ := eventReturned_cases h
  · exact ⟨_, _, rfl⟩
  · exact ⟨_, _, rfl⟩

theorem pollForwarder_cases (h : s.pollForwarder = some t) :
    ∃ f, s.forwarder = some f ∧ f.asking = false ∧
    ((s.events.isOpen = false ∧ t = { s with forwarder := none }) ∨
      (∃ events, s.events.isOpen = true ∧ s.events.enter (fun _ => true) = some events ∧
        t = { s with events, forwarder := some { f with asking := true } })) := by
  obtain ⟨f, hf, h⟩ := Option.bind_eq_some_iff.1 h
  split at h
  · cases h
  · rename_i ha
    refine ⟨f, hf, by simpa using ha, ?_⟩
    split at h
    · rename_i ho
      exact .inl ⟨by simpa using ho, (Option.some.inj h).symm⟩
    · rename_i ho
      obtain ⟨events, he, h⟩ := Option.bind_eq_some_iff.1 h
      exact .inr ⟨events, by simpa using ho, he, (Option.some.inj h).symm⟩

theorem pollForwarder_eq (h : s.pollForwarder = some t) :
    ∃ events forwarder, t = { s with events, forwarder } := by
  obtain ⟨f, -, -, ⟨-, rfl⟩ | ⟨events, -, -, rfl⟩⟩ := pollForwarder_cases h
  · exact ⟨_, _, rfl⟩
  · exact ⟨_, _, rfl⟩

theorem takeEvent_cases (h : s.takeEvent = some t) : ∃ c rest, s.listeners = c :: rest ∧
    ((∃ e events, s.events.receive = some (e, events) ∧
        t = { s with events, listeners := rest }.answer c (.event (some e))) ∨
      (s.events.receive = none ∧ s.isOver = true ∧ s.forwarder = none ∧
        t = { s with listeners := rest }.answer c (.event none))) := by
  unfold takeEvent at h
  split at h
  · cases h
  · rename_i c rest hl
    refine ⟨c, rest, hl, ?_⟩
    split at h
    · rename_i e events hr
      exact .inl ⟨e, events, hr, (Option.some.inj h).symm⟩
    · rename_i hr
      split at h
      · rename_i ho
        simp only [Bool.and_eq_true, Option.isNone_iff_eq_none] at ho
        exact .inr ⟨hr, ho.1, ho.2, (Option.some.inj h).symm⟩
      · cases h

theorem takeEvent_eq (h : s.takeEvent = some t) : ∃ c rest a events,
    s.listeners = c :: rest ∧ t = { s with events, listeners := rest }.answer c a := by
  obtain ⟨c, rest, hl, ⟨e, events, -, rfl⟩ | ⟨-, -, -, rfl⟩⟩ := takeEvent_cases h
  · exact ⟨c, rest, _, events, hl, rfl⟩
  · exact ⟨c, rest, _, s.events, hl, rfl⟩

end SeamlessTunnel.Multiplexer.State
