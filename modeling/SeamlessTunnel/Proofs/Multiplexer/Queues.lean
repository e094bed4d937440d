import SeamlessTunnel.Proofs.Multiplexer.Requests
/-
  SeamlessTunnel.Proofs.Multiplexer.Queues — what moves do to the queues.

  Moves change the queues only by the operations of a queue (`Queues.step`). So the queues
  keep their depth, and no caller waits for room while there is some (`queues_of_run`).
-/

namespace SeamlessTunnel.Multiplexer.State

/-- Both queues have gone through operations of a queue. -/
structure Queues (s t : State) : Prop where
  reads : s.reads.Keeps t.reads
  writes : s.writes.Keeps t.writes

section

variable {s t u : State} {c : Caller} {cs : List Caller} {id : DeviceId}

namespace Queues

theorem of_eq (hr : t.reads = s.reads) (hw : t.writes = s.writes) : Queues s t :=
  ⟨hr ▸ .refl, hw ▸ .refl⟩

theorem trans (h : Queues s t) (h' : Queues t u) : Queues s u :=
  ⟨h.reads.trans h'.reads, h.writes.trans h'.writes⟩

theorem refuse : Queues s (s.refuse cs) :=
  .of_eq (by simp) (by simp)

theorem shutReads : Queues s s.shutReads :=
  ⟨by simpa using .shut, by simpa using .refl⟩

theorem shutWrites : Queues s s.shutWrites :=
  ⟨by simpa using .refl, by simpa using .shut⟩

theorem releaseEvents : Queues s s.releaseEvents := by
  unfold State.releaseEvents
  split <;> exact .of_eq rfl rfl

theorem stopReader {pump : ReadPump} {exit : ReadExit} : Queues s (s.stopReader pump exit) := by
  unfold State.stopReader
  split
  · exact trans (t := { s with reader := none }) (.of_eq rfl rfl) (shutReads.trans .refuse)
  · exact .of_eq rfl rfl

theorem stopWriter {pump : WritePump} {exit : WriteExit} : Queues s (s.stopWriter pump exit) := by
  unfold State.stopWriter
  simp only []
  split
  · exact trans (t := { s.dropForwarder with writer := none }) (.of_eq rfl rfl) .shutWrites
  · exact .of_eq rfl rfl

theorem handled (h : Handled s t) : Queues s t := by
  obtain ⟨_, _, _, _, _, _, _, _, he⟩ := h.eq
  exact .of_eq (by rw [he]) (by rw [he])

theorem dropReads : Queues s s.dropReads := by
  unfold State.dropReads
  split
  · exact shutReads.trans (.of_eq rfl rfl)
  · exact .of_eq rfl rfl

theorem dropWrites : Queues s s.dropWrites := by
  unfold State.dropWrites
  split
  · exact shutWrites.trans (.of_eq rfl rfl)
  · exact .of_eq rfl rfl

theorem finish : Queues s s.finish := by
  have hcontrol : Queues s s.endControl := .of_eq (by simp [endControl]) (by simp [endControl])
  exact hcontrol.trans (dropReads.trans dropWrites)

theorem settleTeardown : Queues s s.settleTeardown := by
  have hparked : ∀ c, Queues s (s.endTeardown (.shutdown c)) := fun c => by
    obtain ⟨_, he⟩ := endShutdown_eq s c
    exact .of_eq (by rw [he]) (by rw [he])
  rcases settleTeardown_cases s with ⟨he, -⟩ | ⟨cause, -, -, he⟩
  · exact .of_eq (by rw [he]) (by rw [he])
  · rw [he]
    cases cause with
    | shutdown c => exact hparked c
    | close c => exact (hparked c).trans .finish
    | released =>
      obtain ⟨_, hr⟩ := releaseParked_eq s
      exact trans (t := s.releaseParked) (.of_eq (by rw [hr]) (by rw [hr])) .finish

theorem dropReader : Queues s s.dropReader := by
  unfold State.dropReader
  repeat' split
  · exact .of_eq rfl rfl
  · exact trans (t := { s with reader := none }) (.of_eq rfl rfl) (shutReads.trans .refuse)
  · exact .of_eq rfl rfl
  · exact .of_eq rfl rfl
  · exact .of_eq rfl rfl

theorem dropWriter : Queues s s.dropWriter := by
  unfold State.dropWriter
  repeat' split
  · exact .of_eq rfl rfl
  · exact trans (t := { s with writer := none }) (.of_eq rfl rfl) .shutWrites
  · exact .of_eq rfl rfl
  · exact .of_eq rfl rfl
  · exact .of_eq rfl rfl
  · exact .of_eq rfl rfl

theorem crash : Queues s s.crash := by
  have hcontrol : Queues s s.dropControl := .of_eq (by simp [dropControl]) (by simp [dropControl])
  rw [crash_eq]
  exact hcontrol.trans (dropReads.trans (dropReader.trans (dropWrites.trans .dropWriter)))

theorem call {op : Operation} (h : s.call c op = some t) : Queues s t := by
  obtain ⟨-, ⟨size, -, rfl⟩ | ⟨packet, -, rfl⟩ | ⟨-, rfl⟩ | ⟨m, -, -, rfl⟩ | rfl⟩ := call_cases h
  · exact ⟨.send, .refl⟩
  · exact ⟨.refl, .send⟩
  · exact .of_eq rfl rfl
  · exact .of_eq rfl rfl
  · exact trans (t := s.enlist c) (.of_eq rfl rfl) .refuse

theorem act (h : Act s t) : Queues s t := by
  cases h with
  | answer => exact .of_eq rfl rfl
  | ask => exact .of_eq rfl rfl
  | fail closers => exact trans (t := { s with closers }) (.of_eq rfl rfl) .crash
  | @handle control coordinator u _ hh =>
    have hhandled : Queues { s with control, coordinator } u := handled hh
    exact trans (t := { s with control, coordinator }) (.of_eq rfl rfl)
      (hhandled.trans .settleTeardown)

theorem pollReader (h : s.pollReader = some t) : Queues s t := by
  obtain ⟨pump, -, ⟨r, -, rfl⟩ | ⟨-, -, rfl⟩ | ⟨r, reads, -, -, hr, rfl⟩ | ⟨-, -, -, rfl⟩⟩ :=
    pollReader_cases h
  · exact .of_eq rfl rfl
  · exact .stopReader
  · exact ⟨.receive hr, .refl⟩
  · exact .stopReader

theorem readReturned {out : Outcome Packet} (h : s.readReturned out = some t) : Queues s t := by
  obtain ⟨pump, r, -, -, ⟨p, -, rfl⟩ | ⟨e, -, -, rfl⟩ | ⟨e, -, -, rfl⟩ | ⟨-, rfl⟩⟩ :=
    readReturned_cases h
  · exact .of_eq rfl rfl
  · exact .stopReader
  · exact trans (t := s.answer r.caller (.failed e)) (.of_eq rfl rfl) .stopReader
  · exact trans (t := { s with reader := if _ then none else _ }) (.of_eq rfl rfl)
      (refuse.trans .shutReads)

theorem pollWriter (h : s.pollWriter = some t) : Queues s t := by
  obtain ⟨pump, -, ⟨-, -, rfl⟩ | ⟨-, rfl⟩ | ⟨r, writes, -, -, hr, rfl⟩ | ⟨-, -, -, rfl⟩⟩ :=
    pollWriter_cases h
  · exact .stopWriter
  · exact .of_eq rfl rfl
  · exact ⟨.refl, .receive hr⟩
  · exact .stopWriter

theorem writeReturned {out : Outcome Nat} (h : s.writeReturned out = some t) : Queues s t := by
  obtain ⟨pump, r, -, -, ⟨a, -, rfl⟩ | ⟨-, rfl⟩⟩ := writeReturned_cases h
  · exact .of_eq rfl rfl
  · exact trans (t := { s with writer := if _ then none else _ }) (.of_eq rfl rfl)
      (refuse.trans .shutWrites)

theorem step (hset : s.isOver = false → Settled s) {m : Move} (hs : s.step m = some t) :
    Queues s t := by
  cases m with
  | call c op => exact .call hs
  | enter c =>
    rcases enter_cases hs with ⟨reads, hr, rfl⟩ | ⟨writes, hw, rfl⟩
    · exact ⟨.enter hr, .refl⟩
    · exact ⟨.refl, .enter hw⟩
  | leave c =>
    obtain ⟨_, -, rfl⟩ := leave_cases hs
    exact trans (t := { s with calls := s.calls.filter (·.caller != c) }) (.of_eq rfl rfl)
      .releaseEvents
  | cancel c =>
    obtain ⟨-, rfl⟩ := cancel_cases hs
    exact trans (t := s.quit c) ⟨.withdraw, .withdraw⟩ .releaseEvents
  | add device =>
    obtain rfl := step_add hs
    unfold State.add
    split <;> exact .of_eq rfl rfl
  | release =>
    simp only [State.step, State.release] at hs
    split at hs
    · obtain rfl := Option.some.inj hs
      exact trans (t := { s with held := false }) (.of_eq rfl rfl) .releaseEvents
    · cases hs
  | control => exact .act ((hset (isOver_of_isWork rfl hs)).act rfl hs)
  | joinReader => exact .act ((hset (isOver_of_isWork rfl hs)).act rfl hs)
  | joinWriter => exact .act ((hset (isOver_of_isWork rfl hs)).act rfl hs)
  | joinCloser id => exact .act ((hset (isOver_of_isWork rfl hs)).act rfl hs)
  | pollReader => exact .pollReader hs
  | readReturned out => exact .readReturned hs
  | pollWriter => exact .pollWriter hs
  | writeReturned out => exact .writeReturned hs
  | pollForwarder =>
    obtain ⟨_, _, rfl⟩ := pollForwarder_eq hs
    exact .of_eq rfl rfl
  | takeEvent =>
    obtain ⟨_, _, _, _, -, rfl⟩ := takeEvent_eq hs
    exact .of_eq rfl rfl
  | eventReturned out =>
    obtain ⟨_, _, rfl⟩ := eventReturned_eq hs
    exact .of_eq rfl rfl
  | closeReturned id out =>
    obtain ⟨-, rfl⟩ := closeReturned_cases hs
    exact .of_eq rfl rfl
  | lateCloseReturned id =>
    obtain rfl := lateCloseReturned_cases hs
    exact .of_eq rfl rfl
  | answered ticket out =>
    obtain ⟨_, _, -, rfl⟩ := answered_cases hs
    exact .of_eq rfl rfl

end Queues

/-- From the start on the queues only go through operations of a queue. -/
theorem queues_of_run {settings : MultiplexerSettings} {ms : List Move}
    (h : Run (.init settings) ms s) : Queues (.init settings) s :=
  h.snocRec (p := fun _ s => Queues (.init settings) s) (.of_eq rfl rfl) fun _ _ _ _ ht h hm =>
    h.trans (.step (fun ho => settled_of_run ht ho) hm)

end

end SeamlessTunnel.Multiplexer.State
