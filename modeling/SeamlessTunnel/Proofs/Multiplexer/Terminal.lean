import SeamlessTunnel.Proofs.Multiplexer.Disposal
import SeamlessTunnel.Proofs.Multiplexer.Keeping
import SeamlessTunnel.Proofs.Multiplexer.Waiting
/-
  SeamlessTunnel.Proofs.Multiplexer.Terminal — a closed multiplexer owes nobody anything.

  With its last move the coordinator tells all that wait in its queues or behind the close
  that the multiplexer is closed, gives an empty packet to a read that no device has served,
  and closes the devices that wait behind the close (`Farewell`). Once the close has its
  answer, whoever still waits listens for events or waits for a device to answer a
  question, each device that was taken is closed once, and whatever comes later is refused
  (`terminal_of_run`).
-/

namespace SeamlessTunnel.Multiplexer

namespace State

/-- What becomes of those who wait in the state `u`, and of the messages behind the close,
    when the coordinator ends and leaves the state `v`. -/
structure Farewell (u v : State) (behind : List Control) : Prop where
  /-- A read that has left its queue, and that no device has served, ends with an empty
      packet. -/
  emptied : ∀ r ∈ u.carried, u.awaits r.caller = true → v.answer? r.caller = some (.packet [])
  /-- No write is with a device. -/
  unwritten : u.inWrite = none
  refused : ∀ c, u.awaits c = true → c ∈ u.reads.contents.map (·.caller) ∨
    c ∈ u.writes.contents.map (·.caller) ∨ c ∈ controlCallers behind →
    v.answer? c = some (.failed .closed)
  late : ∀ id device, .add id device ∈ behind → ⟨.lateClose id, device, .close⟩ ∈ v.outstanding

/-- What a close that has its answer leaves of a multiplexer. -/
structure Terminal (s₀ : State) (ms : List Move) (s : State) : Prop where
  /-- The coordinator has ended with a close, and each device behind it is closed once. -/
  ending : ∃ ms₁ m ms₂ u v c behind, ms = ms₁ ++ m :: ms₂ ∧ Run s₀ ms₁ u ∧ u.step m = some v ∧
    u.isOver = false ∧ v.isOver = true ∧ u.agenda = .close c :: behind ∧ Farewell u v behind ∧
    ∀ id device, .add id device ∈ behind → (s₀.log startedDisposals ms).count (id, device) = 1
  /-- Whoever waits listens for events or waits for a device, and is answered as soon as that
      returns. -/
  answered : ∀ c, s.awaits c = true → c ∈ s.listeners ∨ ∃ q ∈ s.queries, q.caller = c ∧
    ∀ out, ∃ t a, s.step (.answered q.ticket out) = some t ∧ t.answer? c = some a
  closed : ∀ k ∈ s₀.log takenDevices ms, (s₀.log startedDisposals ms).count k = 1
  refused : ∀ ns t c op u, Run s ns t → t.step (.call c op) = some u → op ≠ .nextEvent →
    u.answer? c = some (.failed .closed)
  unwelcome : ∀ ns t device, Run s ns t → (t.add device).1 = .error .closed

section

variable {s t u v : State} {m : Move} {c d : Caller} {id : DeviceId} {device : DeviceRef}
variable {ms ns : List Move} {behind : List Control} {settings : MultiplexerSettings}

/-! ## Who is told at the end -/

/-- A coordinator that ends with both queues in its hands refuses all that is in them or on
    its way to it. -/
theorem answer?_finish_of_mem (hu : s.callers.Nodup) (hr : s.holdsReads = true)
    (hw : s.holdsWrites = true) (hc : s.awaits c = true) (hm : c ∈ controlCallers s.control ∨
      c ∈ s.reads.contents.map (·.caller) ∨ c ∈ s.writes.contents.map (·.caller)) :
    s.finish.answer? c = some (.failed .closed) := by
  obtain ⟨_, _, hcontrol⟩ := endControl_eq s
  obtain ⟨_, _, hreads⟩ := shutReads_eq s.endControl
  have hwaiting : s.endControl.reads = s.reads ∧ s.endControl.shutReads.writes = s.writes := by
    rw [hreads, hcontrol]
    exact ⟨rfl, rfl⟩
  have hcalls : s.finish.calls = (s.refuse (controlCallers s.control ++
      s.reads.contents.map (·.caller) ++ s.writes.contents.map (·.caller))).calls := by
    rw [finish_of_holder hr hw, ← refuse_append, ← refuse_append]
    change (State.shutWrites { s.endControl.shutReads with holdsReads := false }).calls = _
    rw [shutWrites, hwaiting.2]
    refine calls_refuse ?_
    change s.endControl.shutReads.calls = _
    rw [shutReads, hwaiting.1]
    exact calls_refuse (calls_refuse rfl)
  rw [answer?_congr hcalls]
  exact answer?_refuse_of_mem hu hc (by simpa [or_assoc] using hm)

theorem awaits_releaseParked (hc : s.awaits c = true) (hp : c ∉ callersOf s.parked) :
    s.releaseParked.awaits c = true := by
  unfold releaseParked
  split
  · rename_i r he
    rw [he] at hp
    exact awaits_answer.2 ⟨hc, by simpa [callersOf] using hp⟩
  · exact hc

/-- With the end of a close those who wait for nothing the close was about are refused. -/
theorem answer?_endTeardown_of_mem (hacc : Accounted s) {cause : Teardown}
    (hcause : s.coordinator = .tearingDown cause) (hend : cause.outcome = .ended)
    (hr : s.holdsReads = true) (hw : s.holdsWrites = true) (hc : s.awaits c = true)
    (hm : c ∈ controlCallers s.control ∨ c ∈ s.reads.contents.map (·.caller) ∨
      c ∈ s.writes.contents.map (·.caller)) :
    (s.endTeardown cause).answer? c = some (.failed .closed) := by
  obtain ⟨_, hreleased⟩ := releaseParked_eq s
  -- nothing is kept for a caller twice
  have hone := List.nodup_iff_count_le_one.1 hacc.once c
  rw [count_places, count_readers, count_writers, count_askers, count_carried] at hone
  have hpos : 0 < (controlCallers s.control).count c + (s.reads.contents.map (·.caller)).count c +
      (s.writes.contents.map (·.caller)).count c := by
    rcases hm with hm | hm | hm
    all_goals
      have hpos := List.count_pos_iff.2 hm
      omega
  have hparked : c ∉ callersOf s.parked := fun hp => by
    have hpos' := List.count_pos_iff.2 hp
    rw [callersOf] at hpos'
    omega
  have hother : c ∉ cause.caller?.toList := fun hp => by
    have hpos' := List.count_pos_iff.2 hp
    have hsame : s.coordinator.caller? = cause.caller? := by rw [hcause]; rfl
    rw [hsame] at hone
    omega
  have hwaits := awaits_releaseParked hc hparked
  have hcallers : s.releaseParked.callers.Nodup := by
    rw [callers_releaseParked]
    exact hacc.callers
  cases cause with
  | shutdown d => cases hend
  | close d =>
    obtain ⟨_, hs⟩ := endShutdown_eq s d
    rw [endClose_eq]
    refine answer?_finish_of_mem ?_ (by rw [hs]; exact hr) (by rw [hs]; exact hw) ?_ (by rwa [hs])
    · rw [endTeardown, callers_answer]
      exact hcallers
    · exact awaits_answer.2 ⟨hwaits, by simpa [Teardown.caller?] using hother⟩
  | released =>
    exact answer?_finish_of_mem hcallers (by rw [hreleased]; exact hr) (by rw [hreleased]; exact hw)
      hwaits (by rwa [hreleased])

/-! ## The last move -/

/-- The callers of the agenda are those that wait for the coordinator. -/
theorem controlCallers_agenda : controlCallers s.agenda =
    s.coordinator.caller?.toList ++ controlCallers s.control := by
  have hmessage : ∀ c : Coordinator, controlCallers c.message?.toList = c.caller?.toList := by
    intro c
    cases c with
    | tearingDown cause => cases cause <;> rfl
    | _ => rfl
  rw [← hmessage, agenda, controlCallers, controlCallers, controlCallers, List.filterMap_append]

/-- A device that waits goes on waiting, unless its turn has come. -/
theorem Deed.waiting (d : Deed s m t) (h : .add id device ∈ s.control) :
    .add id device ∈ t.control ∨ m = .control ∧ ∃ rest, s.control = .add id device :: rest := by
  cases d with
  | message hm hn work =>
    rw [work.control]
    rw [hm] at h
    refine .inl ((List.mem_cons.1 h).resolve_left ?_)
    rintro rfl
    cases hn
  | device hm before work =>
    have hcontrol := work.control.trans before.control
    rw [hm] at h
    rcases List.mem_cons.1 h with he | h
    · exact .inr ⟨rfl, _, he ▸ hm⟩
    · exact .inl (hcontrol ▸ h)
  | noHolder hm work => exact .inl (work.control ▸ h)
  | readerEnd hr hs work => exact .inl (work.control ▸ h)
  | writerEnd work => exact .inl (work.control ▸ h)
  | closerEnd hc hr work => exact .inl (work.control ▸ h)

/-- The devices behind a close are those that wait while it is worked on. -/
theorem mem_control_of_behind (ha : s.agenda = .close c :: behind) (h : .add id device ∈ behind) :
    .add id device ∈ s.control := by
  have hmem : .add id device ∈ s.agenda := ha ▸ List.mem_cons_of_mem _ h
  refine (List.mem_append.1 hmem).resolve_left fun hm => ?_
  cases hc : s.coordinator with
  | tearingDown cause => cases cause <;> simp [hc, Coordinator.message?, Teardown.message?] at hm
  | _ => simp [hc, Coordinator.message?] at hm

/-- The devices behind a close are closed when the coordinator ends. -/
theorem late_of_behind_close (hset : Settled s) (hm : m.isWork = true) (hs : s.step m = some t)
    (he : t.coordinator = .ended) (ha : s.agenda = .close c :: behind)
    (h : .add id device ∈ behind) : (id, device) ∈ t.lateCloses := by
  rcases hset.before hm hs with rfl | ⟨u, b⟩
  · rw [coordinator_crash] at he
    cases he
  · have hover : u.settleTeardown.isOver = true := by rw [← b.eq]; simp [isOver, he]
    rw [b.eq, lateCloses_settleTeardown b.working, if_pos hover]
    refine List.mem_append_right _ (mem_lateDevices.2 ?_)
    refine (b.deed.waiting (mem_control_of_behind ha h)).resolve_right ?_
    rintro ⟨rfl, rest, hcontrol⟩
    -- the message at the front is the close
    have hserving := (takeControl_cases hs).1
    rw [agenda_of_message?_eq_none (by rw [hserving]; rfl), hcontrol] at ha
    cases ha

theorem outstanding_of_late (h : (id, device) ∈ s.lateCloses) :
    ⟨.lateClose id, device, .close⟩ ∈ s.outstanding := by
  unfold outstanding
  simp only [List.mem_append, List.mem_map]
  exact .inl (.inr ⟨_, h, rfl⟩)

/-- The coordinator ends where something was handled that ends a teardown. -/
theorem Act.ending (h : Act s t) (hopen : s.isOver = false) (he : t.coordinator = .ended) :
    ∃ control coordinator cause w, coordinator.caller?.toList ++ controlCallers control =
      s.coordinator.caller?.toList ++ controlCallers s.control ∧
      Handled { s with control, coordinator } w ∧ Coherent w ∧ w.slots = [] ∧
      w.coordinator = .tearingDown cause ∧ cause.outcome = .ended ∧ t = w.endTeardown cause := by
  have hover : t.isOver = true := by simp [isOver, he]
  cases h with
  | answer a hc => exact absurd (hopen.symm.trans hover) Bool.false_ne_true
  | ask hq hc => exact absurd (hopen.symm.trans hover) Bool.false_ne_true
  | fail closers =>
    rw [coordinator_crash] at he
    cases he
  | @handle control coordinator w hc hh hw hwork =>
    rcases settleTeardown_cases w with ⟨hsame, -⟩ | ⟨cause, hcause, hnil, hend⟩
    · rw [hsame, hwork] at hover
      cases hover
    · rw [hend, coordinator_endTeardown] at he
      exact ⟨control, coordinator, cause, w, hc, hh, hw.coherent, hnil, hcause, he, hend⟩

/-- The last move of a coordinator that is closed. -/
theorem farewell_of_step (h : Run (.init settings) ms s) (hs : s.step m = some t)
    (hopen : s.isOver = false) (he : t.coordinator = .ended)
    (ha : s.agenda = .close c :: behind) : Farewell s t behind := by
  have hset := settled_of_run h hopen
  have hshut := Shut.of_step h hs hopen he
  have hover : t.isOver = true := hshut.isOver
  have hwork : m.isWork = true := by
    rcases step_kinds hs with ⟨hwork, -⟩ | ⟨device, -, rfl⟩ | q
    · exact hwork
    · rw [isOver_add, hopen] at hover
      cases hover
    · rw [q.isOver, hopen] at hover
      cases hover
  have hlate : ∀ id device, .add id device ∈ behind →
      ⟨.lateClose id, device, .close⟩ ∈ t.outstanding := fun id device hb =>
    outstanding_of_late (late_of_behind_close hset hwork hs he ha hb)
  obtain ⟨control, coordinator, cause, w, hc, hh, hcoh, hnil, hcause, hend, ht⟩ :=
    (hset.act hwork hs).ending hopen he
  obtain ⟨_, _, _, _, _, _, _, _, heq⟩ := hh.eq
  obtain ⟨hreader, hwriter, -⟩ := hcoh.idle hnil
  have hacc : Accounted w := ((accounted_of_run h).handing hc).handled hh
  have hcalls : w.calls = s.calls := by rw [heq]
  have hwaits : ∀ {d}, s.awaits d = true → w.awaits d = true := fun hd =>
    (awaits_congr hcalls).trans hd
  refine ⟨fun r hr hd => ?_, ?_, fun d hd hm => ?_, hlate⟩
  · have hcarried : w.carried = s.carried := hh.carried
    rw [carried, inRead_eq_none hreader] at hcarried
    rw [← hcarried] at hr
    rw [ht]
    exact answer?_endTeardown hacc.callers (Option.mem_toList.1 hr) (hwaits hd) cause
  · have hinWrite : w.inWrite = s.inWrite := hh.inWrite
    rw [← hinWrite, inWrite, hwriter]
    rfl
  · rw [ht]
    refine answer?_endTeardown_of_mem hacc hcause hend (hcoh.holdsReads_iff.2 hreader)
      (hcoh.holdsWrites_iff.2 hwriter) (hwaits hd) ?_
    rcases hm with hm | hm | hm
    · exact .inr (.inl (by rwa [heq]))
    · exact .inr (.inr (by rwa [heq]))
    · -- the close at the front is the one whose teardown ends, if it is one that ends
      have hcallers := controlCallers_agenda (s := s)
      have hmessage : w.coordinator.caller?.toList ++ controlCallers w.control =
          coordinator.caller?.toList ++ controlCallers control := by rw [heq]
      rw [ha, controlCallers_cons, ← hc, ← hmessage, hcause] at hcallers
      refine .inl ?_
      cases cause with
      | shutdown d => cases hend
      | close d =>
        have hcallers : c :: controlCallers behind = d :: controlCallers w.control := hcallers
        exact (List.cons.inj hcallers).2 ▸ hm
      | released =>
        have hcallers : c :: controlCallers behind = controlCallers w.control := hcallers
        exact hcallers ▸ List.mem_cons_of_mem _ hm

/-! ## Afterwards -/

/-- A device that returns answers the caller of its question. -/
theorem answer?_of_answered (hacc : Accounted s) (honce : (s.queries.map (·.ticket)).Nodup)
    {q : Query} (hq : q ∈ s.queries) (hc : s.awaits q.caller = true) (out : Outcome Answer) :
    ∃ t a, s.step (.answered q.ticket out) = some t ∧ t.answer? q.caller = some a :=
  ⟨_, relayed out, answered_eq honce hq out, answer?_answer_self
    (s := { s with queries := s.queries.filter (·.ticket != q.ticket) }) hacc.callers hc⟩

/-- Nothing is kept for a caller but its turn to listen and its questions to devices. -/
theorem Shut.places (h : Shut s) (hc : c ∈ s.places) :
    c ∈ s.listeners ∨ ∃ q ∈ s.queries, q.caller = c := by
  rcases mem_places.1 hc with hc | hc | hc | hc
  · simp [readers, carried, inRead, h.reader, h.parked, h.reads.2] at hc
  · simp [writers, inWrite, h.writer, h.writes.2] at hc
  · refine .inr ?_
    rw [askers, h.ended, h.control] at hc
    exact List.mem_map.1 hc
  · exact .inl hc

theorem Shut.of_moves (h : Shut s) (hrun : Run (.init settings) ms s) (k : Run s ns t) : Shut t := by
  refine shut_of_run (hrun.append k) ?_
  rw [coordinator_of_moves k h.isOver, h.ended]

/-- Once a close has its answer and no device has crashed, nobody is left waiting for the
    multiplexer, all devices are closed once, and whatever comes later is refused. -/
theorem terminal_of_run (h : Run (.init settings) ms s) (hn : ¬ Crashed ms)
    (hc : CloseReturned (.init settings) ms) : Terminal (.init settings) ms s := by
  have hclosed := (closed_of_returned h hc).2.resolve_right hn
  have hended := hclosed.ended h
  have hshut := shut_of_run h hended
  have hall : ∀ k ∈ (State.init settings).log takenDevices ms,
      ((State.init settings).log startedDisposals ms).count k = 1 := fun k hk =>
    count_disposals h (disposed_of_ended h hended hk)
  refine ⟨?_, fun c hw => ?_, hall, fun ns t c op u k hs hop => ?_, fun ns t device k => ?_⟩
  · obtain ⟨ms₁, m, ms₂, u, v, c, behind, rfl, hu, hm, hopen, hv, ha⟩ := hclosed
    refine ⟨ms₁, m, ms₂, u, v, c, behind, rfl, hu, hm, hopen, by simp [isOver, hv], ha,
      farewell_of_step hu hm hopen hv ha, fun id device hb => hall _ ?_⟩
    rw [hu.log_append]
    exact List.mem_append_left _ ((owned_of_run hu).coming _ _ (mem_control_of_behind ha hb))
  · refine (hshut.places (placed_of_awaits h c hw)).imp_right ?_
    rintro ⟨q, hq, rfl⟩
    exact ⟨q, hq, rfl, answer?_of_answered (accounted_of_run h) (tickets_of_run h) hq hw⟩
  · have hcallers := (accounted_of_run ((h.append k).snoc hs)).callers
    rcases (hshut.of_moves h k).call_cases hs with ⟨hlisten, -⟩ | ⟨-, rfl⟩
    · exact absurd hlisten hop
    · rw [callers_refuse] at hcallers
      exact answer?_refuse_of_mem hcallers (awaits_enlist.2 (.inr rfl)) (List.mem_singleton_self c)
  · have hover := (hshut.of_moves h k).isOver
    simp [State.add, hover]

/-- A close comes while a read is under way. Behind it wait a device, a question, a write and
    another read. -/
def terminating : List Move :=
  [.add 0, .control, .pollWriter, .call 1 (.read 100), .pollReader, .call 2 .close, .control, .add 1,
    .call 3 .count, .call 4 (.write [7]), .call 5 (.read 10), .pollWriter, .joinWriter,
    .closeReturned ⟨1⟩ (.value ()), .joinCloser ⟨1⟩, .readReturned (.failure .closed), .joinReader]

def terminated : State where
  defaultMtu := 1280
  reads := { capacity := 64, isOpen := false }
  writes := { capacity := 64, isOpen := false }
  events := { capacity := 64 }
  holdsReads := false
  holdsWrites := false
  lateCloses := [(⟨2⟩, 1)]
  coordinator := .ended
  added := 2
  calls :=
    [⟨1, some (.packet [])⟩, ⟨2, some .done⟩, ⟨3, some (.failed .closed)⟩,
      ⟨4, some (.failed .closed)⟩, ⟨5, some (.failed .closed)⟩]

theorem terminal_terminated : Run (.init {}) terminating terminated ∧ ¬ Crashed terminating ∧
    CloseReturned (.init {}) terminating ∧ Terminal (.init {}) terminating terminated := by
  have hrun : Run (.init {}) terminating terminated := .of_foldlM rfl
  have hcrashed : ¬ Crashed terminating := by simp [Crashed, terminating, Move.isCrash]
  have hreturned : CloseReturned (.init {}) terminating :=
    ⟨terminating.take 5, terminating.drop 6, [], 2, terminated, rfl, hrun, by simp [terminating], rfl⟩
  exact ⟨hrun, hcrashed, hreturned, terminal_of_run hrun hcrashed hreturned⟩

end

end State

end SeamlessTunnel.Multiplexer
