import SeamlessTunnel.Proofs.Multiplexer.Teardowns
/-
  SeamlessTunnel.Proofs.Multiplexer.Handover — reads survive the change of devices.

  Over any run at most one read is under way, what it returns goes to its caller, reads
  that have entered the queue are answered in its order and none is lost, and devices are
  read in the order they came (`handover_of_run`).

  While the multiplexer is open a request leaves the queue only from its front, to be read
  by a listed device (`QueueTurn`). So what is in the queue when a shutdown ends is there for
  the next device. The one read that a shutdown ends empty has left the queue before, and a
  device that drained has left it unserved.
-/

namespace SeamlessTunnel.Multiplexer.State

/-- The read requests that a move puts into the queue. -/
def enteredReads (s : State) (_ : Move) (t : State) : List ReadRequest :=
  t.reads.items.drop s.reads.items.length

/-- The answers that a move gives to pending read requests. -/
def answeredReads (s : State) (_ : Move) (t : State) : List (ReadRequest × Answer) :=
  s.pendingReads.filterMap fun r =>
    if s.awaits r.caller then (t.answer? r.caller).map (r, ·) else none

/-- What a move makes of the queue of reads, after the moves so far. -/
inductive QueueTurn (ms : List Move) (s : State) (m : Move) (t : State) : Prop
  /-- Requests stay in their places, and new ones come behind them. -/
  | stays (h : s.reads.items <+: t.reads.items)
  /-- A listed device is asked to serve the first. -/
  | served {id : DeviceId} {r : ReadRequest} (hm : m = .pollReader)
      (hr : s.reads.items = r :: t.reads.items) (hk : ∃ k ∈ s.slots, k.id = id)
      (hf : t.inFlight = some (id, r))
  /-- The caller of the first has cancelled. -/
  | skipped {r : ReadRequest} (hm : m = .pollReader) (hr : s.reads.items = r :: t.reads.items)
      (hc : .cancel r.caller ∈ ms)

/-- What becomes of the reads of a run. -/
structure ReadsHandedOver (s₀ : State) (ms : List Move) (s : State) : Prop where
  /-- Of the calls on devices at most one is a read, and no read was issued before all
      earlier ones had returned. -/
  single : s.outstanding.filterMap (·.call.read?) = s.inFlight.toList.map (·.1) ∧
    s₀.log issuedReads ms = s₀.log returnedReads ms ++ s.inFlight.toList
  /-- A packet goes to the caller whose read it ends, unless that caller has cancelled, and
      to nobody else. -/
  packets : ∀ ms₁ p ms₂, ms = ms₁ ++ .readReturned (.value p) :: ms₂ →
    ∃ u v id r, Run s₀ ms₁ u ∧ u.step (.readReturned (.value p)) = some v ∧
      u.inFlight = some (id, r) ∧
      (u.awaits r.caller = true ∧ v.answer? r.caller = some (.packet p) ∨ .cancel r.caller ∈ ms₁) ∧
      ∀ c, c ≠ r.caller → v.answer? c = u.answer? c
  /-- Requests leave the queue in the order in which they entered it, with an answer unless
      their callers have cancelled. -/
  order : ∃ settled : List (ReadRequest × Option Answer),
    s₀.log enteredReads ms = settled.map (·.1) ++ s.pendingReads ∧
    s₀.log answeredReads ms = settled.filterMap (fun x => x.2.map (x.1, ·)) ∧
    ∀ r, (r, none) ∈ settled → .cancel r.caller ∈ ms
  /-- Each answer is given for a reason. -/
  causes : ∀ ms₁ m ms₂ u v, ms = ms₁ ++ m :: ms₂ → Run s₀ ms₁ u → u.step m = some v →
    ∀ x ∈ answeredReads u m v, ReadCause u m v x.1 x.2
  /-- The coordinator itself ends a read only with a teardown, and only one that a draining
      device has left unserved. -/
  emptied : ∀ ms₁ m ms₂ u v, ms = ms₁ ++ m :: ms₂ → Run s₀ ms₁ u → u.step m = some v →
    m.isWork = true → ∀ r, (r, .packet []) ∈ answeredReads u m v →
      u.Keeps r ∧ Suppressed s₀ ms₁ r ∧ ∃ cause, u.coordinator = .tearingDown cause ∧
        cause ≠ .released ∧ v.coordinator = cause.outcome ∧ v.slots = []
  /-- While the multiplexer is open, requests leave the queue only to be read, unless the
      device that is read crashes. -/
  queue : ∀ ms₁ m ms₂ u v, ms = ms₁ ++ m :: ms₂ → Run s₀ ms₁ u → u.step m = some v →
    v.isOver = false → m ≠ .readReturned .crash → QueueTurn ms₁ u m v
  /-- When a shutdown ends the queue is as it was and nothing comes before it, and the next
      device that is taken in is read for it. -/
  shutdowns : ∀ ms₁ m ms₂ u v c, ms = ms₁ ++ m :: ms₂ → Run s₀ ms₁ u → u.step m = some v →
    u.Faces m (.shutdown c) → v.coordinator = .serving →
    v.reads = u.reads ∧ v.pendingReads = v.reads.items ∧ v.Resumes
  /-- No device is read after a newer one was. -/
  devices : ((s₀.log issuedReads ms).map (·.1)).Pairwise (·.number ≤ ·.number)

section

variable {s t : State} {m : Move} {ms : List Move}

/-! ## Answers -/

/-- A move answers requests that it takes off the front, and no others. -/
theorem answeredReads_eq {front rest new : List ReadRequest} (ht : Accounted t)
    (hs : s.pendingReads = front ++ rest) (hpending : t.pendingReads = rest ++ new) :
    answeredReads s m t = front.filterMap fun r =>
      if s.awaits r.caller then (t.answer? r.caller).map (r, ·) else none := by
  have hrest : rest.filterMap (fun r =>
      if s.awaits r.caller then (t.answer? r.caller).map (r, ·) else none) = [] := by
    refine List.filterMap_eq_nil_iff.2 ?_
    intro r hr
    rw [ht.not_answered (by rw [hpending]; exact List.mem_append_left _ hr)]
    simp
  rw [answeredReads, hs, List.filterMap_append, hrest, List.append_nil]

theorem Passes.cause (h : Passes s m t) (ht : Accounted t) :
    ∀ x ∈ answeredReads s m t, ReadCause s m t x.1 x.2 := by
  obtain ⟨front, rest, hs, hpending, hserved⟩ := h
  rw [answeredReads_eq ht hs hpending]
  rintro ⟨r, a⟩ hx
  obtain ⟨r', hr', he⟩ := List.mem_filterMap.1 hx
  split at he
  · rename_i hw
    obtain ⟨b, hb, hcause⟩ := hserved r' hr' hw
    rw [hb] at he
    obtain ⟨rfl, rfl⟩ := Prod.mk.inj (Option.some.inj he)
    exact hcause
  · cases he

/-- An empty packet from the coordinator is the end of a read that was kept. -/
theorem emptied_of_step {settings : MultiplexerSettings} {r : ReadRequest}
    (h : Run (.init settings) ms s) (hs : s.step m = some t) (hm : m.isWork = true)
    (hr : (r, .packet []) ∈ answeredReads s m t) :
    s.Keeps r ∧ Suppressed (.init settings) ms r ∧ ∃ cause, s.coordinator = .tearingDown cause ∧
      cause ≠ .released ∧ t.coordinator = cause.outcome ∧ t.slots = [] := by
  have hcause := (passes_of_step (accounted_of_run h) (settled_of_run h) (parked_of_run h) hs).cause
    (accounted_of_run (h.snoc hs)) _ hr
  have hanswer : t.answer? r.caller = some (.packet []) := by
    obtain ⟨r', -, he⟩ := List.mem_filterMap.1 hr
    split at he
    · obtain ⟨a, ha, he⟩ := Option.map_eq_some_iff.1 he
      obtain ⟨rfl, rfl⟩ := Prod.mk.inj he
      exact ha
    · cases he
  cases hcause with
  | packet hreturned =>
    subst hreturned
    cases hm
  | noDevice _ hk => exact ⟨hk, emptied_of_work h hm hs hk hanswer⟩

/-! ## The queue -/

/-- A coordinator that is not over has left the queue alone. -/
theorem Act.reads (h : Act s t) (ho : t.isOver = false) : t.reads = s.reads := by
  cases h with
  | answer => rfl
  | ask => rfl
  | fail closers => exact absurd (isOver_crash.symm.trans ho) (by simp)
  | @handle _ _ u _ hh =>
    obtain ⟨_, _, _, _, _, _, _, _, hu⟩ := hh.eq
    rcases settleTeardown_cases u with ⟨he, -⟩ | ⟨cause, -, -, he⟩
    · rw [he, hu]
    · have hover : ∀ v : State, v.finish.isOver = true := fun v => by
        simp [isOver, coordinator_finish]
      rw [he] at ho ⊢
      cases cause with
      | shutdown c =>
        obtain ⟨_, hend⟩ := endShutdown_eq u c
        rw [hend, hu]
      | close c => exact absurd ((hover _).symm.trans ho) (by simp)
      | released => exact absurd ((hover _).symm.trans ho) (by simp)

theorem queueTurn_of_poll {settings : MultiplexerSettings} (h : Run (.init settings) ms s)
    (ho : s.isOver = false) (hs : s.pollReader = some t) : QueueTurn ms s .pollReader t := by
  obtain ⟨pump, hp, ⟨r, -, rfl⟩ | ⟨-, -, rfl⟩ | ⟨r, reads, -, -, hreceive, rfl⟩ | ⟨-, -, -, rfl⟩⟩ :=
    pollReader_cases hs
  · exact .stays List.prefix_rfl
  · exact .stays (by rw [stopReader, ho]; exact List.prefix_rfl)
  · have hitems : s.reads.items = r :: reads.items := Mailbox.items_receive hreceive
    have hacc := accounted_of_run h
    have hmem : r ∈ s.pendingReads := by
      rw [pendingReads, hitems]
      simp
    cases hw : s.awaits r.caller with
    | true =>
      have hlisted := (settled_of_run h ho).tended.coherent.reader pump.id (readId_of_reader hp)
      refine .served rfl hitems hlisted ?_
      have hawaits : awaits { s with reads } r.caller = true := hw
      rw [takeRead, hawaits]
      rfl
    | false =>
      have hgone := (hacc.awaits_pending hmem).resolve_left (by simp [hw])
      exact .skipped rfl hitems (cancelled_of_run h _ hgone)
  · exact .stays (by rw [stopReader, ho]; exact List.prefix_rfl)

/-- A request leaves the queue only from its front, to be read. -/
theorem queueTurn_of_step {settings : MultiplexerSettings} (h : Run (.init settings) ms s)
    (hs : s.step m = some t) (ho : t.isOver = false) (hm : m ≠ .readReturned .crash) :
    QueueTurn ms s m t := by
  have hopen := isOver_eq_false_of_step hs ho
  rcases step_kinds hs with ⟨hwork, -⟩ | ⟨device, -, rfl⟩ | q
  · exact .stays (((settled_of_run h hopen).act hwork hs).reads ho ▸ List.prefix_rfl)
  · obtain ⟨_, he⟩ := add_parts s device
    have hreads : (s.add device).2.reads = s.reads := by rw [he]
    exact .stays (hreads ▸ List.prefix_rfl)
  · rcases q.reads with ⟨-, hitems⟩ | rfl | ⟨out, rfl⟩
    · exact .stays hitems
    · exact queueTurn_of_poll h hopen hs
    · refine .stays ?_
      obtain ⟨pump, r, -, -, ⟨p, -, rfl⟩ | ⟨e, -, -, rfl⟩ | ⟨e, -, -, rfl⟩ | ⟨rfl, -⟩⟩ :=
        readReturned_cases hs
      · exact List.prefix_rfl
      · rw [stopReader, hopen]
        exact List.prefix_rfl
      · rw [stopReader, show (s.answer r.caller (.failed e)).isOver = false from hopen]
        exact List.prefix_rfl
      · exact absurd rfl hm

/-- A shutdown leaves the queue to the next device. -/
theorem shutdown_of_step {settings : MultiplexerSettings} {c : Caller}
    (h : Run (.init settings) ms s) (hs : s.step m = some t) (hf : s.Faces m (.shutdown c))
    (hc : t.coordinator = .serving) :
    t.reads = s.reads ∧ t.pendingReads = t.reads.items ∧ t.Resumes := by
  have ho : t.isOver = false := by simp [isOver, hc]
  have hopen := isOver_eq_false_of_step hs ho
  obtain ⟨hvacated, hresumes⟩ := vacated_of_step h hs hf hc
  refine ⟨?_, ?_, hresumes hc⟩
  · rcases hf with htearing | ⟨rfl, -⟩
    · cases hm : m.isWork with
      | true => exact ((settled_of_run h hopen).act hm hs).reads ho
      | false =>
        have hsame := (records_of_step hm hs).1
        cases htearing.symm.trans (hsame.symm.trans hc)
    · exact ((settled_of_run h hopen).act rfl hs).reads ho
  · rw [pendingReads, carried, inRead_eq_none hvacated.reader, parked_of_serving (h.snoc hs) hc]
    rfl

/-- Requests are settled from the front. -/
theorem order_of_run {settings : MultiplexerSettings} (h : Run (.init settings) ms s) :
    ∃ settled : List (ReadRequest × Option Answer),
      (State.init settings).log enteredReads ms = settled.map (·.1) ++ s.pendingReads ∧
      (State.init settings).log answeredReads ms =
        settled.filterMap (fun x => x.2.map (x.1, ·)) ∧
      ∀ r, (r, none) ∈ settled → .cancel r.caller ∈ ms := by
  refine h.snocRec (p := fun ms s => ∃ settled : List (ReadRequest × Option Answer),
    (State.init settings).log enteredReads ms = settled.map (·.1) ++ s.pendingReads ∧
    (State.init settings).log answeredReads ms = settled.filterMap (fun x => x.2.map (x.1, ·)) ∧
    ∀ r, (r, none) ∈ settled → .cancel r.caller ∈ ms) ⟨[], rfl, rfl, fun _ hr => by cases hr⟩ ?_
  intro ms s m t hrun ih hm
  obtain ⟨settled, hentered, hanswered, hnone⟩ := ih
  have hacc := accounted_of_run hrun
  obtain ⟨front, rest, hs, hpending, hserved⟩ :=
    passes_of_step hacc (settled_of_run hrun) (parked_of_run hrun) hm
  refine ⟨settled ++ front.map fun r =>
    (r, if s.awaits r.caller then t.answer? r.caller else none), ?_, ?_, ?_⟩
  · rw [hrun.log_snoc hm, hentered, hs, hpending, enteredReads]
    simp [Function.comp_def]
  · rw [hrun.log_snoc hm, hanswered,
      answeredReads_eq (accounted_of_run (hrun.snoc hm)) hs hpending, List.filterMap_append,
      List.filterMap_map]
    congr 2
    funext r
    simp only [Function.comp]
    split <;> rfl
  · intro r hr
    rcases List.mem_append.1 hr with hr | hr
    · exact List.mem_append_left _ (hnone r hr)
    · obtain ⟨r', hr', he⟩ := List.mem_map.1 hr
      obtain ⟨rfl, he⟩ := Prod.mk.inj he
      split at he
      · rename_i hw
        obtain ⟨a, ha, -⟩ := hserved r' hr' hw
        rw [ha] at he
        cases he
      · rename_i hw
        have hmem : r' ∈ s.pendingReads := by
          rw [hs]
          exact List.mem_append_left _ hr'
        have hgone := (hacc.awaits_pending hmem).resolve_left hw
        exact List.mem_append_left _ (cancelled_of_run hrun _ hgone)

/-- A packet goes to the caller whose read it ends. -/
theorem packet_of_run {settings : MultiplexerSettings} {ms₁ ms₂ : List Move} {p : Packet}
    (h : Run (.init settings) (ms₁ ++ .readReturned (.value p) :: ms₂) s) :
    ∃ u v id r, Run (.init settings) ms₁ u ∧ u.step (.readReturned (.value p)) = some v ∧
      u.inFlight = some (id, r) ∧
      (u.awaits r.caller = true ∧ v.answer? r.caller = some (.packet p) ∨ .cancel r.caller ∈ ms₁) ∧
      ∀ c, c ≠ r.caller → v.answer? c = u.answer? c := by
  obtain ⟨u, v, hu, hv⟩ := h.at_move
  have hacc := accounted_of_run hu
  have hreturned : u.readReturned (.value p) = some v := hv
  obtain ⟨pump, r, hp, hstage, ⟨p', hout, hnext⟩ | ⟨e, hout, -⟩ | ⟨e, hout, -⟩ | ⟨hout, -⟩⟩ :=
    readReturned_cases hreturned
  · obtain rfl := Outcome.value.inj hout
    have hflight : u.inFlight = some (pump.id, r) := by
      rw [inFlight_of_reader hp, hstage]
      rfl
    have hmem : r ∈ u.pendingReads := by
      rw [pendingReads, carried, inRead_of_reader hp, hstage]
      exact List.mem_cons_self ..
    refine ⟨u, v, pump.id, r, hu, hv, hflight, ?_, ?_⟩
    · rcases hacc.awaits_pending hmem with hw | hg
      · refine .inl ⟨hw, ?_⟩
        rw [hnext]
        exact answer?_answer_self (s := { u with reader := some { pump with stage := .ready none } })
          hacc.callers hw
      · exact .inr (cancelled_of_run hu _ hg)
    · intro c hc
      rw [hnext]
      exact answer?_answer_of_ne (s := { u with reader := some { pump with stage := .ready none } }) hc
  · cases hout
  · cases hout
  · cases hout

/-- Over any run, reads survive the change of devices. -/
theorem handover_of_run {settings : MultiplexerSettings} (h : Run (.init settings) ms s) :
    ReadsHandedOver (.init settings) ms s where
  single := ⟨reads_outstanding s, issued_of_run h⟩
  packets := by
    rintro ms₁ p ms₂ rfl
    exact packet_of_run h
  order := order_of_run h
  causes := by
    rintro ms₁ m ms₂ u v rfl hu hv
    exact (passes_of_step (accounted_of_run hu) (settled_of_run hu) (parked_of_run hu) hv).cause
      (accounted_of_run (hu.snoc hv))
  emptied := by
    rintro ms₁ m ms₂ u v rfl hu hv hm r hr
    exact emptied_of_step hu hv hm hr
  queue := by
    rintro ms₁ m ms₂ u v rfl hu hv ho hm
    exact queueTurn_of_step hu hv ho hm
  shutdowns := by
    rintro ms₁ m ms₂ u v c rfl hu hv hf hc
    exact shutdown_of_step hu hv hf hc
  devices := (ordered_of_run h).sorted

/-- A read is under way when a second device comes. The first fails it while it drains, and
    the second serves it. -/
def servedLate : List Move :=
  [.add 0, .control, .call 7 (.read 64), .pollReader, .add 1, .control, .pollWriter, .joinWriter,
    .readReturned (.failure (.deviceClosed "tun0")), .joinReader, .pollReader,
    .readReturned (.value [1, 2, 3])]

def lateServed : State where
  defaultMtu := 1280
  slots :=
    [{ id := ⟨1⟩, device := 0, phase := .draining, reading := .done, writing := .done,
        closing := true },
      { id := ⟨2⟩, device := 1, reading := .running, writing := .running }]
  reads := { capacity := 64 }
  writes := { capacity := 64 }
  events := { capacity := 64 }
  holdsReads := false
  holdsWrites := false
  reader := some ⟨⟨2⟩, 1, .ready none⟩
  writer := some ⟨⟨2⟩, 1, .starting⟩
  closers := [{ id := ⟨1⟩, device := 0 }]
  added := 2
  calls := [{ caller := 7, answer := some (.packet [1, 2, 3]) }]

theorem handover_lateServed : Run (.init {}) servedLate lateServed ∧
    lateServed.answer? 7 = some (.packet [1, 2, 3]) ∧
    ReadsHandedOver (.init {}) servedLate lateServed := by
  have hrun : Run (.init {}) servedLate lateServed := .of_foldlM rfl
  exact ⟨hrun, rfl, handover_of_run hrun⟩

end

end SeamlessTunnel.Multiplexer.State
