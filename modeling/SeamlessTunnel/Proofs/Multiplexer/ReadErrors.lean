import SeamlessTunnel.Proofs.Multiplexer.Dismissal
import SeamlessTunnel.Proofs.Multiplexer.Handover
import SeamlessTunnel.Proofs.Multiplexer.Telling
/-
  SeamlessTunnel.Proofs.Multiplexer.ReadErrors — which read errors callers are told.

  The error of a device that is active goes to the caller of the read that failed and to
  nobody else. The error of one that is not is told nobody: its request is the next to be
  served, by the oldest device that is left, or is parked until a teardown ends with an
  empty packet for it (`Resumption`). Reads end so in no other case (`readErrors_of_run`).

  Only a crash takes such a request away: then it is refused like all others
  (`kept_read_refused`).
-/

namespace SeamlessTunnel.Multiplexer.State

/-- Whether a request was handed to a device, the oldest that was left when the coordinator
    took the queue back. -/
def Chosen (s₀ : State) (ms : List Move) (id : DeviceId) : Prop :=
  ∃ ms₁ ms₂ u k, ms = ms₁ ++ .joinReader :: ms₂ ∧ Run s₀ ms₁ u ∧ u.FirstUnread k ∧ k.id = id

/-- What becomes of a request that waits for a device at the start of a run. -/
inductive Resumption (s₀ : State) (ms : List Move) (s : State) (r : ReadRequest) : Prop
  /-- It still waits, parked only where no device is left, and nothing was read meanwhile. -/
  | stranded (hn : s₀.log issuedReads ms = []) (h : s.Stranded r)
      (hp : s.parked = some r → ∀ k ∈ s.slots, ¬ Unread k)
  | handed {id : DeviceId} (hn : s₀.log issuedReads ms = []) (hc : Chosen s₀ ms id)
      (h : s.Handed id r)
  /-- It was the next to be served. -/
  | issued {ms₁ ms₂ : List Move} {u v : State} {id : DeviceId}
      (hms : ms = ms₁ ++ .pollReader :: ms₂) (hu : Run s₀ ms₁ u) (hv : u.step .pollReader = some v)
      (hn : s₀.log issuedReads ms₁ = []) (hc : Chosen s₀ ms₁ id) (hf : v.inFlight = some (id, r))
  | unserved {ms₁ ms₂ : List Move} {m : Move} {u v : State} (hms : ms = ms₁ ++ m :: ms₂)
      (hu : Run s₀ ms₁ u) (hv : u.step m = some v) (hn : s₀.log issuedReads ms₁ = [])
      (h : Unserved u v r)

/-- The failure of a read is told its caller, unless that has given up, and nobody else. -/
structure FailureTold (s t : State) (r : ReadRequest) (e : TunnelError) : Prop where
  caller : t.answer? r.caller = some (.failed e) ∨ r.caller ∈ s.gone
  /-- Once the coordinator has crashed, the end of the pump closes its queue. -/
  others : ∀ c, c ≠ r.caller → t.answer? c = s.answer? c ∨
    s.coordinator = .crashed ∧ t.answer? c = some (.failed .closed)

/-- The failure of a read is told nobody, and its request is served elsewhere. -/
structure FailureKept (s t : State) (ms : List Move) (u : State) (r : ReadRequest) : Prop where
  /-- It makes no difference which error it is. -/
  traceless : ∀ e, s.step (.readReturned (.failure e)) = some t
  silent : s.isOver = false → t.calls = s.calls
  resumes : s.isOver = false → Resumption t ms u r
  refused : s.isOver = true → s.coordinator = .crashed ∧
    (t.answer? r.caller = some (.failed .closed) ∨ r.caller ∈ s.gone)

/-- What becomes of the errors of device reads in a run. -/
structure ReadErrors (s₀ : State) (ms : List Move) (s : State) : Prop where
  /-- It depends on the device whether its error is told. -/
  failures : ∀ ms₁ e ms₂, ms = ms₁ ++ .readReturned (.failure e) :: ms₂ →
    ∃ u v k r, Run s₀ ms₁ u ∧ u.step (.readReturned (.failure e)) = some v ∧ Run v ms₂ s ∧
      u.slot? k.id = some k ∧ u.inFlight = some (k.id, r) ∧
      (k.phase = .active → FailureTold u v r e) ∧
      (k.phase ≠ .active → FailureKept u v ms₂ s r)
  /-- The caller of a read is told no other error than that of its own read, on an active
      device, and that the multiplexer is closed. -/
  errors : ∀ ms₁ m ms₂ u v, ms = ms₁ ++ m :: ms₂ → Run s₀ ms₁ u → u.step m = some v →
    ∀ c ∈ u.readers, ∀ e, v.answer? c = some (.failed e) →
      (∃ id r, m = .readReturned (.failure e) ∧ u.inFlight = some (id, r) ∧ r.caller = c ∧
        u.isDraining id = false) ∨
      e = .closed ∧ (v.isOver = true ∨ m = .readReturned .crash)
  /-- A read ends with an empty packet only if its device has returned one, or if no device
      was left for it when a teardown ended. -/
  empties : ∀ ms₁ m ms₂ u v, ms = ms₁ ++ m :: ms₂ → Run s₀ ms₁ u → u.step m = some v →
    ∀ c ∈ u.readers, v.answer? c = some (.packet []) →
      (∃ id r, m = .readReturned (.value []) ∧ u.inFlight = some (id, r) ∧ r.caller = c) ∨
      ∃ r cause, r.caller = c ∧ Suppressed s₀ ms₁ r ∧ u.coordinator = .tearingDown cause ∧
        cause ≠ .released ∧ v.coordinator = cause.outcome ∧ v.slots = []

section

variable {s₀ s t u v : State} {m : Move} {id : DeviceId} {r : ReadRequest} {ms ms₁ ms₂ : List Move}
variable {settings : MultiplexerSettings}

/-! ## Requests that wait for a device -/

theorem Chosen.append {ns : List Move} (h : Chosen s₀ ms id) : Chosen s₀ (ms ++ ns) id := by
  obtain ⟨ms₁, ms₂, u, k, rfl, hrest⟩ := h
  exact ⟨ms₁, ms₂ ++ ns, u, k, by simp, hrest⟩

/-- A request is parked only while no device is left for it. -/
theorem Stranded.not_unread (h : s.Stranded r) (hrun : Run (.init settings) ms s)
    (hp : s.parked = some r) : ∀ k ∈ s.slots, ¬ Unread k := by
  cases h with
  | stopped hr =>
    rw [parked_of_run hrun (by simp [hr])] at hp
    cases hp
  | parked _ hc =>
    have ho : s.isOver = false := by simp [isOver, hc]
    exact ((settled_of_run hrun ho).tended.reads.parked (by simp [hp])).2

/-- A request that waits for a device is the next to be served, or ends without. -/
theorem resumption_of_run (hrun : Run (.init settings) ms₁ v) (hr : v.Stranded r)
    (h : Run v ms s) : Resumption v ms s r := by
  refine h.snocRec (p := fun ms s => Resumption v ms s r) (.stranded rfl hr (hr.not_unread hrun)) ?_
  intro ms s m t hs ih hm
  have hbefore := hrun.append hs
  have hafter := hbefore.snoc hm
  have hlog : v.log issuedReads ms = [] → t.inFlight = none →
      v.log issuedReads (ms ++ [m]) = [] := fun hn hf => by
    rw [hs.log_snoc hm, hn, issuedReads_eq_nil hf]
    rfl
  cases ih with
  | stranded hn h =>
    rcases h.step hbefore hm with ht | ⟨rfl, k, hk, ht⟩ | ⟨-, hu⟩
    · exact .stranded (hlog hn (ht.keeps (parked_of_run hafter)).2) ht (ht.not_unread hafter)
    · have hchosen : Chosen v (ms ++ [.joinReader]) k.id := ⟨ms, [], s, k, rfl, hs, hk, rfl⟩
      exact .handed (hlog hn (ht.keeps (parked_of_run hafter)).2) hchosen ht
    · exact .unserved rfl hs hm hn hu
  | handed hn hc h =>
    rcases h.step hbefore hm with ht | ⟨rfl, hf | ⟨-, hu⟩⟩
    · exact .handed (hlog hn (ht.keeps (parked_of_run hafter)).2) hc.append ht
    · exact .issued rfl hs hm hn hc hf
    · exact .unserved rfl hs hm hn hu
  | issued hms hu hv hn hc hf =>
    subst hms
    exact .issued (List.append_assoc ..) hu hv hn hc hf
  | unserved hms hu hv hn h =>
    subst hms
    exact .unserved (List.append_assoc ..) hu hv hn h

/-! ## Failures -/

/-- The device that is read is listed. -/
theorem slot?_of_reader (hrun : Run (.init settings) ms s) {pump : ReadPump}
    (hp : s.reader = some pump) : ∃ k, s.slot? k.id = some k ∧ k.id = pump.id := by
  obtain ⟨l, hl, he⟩ := (pumpsListed_of_run hrun).reader pump.id (readId_of_reader hp)
  cases hf : s.slot? pump.id with
  | none => exact absurd (by simpa using he) (List.find?_eq_none.1 hf l hl)
  | some k =>
    have hk := (mem_of_slot? hf).2
    exact ⟨k, by rw [hk, hf], hk⟩

/-- A device is still read only by a coordinator that works or has crashed. -/
theorem crashed_of_reader (hrun : Run (.init settings) ms s) {pump : ReadPump}
    (hp : s.reader = some pump) (ho : s.isOver = true) : s.coordinator = .crashed := by
  cases hc : s.coordinator with
  | crashed => rfl
  | ended =>
    obtain ⟨k, hk, -⟩ := (pumpsListed_of_run hrun).reader pump.id (readId_of_reader hp)
    rw [slots_of_ended hrun hc] at hk
    cases hk
  | serving => simp [isOver, hc] at ho
  | tearingDown cause => simp [isOver, hc] at ho

theorem isDraining_of_slot? {k : Slot} (h : s.slot? k.id = some k) :
    s.isDraining k.id = true ↔ k.phase ≠ .active := by
  simp [isDraining, h]

/-- The error of an active device goes to the caller of the read that failed. -/
theorem failureTold_of_step (hrun : Run (.init settings) ms u) {pump : ReadPump}
    (hp : u.reader = some pump) (hstage : pump.stage = .reading r) {e : TunnelError} :
    FailureTold u ((u.answer r.caller (.failed e)).stopReader pump .failed) r e := by
  have hacc := accounted_of_run hrun
  have hmem : r ∈ u.pendingReads := by
    rw [pendingReads, carried, inRead_of_reader hp, hstage]
    exact List.mem_cons_self
  refine ⟨(hacc.awaits_pending hmem).imp_left fun hw =>
    answer?_stopReader (answer?_answer_self hacc.callers hw), ?_⟩
  intro c hc
  cases ho : u.isOver with
  | false =>
    refine .inl ?_
    rw [stopReader, show (u.answer r.caller (.failed e)).isOver = false from ho]
    exact answer?_answer_of_ne hc
  | true =>
    have htells : Tells (fun d a => d ≠ r.caller → a = .failed .closed) u
        ((u.answer r.caller (.failed e)).stopReader pump .failed) :=
      (Tells.answer fun hd => absurd rfl hd).trans (.stopReader fun _ _ _ => rfl)
    cases ha : u.answer? c with
    | some a =>
      exact .inl (answer?_stopReader (answer?_answer_of_some ha))
    | none =>
      cases hb : ((u.answer r.caller (.failed e)).stopReader pump .failed).answer? c with
      | none => exact .inl rfl
      | some b =>
        rcases htells c b hb with hb' | hb'
        · rw [ha] at hb'
          cases hb'
        · exact .inr ⟨crashed_of_reader hrun hp ho, by rw [hb' hc]⟩

/-- The error of a device that drains is told nobody. -/
theorem failureKept_of_step (hrun : Run (.init settings) ms₁ u) {pump : ReadPump}
    (hp : u.reader = some pump) (hstage : pump.stage = .reading r)
    (hd : u.isDraining pump.id = true) {e : TunnelError}
    (hstep : u.step (.readReturned (.failure e)) = some (u.stopReader pump (.drained (some r))))
    (h : Run (u.stopReader pump (.drained (some r))) ms s) :
    FailureKept u (u.stopReader pump (.drained (some r))) ms s r := by
  have hacc := accounted_of_run hrun
  have hparked := parked_of_run hrun (by simp [hp])
  have hin : u.inRead = some r := by
    rw [inRead_of_reader hp, hstage]
    rfl
  have hcarried : u.carried = [r] := by
    rw [carried, hin, hparked]
    rfl
  refine ⟨?_, ?_, ?_, ?_⟩
  · intro e'
    simp [State.step, State.readReturned, hp, hstage, hd]
  · intro ho
    simp [stopReader, ho]
  · intro ho
    exact resumption_of_run (hrun.snoc hstep) (.stopped (reader_stopReader ho) rfl) h
  · intro ho
    refine ⟨crashed_of_reader hrun hp ho, ?_⟩
    have hmem : r ∈ u.pendingReads := by
      rw [pendingReads, hcarried]
      exact List.mem_cons_self
    refine (hacc.awaits_pending hmem).imp_left fun hw => ?_
    have hserves : Serves (fun _ a => a = .failed .closed) u
        (u.stopReader pump (.drained (some r))) := .stopReader hacc hparked hin fun _ _ => rfl
    obtain ⟨a, ha, rfl⟩ := hserves.kept hcarried (by rw [carried_stopReader hparked, ho]; rfl) hw
    exact ha

theorem failures_classified {e : TunnelError}
    (h : Run (.init settings) (ms₁ ++ .readReturned (.failure e) :: ms₂) s) :
    ∃ u v k r, Run (.init settings) ms₁ u ∧ u.step (.readReturned (.failure e)) = some v ∧
      Run v ms₂ s ∧ u.slot? k.id = some k ∧ u.inFlight = some (k.id, r) ∧
      (k.phase = .active → FailureTold u v r e) ∧
      (k.phase ≠ .active → FailureKept u v ms₂ s r) := by
  obtain ⟨u, v, hu, hv, hs⟩ := h.split
  have hreturned : u.readReturned (.failure e) = some v := hv
  obtain ⟨pump, r, hp, hstage, hcases⟩ := readReturned_cases hreturned
  obtain ⟨k, hk, hid⟩ := slot?_of_reader hu hp
  have hdrains := isDraining_of_slot? hk
  have hflight : u.inFlight = some (k.id, r) := by
    rw [inFlight_of_reader hp, hstage, hid]
    rfl
  refine ⟨u, v, k, r, hu, hv, hs, hk, hflight, ?_⟩
  rw [hid] at hdrains
  rcases hcases with ⟨_, he, -⟩ | ⟨_, -, hd, rfl⟩ | ⟨e', he, hd, rfl⟩ | ⟨he, -⟩
  · cases he
  · exact ⟨fun ha => absurd ha (hdrains.1 hd), fun _ => failureKept_of_step hu hp hstage hd hv hs⟩
  · obtain rfl := Outcome.failure.inj he
    refine ⟨fun _ => failureTold_of_step hu hp hstage, fun ha => ?_⟩
    rw [hdrains.2 ha] at hd
    cases hd
  · cases he

/-! ## Answers -/

/-- The caller of a read that something is kept for was not answered. -/
theorem Accounted.not_answered_reader (h : Accounted s) {c : Caller} (hc : c ∈ s.readers) :
    s.answer? c = none := by
  have hplace : c ∈ s.places :=
    List.mem_append_left _ (List.mem_append_left _ (List.mem_append_left _ hc))
  rcases h.placed c hplace with hw | hg
  · exact answer?_eq_none_of_awaits h.callers hw
  · exact answer?_eq_none_of_not_mem (h.gone _ hg)

theorem told_of_run (h : Run (.init settings) ms u) (hm : u.step m = some v) {c : Caller}
    (hc : c ∈ u.readers) {a : Answer} (ha : v.answer? c = some a) : ReadTold u m v c a := by
  have hacc := accounted_of_run h
  rcases tells_of_step hacc (settled_of_run h) hm c a ha with ha' | ht
  · rw [hacc.not_answered_reader hc] at ha'
    cases ha'
  · exact ht hc

/-- Over any run, the errors of active devices are told, and those of others are not. -/
theorem readErrors_of_run (h : Run (.init settings) ms s) : ReadErrors (.init settings) ms s where
  failures := by
    rintro ms₁ e ms₂ rfl
    exact failures_classified h
  errors := by
    rintro ms₁ m ms₂ u v rfl hu hv c hc e ha
    cases told_of_run hu hv hc ha with
    | failure hm hf hc hd => exact .inl ⟨_, _, hm, hf, hc, hd⟩
    | closed ho => exact .inr ⟨rfl, ho⟩
  empties := by
    rintro ms₁ m ms₂ u v rfl hu hv c hc ha
    cases told_of_run hu hv hc ha with
    | packet hm hf hc => exact .inl ⟨_, _, hm, hf, hc⟩
    | empty hm hk he =>
      obtain ⟨hsuppressed, cause, hrest⟩ := emptied_of_work hu hm hv hk (by rw [he]; exact ha)
      exact .inr ⟨_, cause, he, hsuppressed, hrest⟩

/-- A shutdown is under way when the only device fails the read on it. No device is left to
    serve the read, and it ends empty with the teardown. -/
def emptying : List Move :=
  [.add 0, .control, .call 7 (.read 64), .pollReader, .call 8 .shutdown, .control, .pollWriter,
    .joinWriter, .readReturned (.failure (.readFailed "EIO")), .joinReader,
    .closeReturned ⟨1⟩ (.value ()), .joinCloser ⟨1⟩]

def emptied : State where
  defaultMtu := 1280
  reads := { capacity := 64 }
  writes := { capacity := 64 }
  events := { capacity := 64 }
  added := 1
  calls := [{ caller := 7, answer := some (.packet []) }, { caller := 8, answer := some .done }]

theorem readErrors_emptied : Run (.init {}) emptying emptied ∧
    emptied.answer? 7 = some (.packet []) ∧ ReadErrors (.init {}) emptying emptied := by
  have hrun : Run (.init {}) emptying emptied := .of_foldlM rfl
  exact ⟨hrun, rfl, readErrors_of_run hrun⟩

/-! ## A request that is refused -/

/-- A write on the second device crashes while the first one, which drains, is being read. -/
def crashing : List Move :=
  [.add 0, .control, .call 7 (.read 64), .pollReader, .add 1, .control, .pollWriter, .joinWriter,
    .pollWriter, .call 8 (.write [7]), .pollWriter, .writeReturned .crash, .joinWriter]

def crashed : State where
  defaultMtu := 1280
  slots :=
    [{ id := ⟨1⟩, device := 0, phase := .draining, reading := .running, writing := .done,
        closing := true },
      { id := ⟨2⟩, device := 1, writing := .running }]
  reads := { capacity := 64 }
  writes := { capacity := 64, isOpen := false }
  events := { capacity := 64 }
  holdsReads := false
  holdsWrites := false
  reader := some ⟨⟨1⟩, 0, .reading ⟨7, 64⟩⟩
  forwarder := some { id := ⟨2⟩, device := 1, asking := true }
  coordinator := .crashed
  added := 2
  calls := [{ caller := 7 }, { caller := 8, answer := some (.failed .closed) }]

/-- After a crash, the read that a draining device fails is refused, although there is a
    device that could serve it. -/
theorem kept_read_refused :
    ¬ ∀ ms e s t k r, Run (.init {}) ms s → s.step (.readReturned (.failure e)) = some t →
      k ∈ s.slots → k.phase ≠ .active → s.inFlight = some (k.id, r) → r.caller ∉ s.gone →
      (∃ l ∈ s.slots, Unread l) → t.answer? r.caller = none := by
  intro h
  have hrun : Run (.init {}) crashing crashed := .of_foldlM rfl
  have hanswer := h _ (.readFailed "EIO") _ _ _ ⟨7, 64⟩ hrun rfl (List.mem_cons_self ..)
    (by decide) rfl (by decide) ⟨_, List.mem_cons_of_mem _ (List.mem_cons_self ..), by decide, rfl⟩
  cases hanswer

end

end SeamlessTunnel.Multiplexer.State
