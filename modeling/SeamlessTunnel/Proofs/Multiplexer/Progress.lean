import SeamlessTunnel.Proofs.Multiplexer.Closes
import SeamlessTunnel.Proofs.Multiplexer.Failures
import SeamlessTunnel.Proofs.Multiplexer.Queues
/-
  SeamlessTunnel.Proofs.Multiplexer.Progress — the multiplexer does not get stuck.

  Where no task can make a move (`Stalled`) and devices owe nothing but packets and events
  (`Listening`), all is done that can be done (`resting_of_stalled`): no device but an
  active one is left, and requests wait only for a device to come, for the read under way,
  or because reads of the device were given up.
-/

namespace SeamlessTunnel.Multiplexer

/-- Whether a move is one of the multiplexer's own tasks. -/
def Move.isTask : Move → Bool
  | .control | .joinReader | .joinWriter | .joinCloser _ => true
  | .pollReader | .pollWriter | .pollForwarder => true
  | _ => false

/-- Whether a message waits: inside, or before it while nobody is on the way in. -/
def Mailbox.Waits {α : Type} (m : Mailbox α) : Prop :=
  m.items ≠ [] ∨ m.blocked ≠ [] ∧ m.admitted = []

theorem Mailbox.receive_eq_none {α : Type} {m : Mailbox α} : m.receive = none ↔ m.items = [] := by
  unfold receive
  split <;> simp_all

/-- A queue that wastes no room keeps nobody waiting while it is empty. -/
theorem Mailbox.Waits.items {α : Type} {m : Mailbox α} (h : m.Waits) (ht : m.Tight)
    (hc : 0 < m.capacity) : m.items ≠ [] := by
  rcases h with h | ⟨hb, ha⟩
  · exact h
  · have hfull := ht hb
    rw [ha] at hfull
    intro hn
    rw [hn] at hfull
    exact Nat.not_lt.2 hfull hc

namespace State

/-- No task of the multiplexer can make a move. -/
def Stalled (s : State) : Prop :=
  ∀ m : Move, m.isTask = true → s.step m = none

/-- Devices owe nothing but packets and events, and those that do are not being closed. -/
def Listening (s : State) : Prop :=
  ∀ o ∈ s.outstanding, ∃ k ∈ s.slots, k.closing = false ∧
    (o.call = .read k.id ∨ o.call = .nextEvent k.id)

/-- Read requests that have entered the queue and are not with a device. -/
def unissuedReads (s : State) : List ReadRequest :=
  (match s.reader with
    | some ⟨_, _, .ready carry⟩ | some ⟨_, _, .stopped (.drained carry)⟩ => carry.toList
    | _ => []) ++ s.parked.toList ++ s.reads.items

/-- Where all is done that can be done. -/
structure Resting (s₀ : State) (ms : List Move) (s : State) : Prop where
  serving : s.coordinator = .serving
  devices : s.slots = [] ∨ ∃ d, s.slots = [d] ∧ d.phase = .active
  /-- All devices that were handed in, but the one that is left, have been closed. -/
  closed : ∀ id : DeviceId, 0 < id.number → id.number ≤ s.added →
    (∀ k ∈ s.slots, k.id ≠ id) → Reported ms id
  writes : s.writes.Waits → s.slots = []
  reads : s.unissuedReads ≠ [] ∨ s.reads.Waits → s.slots = [] ∨ ∃ d, s.slots = [d] ∧
    ((∃ o ∈ s.outstanding, o.call = .read d.id) ∨ (d.reading = .done ∧ Surfaced s₀ ms d.id))

section

variable {s₀ s : State} {ms : List Move}

/-! ## What tasks wait for -/

theorem Stalled.reader (h : s.Stalled) (ho : s.isOver = false) {pump : ReadPump}
    (hp : s.reader = some pump) :
    (∃ r, pump.stage = .reading r) ∨
    (pump.stage = .ready none ∧ s.isClosed pump.id = false ∧ s.reads.items = []) := by
  have hpoll : s.pollReader = none := h .pollReader rfl
  have hjoin : s.joinReader = none := h .joinReader rfl
  obtain ⟨id, device, stage⟩ := pump
  cases stage with
  | reading r => exact .inl ⟨r, rfl⟩
  | stopped exit => simp [joinReader, ho, hp] at hjoin
  | crashed => simp [joinReader, ho, hp] at hjoin
  | ready carry =>
    cases carry with
    | some r => simp [State.pollReader, hp] at hpoll
    | none =>
      simp only [State.pollReader, hp, Option.bind_eq_bind, Option.bind_some, ho,
        Bool.false_or] at hpoll
      split at hpoll
      · cases hpoll
      · rename_i hc
        split at hpoll
        · cases hpoll
        · rename_i hr
          exact .inr ⟨rfl, by simpa using hc, Mailbox.receive_eq_none.1 hr⟩

theorem Stalled.writer (h : s.Stalled) (ho : s.isOver = false) {pump : WritePump}
    (hp : s.writer = some pump) :
    (∃ r, pump.stage = .writing r) ∨
    (pump.stage = .ready ∧ s.isDraining pump.id = false ∧ s.writes.items = []) := by
  have hpoll : s.pollWriter = none := h .pollWriter rfl
  have hjoin : s.joinWriter = none := h .joinWriter rfl
  obtain ⟨id, device, stage⟩ := pump
  cases stage with
  | writing r => exact .inl ⟨r, rfl⟩
  | stopped exit => simp [joinWriter, ho, hp] at hjoin
  | crashed => simp [joinWriter, ho, hp] at hjoin
  | starting =>
    simp only [State.pollWriter, hp, Option.bind_eq_bind, Option.bind_some] at hpoll
    split at hpoll <;> cases hpoll
  | ready =>
    simp only [State.pollWriter, hp, Option.bind_eq_bind, Option.bind_some, ho,
      Bool.false_or] at hpoll
    split at hpoll
    · cases hpoll
    · rename_i hc
      split at hpoll
      · cases hpoll
      · rename_i hr
        exact .inr ⟨rfl, by simpa using hc, Mailbox.receive_eq_none.1 hr⟩

/-- With the calls on devices that are left, all closes have returned and been reported. -/
theorem Stalled.closers (h : s.Stalled) (ho : s.isOver = false) (hw : s.Listening) :
    s.closers = [] := by
  have hreturned : ∀ k ∈ s.closers, k.result ≠ none := fun k hk hn => by
    have hmem : (⟨.close k.id, k.device, .close⟩ : Outstanding) ∈ s.outstanding := by
      simp only [outstanding, List.mem_append, List.mem_map, List.mem_filter]
      exact .inl (.inl (.inr ⟨k, ⟨hk, by simp [hn]⟩, rfl⟩))
    obtain ⟨_, -, -, he | he⟩ := hw _ hmem
    · cases he
    · cases he
  by_contra hne
  obtain ⟨k, hk⟩ := List.exists_mem_of_ne_nil _ hne
  have hjoin : s.joinCloser k.id = none := h (.joinCloser k.id) rfl
  cases hf : s.closers.find? fun c => decide (c.id = k.id) with
  | none => simpa using List.find?_eq_none.1 hf k hk
  | some c =>
    obtain ⟨out, hout⟩ := Option.ne_none_iff_exists'.1 (hreturned c (List.mem_of_find?_eq_some hf))
    cases out <;> simp [joinCloser, ho, hf, hout] at hjoin

/-- The write pump is at rest. -/
theorem Stalled.writer_ready (h : s.Stalled) (ho : s.isOver = false) (hw : s.Listening)
    {pump : WritePump} (hp : s.writer = some pump) :
    s.isDraining pump.id = false ∧ s.writes.items = [] := by
  rcases h.writer ho hp with ⟨r, hr⟩ | ⟨-, hready⟩
  · obtain ⟨id, device, stage⟩ := pump
    obtain rfl : stage = .writing r := hr
    have hmem : (⟨.write id, device, .write r.packet⟩ : Outstanding) ∈ s.outstanding := by
      simp [outstanding, hp]
    obtain ⟨_, -, -, he | he⟩ := hw _ hmem
    · cases he
    · cases he
  · exact hready

/-- The read pump is at rest or reads a device that is not being closed. -/
theorem Stalled.reader_ready (h : s.Stalled) (ho : s.isOver = false) (hw : s.Listening)
    {pump : ReadPump} (hp : s.reader = some pump) :
    ((∃ o ∈ s.outstanding, o.call = .read pump.id) ∧
      ∃ k ∈ s.slots, k.id = pump.id ∧ k.closing = false) ∨
    (pump.stage = .ready none ∧ s.isClosed pump.id = false ∧ s.reads.items = []) := by
  rcases h.reader ho hp with ⟨r, hr⟩ | hready
  · obtain ⟨id, device, stage⟩ := pump
    obtain rfl : stage = .reading r := hr
    have hmem : (⟨.read id, device, .read r.size⟩ : Outstanding) ∈ s.outstanding := by
      simp [outstanding, hp]
    obtain ⟨k, hk, hc, he | he⟩ := hw _ hmem
    · exact .inl ⟨⟨_, hmem, rfl⟩, k, hk, (DeviceCall.read.inj he).symm, hc⟩
    · cases he
  · exact .inr hready

/-! ## What is left -/

/-- A device that is no longer active would still be on its way out. -/
theorem Stalled.all_active (h : s.Stalled) (ho : s.isOver = false) (hl : s.hasHandle = true)
    (hw : s.Listening) (ht : Tended s) : ∀ k ∈ s.slots, k.phase = .active := by
  intro k hk
  by_contra hp
  have hagrees := ht.coherent.agrees k hk
  have hslot := ht.coherent.slot?_eq_some hk
  have hwriting : k.writing ≠ .running := fun hrun => by
    obtain ⟨pump, hpump, hid⟩ := Option.map_eq_some_iff.1 (hagrees.writing.1 hrun)
    have hd := (h.writer_ready ho hw hpump).1
    simp [hid, isDraining, hslot, hp] at hd
  have hclosing : k.closing = true := by
    rcases (ht.closes k hk).1 hp with hc | hrun | hdead
    · exact hc
    · exact absurd hrun hwriting
    · rw [hl] at hdead
      cases hdead
  have hclosed : k.phase = .closed := by
    by_contra hopen
    have hmem := hagrees.closers.2 ⟨hclosing, hopen⟩
    rw [closerIds, h.closers ho hw] at hmem
    cases hmem
  have hreading : k.reading ≠ .running := fun hrun => by
    obtain ⟨pump, hpump, hid⟩ := Option.map_eq_some_iff.1 (hagrees.reading.1 hrun)
    rcases h.reader_ready ho hw hpump with ⟨-, l, hl, he, hc⟩ | ⟨-, hc, -⟩
    · obtain rfl := ht.coherent.eq_of_id hl hk (he.trans hid)
      rw [hclosing] at hc
      cases hc
    · simp [hid, isClosed, hslot, hclosed] at hc
  have hretired := ht.retired k hk
  simp [Slot.isRetired, hclosed, hreading, hwriting] at hretired

/-- At most one device is active. -/
theorem Coherent.slots_of_active (h : Coherent s) (ha : ∀ k ∈ s.slots, k.phase = .active) :
    s.slots = [] ∨ ∃ d, s.slots = [d] ∧ d.phase = .active := by
  have hnew := h.newest
  match hs : s.slots with
  | [] => exact .inl rfl
  | [d] => exact .inr ⟨d, rfl, ha d (by simp [hs])⟩
  | d :: d' :: rest =>
    rw [hs] at hnew
    exact absurd (ha d (by simp [hs])) ((List.pairwise_cons.1 hnew).1 d' (by simp))

/-- A request waits only until there is a device to write. -/
theorem Stalled.writes (h : s.Stalled) (ho : s.isOver = false) (hl : s.hasHandle = true)
    (hw : s.Listening) (ht : Tended s) {d : Slot} (hd : d ∈ s.slots) (ha : d.phase = .active) :
    s.writes.items = [] := by
  cases hwriter : s.writer with
  | some pump => exact (h.writer_ready ho hw hwriter).2
  | none =>
    have hagrees := ht.coherent.agrees d hd
    exfalso
    cases hwriting : d.writing with
    | idle => exact ht.writes.idle hwriter d hd ha hwriting
    | running => simpa [writtenId, hwriter] using hagrees.writing.1 hwriting
    | done =>
      have hdead := (ht.closes d hd).2 ha hwriting
      rw [hl] at hdead
      cases hdead

/-- A request waits only until there is a device to read, or for the read before it, or
    because reads of the device were given up. -/
theorem Stalled.reads (h : s.Stalled) (ho : s.isOver = false) (hl : s.hasHandle = true)
    (hw : s.Listening) (ht : Tended s) {d : Slot} (hd : s.slots = [d]) (ha : d.phase = .active)
    (hwait : s.unissuedReads ≠ [] ∨ s.reads.items ≠ []) :
    (∃ o ∈ s.outstanding, o.call = .read d.id) ∨ d.reading = .done := by
  have hmem : d ∈ s.slots := by simp [hd]
  cases hreader : s.reader with
  | none =>
    cases hreading : d.reading with
    | idle => exact absurd ⟨by simp [ha], hreading⟩ (ht.reads.idle hreader hl d hmem)
    | running =>
      have hread := (ht.coherent.agrees d hmem).reading.1 hreading
      simp [readId, hreader] at hread
    | done => exact .inr rfl
  | some pump =>
    rcases h.reader_ready ho hw hreader with ⟨hread, k, hk, he, -⟩ | ⟨hstage, -, hitems⟩
    · rw [hd, List.mem_singleton] at hk
      rw [← he, hk] at hread
      exact .inl hread
    · obtain ⟨id, device, stage⟩ := pump
      obtain rfl : stage = .ready none := hstage
      have hnone : s.unissuedReads = [] := by
        simp [unissuedReads, hreader, ht.reads.parked_eq_none hreader, hitems]
      exact absurd hitems (hwait.resolve_left fun hn => hn hnone)

theorem start_eq {settings : MultiplexerSettings} (h : start settings = .ok s₀) :
    s₀ = .init settings ∧ 0 < settings.queueDepth.toNat := by
  unfold start at h
  split at h
  · cases h
  · split at h
    · rename_i hfits
      simp only [MultiplexerSettings.fits, Bool.and_eq_true, decide_eq_true_eq] at hfits
      exact ⟨(Except.ok.inj h).symm, hfits.1⟩
    · cases h

/-- A teardown goes on only while there is something to wait for. -/
theorem Stalled.serving (h : s.Stalled) (ho : s.isOver = false) (hl : s.hasHandle = true)
    (hw : s.Listening) (hsettled : Settled s) : s.coordinator = .serving := by
  have hactive := h.all_active ho hl hw hsettled.tended
  cases hc : s.coordinator with
  | serving => rfl
  | tearingDown cause =>
    obtain ⟨k, hk⟩ := List.exists_mem_of_ne_nil _ (hsettled.listed cause hc)
    exact absurd (List.mem_map.2 ⟨k, hk, hactive k hk⟩) (hsettled.tended.tearing cause hc)
  | ended => simp [isOver, hc] at ho
  | crashed => simp [isOver, hc] at ho

theorem Stalled.control_eq_nil (h : s.Stalled) (hc : s.coordinator = .serving) :
    s.control = [] := by
  have hnone : s.takeControl = none := h .control rfl
  unfold takeControl at hnone
  rw [hc] at hnone
  cases hm : s.control with
  | nil => rfl
  | cons m rest => simp [hm] at hnone

/-- Where someone holds the multiplexer, nobody has closed it, no task can make a move and
    devices owe nothing but packets and events, all is done that can be done. -/
theorem resting_of_stalled {settings : MultiplexerSettings} (hstart : start settings = .ok s₀)
    (hrun : Run s₀ ms s) (hl : s.hasHandle = true) (ho : s.isOver = false) (h : s.Stalled)
    (hw : s.Listening) : Resting s₀ ms s := by
  obtain ⟨rfl, hdepth⟩ := start_eq hstart
  have hsettled := settled_of_run hrun ho
  have ht := hsettled.tended
  have hqueues := queues_of_run hrun
  have hactive := h.all_active ho hl hw ht
  have hdevices := ht.coherent.slots_of_active hactive
  have hserving := h.serving ho hl hw hsettled
  refine ⟨hserving, hdevices, ?_, ?_, ?_⟩
  · intro id hp hle hgone
    have hcontrol := h.control_eq_nil hserving
    rcases (known_of_run hrun ho).devices id hp hle with hc | ⟨hc | ⟨k, hk, he, -⟩⟩ | hr
    · simp [Coming, hcontrol] at hc
    · simp [closerIds, h.closers ho hw] at hc
    · exact absurd he (hgone k hk)
    · exact hr
  · intro hwait
    refine hdevices.resolve_right ?_
    rintro ⟨d, hd, ha⟩
    have hcapacity : 0 < s.writes.capacity := by rwa [hqueues.writes.capacity]
    exact hwait.items (hqueues.writes.tight (fun hb => absurd rfl hb)) hcapacity
      (h.writes ho hl hw ht (by simp [hd]) ha)
  · intro hwait
    refine hdevices.imp_right ?_
    rintro ⟨d, hd, ha⟩
    have hcapacity : 0 < s.reads.capacity := by rwa [hqueues.reads.capacity]
    have hmem : d ∈ s.slots := by simp [hd]
    refine ⟨d, hd, (h.reads ho hl hw ht hd ha (hwait.imp_right ?_)).imp_right
      fun hdone => ⟨hdone, (failures_of_run hrun ho).done hl d hmem hdone ha⟩⟩
    intro hq
    exact hq.items (hqueues.reads.tight (fun hb => absurd rfl hb)) hcapacity

/-- Two devices come, the first is closed, and the second is read. -/
def handover : List Move :=
  [.add 0, .add 1, .control, .control, .pollWriter, .joinWriter, .pollWriter,
    .closeReturned ⟨1⟩ (.value ()), .joinCloser ⟨1⟩, .pollReader, .joinReader,
    .call 7 (.read 64), .call 8 (.read 64), .pollReader]

def handedOver : State where
  defaultMtu := 1280
  slots := [{ id := ⟨2⟩, device := 1, reading := .running, writing := .running }]
  reads := { capacity := 64, items := [⟨8, 64⟩] }
  writes := { capacity := 64 }
  events := { capacity := 64 }
  holdsReads := false
  holdsWrites := false
  reader := some ⟨⟨2⟩, 1, .reading ⟨7, 64⟩⟩
  writer := some ⟨⟨2⟩, 1, .ready⟩
  forwarder := some { id := ⟨2⟩, device := 1 }
  added := 2
  calls := [{ caller := 7 }, { caller := 8 }]

/-- The second read waits for the first, and the first device has been closed. -/
theorem resting_handedOver : Run (.init {}) handover handedOver ∧ handedOver.Stalled ∧
    handedOver.Listening ∧ handedOver.unissuedReads = [⟨8, 64⟩] ∧
    Resting (.init {}) handover handedOver := by
  have hrun : Run (.init {}) handover handedOver := .of_foldlM rfl
  have hstalled : handedOver.Stalled := fun m hm => by
    cases m <;> first | rfl | cases hm
  have hlistening : handedOver.Listening := fun o ho => by
    refine ⟨_, List.mem_singleton_self _, rfl, ?_⟩
    rcases List.mem_cons.1 ho with rfl | ho
    · exact .inl rfl
    · rw [List.mem_singleton.1 ho]
      exact .inr rfl
  exact ⟨hrun, hstalled, hlistening, rfl,
    resting_of_stalled (show start {} = .ok _ from rfl) hrun rfl rfl hstalled hlistening⟩

end

end State

end SeamlessTunnel.Multiplexer
