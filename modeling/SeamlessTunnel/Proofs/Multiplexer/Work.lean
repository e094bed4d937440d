import SeamlessTunnel.Proofs.Multiplexer.Requests
/-
  SeamlessTunnel.Proofs.Multiplexer.Work — what the coordinator's work never does.

  Apart from one act that sets each of its moves off, the coordinator forgets no device,
  ends no pump, starts pumps and closers only at their beginning, and no closer while a
  write pump runs (`Worked`). A move of the coordinator is that act and such work, after
  which a teardown may end, or a crash (`Settled.before`); one after which the
  coordinator still works is a deed as a whole (`Settled.deed`).
-/

namespace SeamlessTunnel.Multiplexer.State

/-- Whether the coordinator has a device of which it knows no end. -/
def Unclosed (s : State) (id : DeviceId) : Prop :=
  id ∈ s.closerIds ∨ ∃ k ∈ s.slots, k.id = id ∧ k.closing = false

/-- Whether no write pump runs on a device whose close was started. -/
def Apart (s : State) : Prop :=
  ∀ k ∈ s.slots, k.closing = true → k.writing ≠ .running

structure Worked (s t : State) : Prop where
  steady : Steady s t
  unclosed : ∀ id, s.Unclosed id → t.Unclosed id
  kept : s.closers ⊆ t.closers
  fresh : ∀ k ∈ t.closers, k ∈ s.closers ∨ k.result = none
  /-- A closer starts on a device whose close was not started. -/
  opened : ∀ k ∈ t.closers, k ∈ s.closers ∨
    ∃ l ∈ s.slots, l.id = k.id ∧ l.device = k.device ∧ l.closing = false
  single : s.closerIds.Nodup → t.closerIds.Nodup
  apart : s.Apart → t.Apart
  started : ∀ pump, t.reader = some pump → s.reader = some pump ∨
    (∃ carry, pump.stage = .ready carry) ∧ ∃ k ∈ s.slots, k.id = pump.id ∧ Unread k
  begun : ∀ pump, t.writer = some pump → s.writer = some pump ∨ pump.stage = .starting
  control : t.control = s.control
  added : t.added = s.added
  late : t.lateCloses = s.lateCloses
  live : t.hasHandle = s.hasHandle

section

variable {s t u : State} {id : DeviceId} {f : Slot → Slot}

/-! ## Acts -/

namespace Worked

theorem of_eq (hslots : t.slots = s.slots) (hclosers : t.closers = s.closers)
    (hreader : t.reader = s.reader) (hwriter : t.writer = s.writer) (hcontrol : t.control = s.control)
    (hadded : t.added = s.added) (hlate : t.lateCloses = s.lateCloses)
    (hlive : t.hasHandle = s.hasHandle) : Worked s t := by
  refine ⟨.of_slots hslots, ?_, fun k hk => hclosers ▸ hk, fun k hk => .inl (hclosers ▸ hk),
    fun k hk => .inl (hclosers ▸ hk), ?_, fun ha k hk => ha k (hslots ▸ hk), fun pump hp => .inl (hreader ▸ hp),
    fun pump hp => .inl (hwriter ▸ hp), hcontrol, hadded, hlate, hlive⟩
  · intro id h
    rwa [Unclosed, closerIds, hslots, hclosers]
  · rw [closerIds, closerIds, hclosers]
    exact fun hn => hn

theorem refl : Worked s s :=
  .of_eq rfl rfl rfl rfl rfl rfl rfl rfl

theorem trans (h : Worked s t) (h' : Worked t u) : Worked s u := by
  refine ⟨h.steady.trans h'.steady, fun id hu => h'.unclosed id (h.unclosed id hu),
    fun _ hk => h'.kept (h.kept hk), fun k hk => (h'.fresh k hk).elim (h.fresh k) .inr, ?_, fun hn => h'.single (h.single hn),
    fun ha => h'.apart (h.apart ha), ?_, fun pump hp =>
    (h'.begun pump hp).elim (h.begun pump) .inr, h'.control.trans h.control,
    h'.added.trans h.added, h'.late.trans h.late, h'.live.trans h.live⟩
  · intro k hk
    rcases h'.opened k hk with hk | ⟨l', hl', he, hd, hc⟩
    · exact h.opened k hk
    · obtain ⟨l, hl, hst⟩ := h.steady l' hl'
      refine .inr ⟨l, hl, hst.id.symm.trans he, hst.device.symm.trans hd, ?_⟩
      by_contra hn
      rw [hst.closing (by simpa using hn)] at hc
      cases hc
  · intro pump hp
    rcases h'.started pump hp with hp | ⟨hc, k', hk', he, hu⟩
    · exact h.started pump hp
    · obtain ⟨k, hk, hl⟩ := h.steady k' hk'
      exact .inr ⟨hc, k, hk, hl.id.symm.trans he, hl.of_unread hu⟩

theorem unclosed_update (hid : ∀ k, (f k).id = k.id) (hclosing : ∀ k, (f k).closing = k.closing)
    {id' : DeviceId} (hu : s.Unclosed id') : (s.updateSlot id f).Unclosed id' := by
  refine hu.imp_right ?_
  rintro ⟨k, hk, rfl, hc⟩
  by_cases he : k.id = id
  · exact ⟨f k, mem_updateSlot_self hk he, hid k, (hclosing k).trans hc⟩
  · exact ⟨k, mem_updateSlot_of_ne hk he, rfl, hc⟩

theorem apart_update (hf : ∀ k ∈ s.slots, k.id = id → (k.closing = true → k.writing ≠ .running) →
    (f k).closing = true → (f k).writing ≠ .running) (ha : s.Apart) : (s.updateSlot id f).Apart := by
  intro k' hk'
  obtain ⟨k, hk, ⟨he, rfl⟩ | ⟨-, rfl⟩⟩ := mem_updateSlot hk'
  · exact hf k hk he (ha k hk)
  · exact ha k' hk

theorem update (hf : ∀ k, Slot.Steady k (f k)) (hclosing : ∀ k, (f k).closing = k.closing)
    (hwriting : ∀ k, (f k).writing = k.writing) : Worked s (s.updateSlot id f) :=
  ⟨.update fun k _ _ => hf k, fun _ hu => unclosed_update (fun k => (hf k).id) hclosing hu,
    fun _ hk => hk, fun _ hk => .inl hk, fun _ hk => .inl hk, fun hn => hn,
    apart_update fun k _ _ ha => by rwa [hclosing, hwriting], fun _ hp => .inl hp,
    fun _ hp => .inl hp, rfl, rfl, rfl, rfl⟩

theorem prune (h : Coherent s) : Worked s s.prune := by
  refine ⟨.prune, fun id' hu => hu.imp_right ?_, fun k hk => hk, fun k hk => .inl hk, fun k hk => .inl hk,
    fun hn => hn, fun ha k hk => ha k (mem_prune.1 hk).1, fun _ hp => .inl hp,
    fun _ hp => .inl hp, rfl, rfl, rfl, rfl⟩
  rintro ⟨k, hk, rfl, hc⟩
  have hopen : k.phase ≠ .closed := fun hp => by
    rw [(h.agrees k hk).closes hp] at hc
    cases hc
  exact ⟨k, mem_prune.2 ⟨hk, by simp [Slot.isRetired, hopen]⟩, rfl, hc⟩

theorem startCloser (h : Coherent s) (hw : ∀ k ∈ s.slots, k.id = id → k.writing ≠ .running) :
    Worked s (s.startCloser id) := by
  obtain ⟨slots, closers, heq⟩ := startCloser_eq s id
  refine ⟨.startCloser h, ?_, ?_, ?_, ?_, ?_, ?_, fun _ hp => .inl (by rwa [heq] at hp),
    fun _ hp => .inl (by rwa [heq] at hp), by rw [heq], by rw [heq],
    by rw [heq], by rw [heq]; rfl⟩
  · intro id' hu
    rcases startCloser_cases h id with ⟨he, -⟩ | ⟨k, -, -, -, -, he⟩
    · rwa [he]
    · have hids : (s.startCloser id).closerIds = s.closerIds ++ [id] := by
        rw [he]
        simp [closerIds]
      rw [Unclosed, hids, he]
      rcases hu with hu | ⟨l, hl, rfl, hc⟩
      · exact .inl (List.mem_append_left _ hu)
      · by_cases hid : l.id = id
        · exact .inl (List.mem_append_right _ (List.mem_singleton.2 hid))
        · exact .inr ⟨l, mem_updateSlot_of_ne hl hid, rfl, hc⟩
  · intro c hc
    rcases startCloser_cases h id with ⟨he, -⟩ | ⟨k, -, -, -, -, he⟩
    · rwa [he]
    · rw [he]
      exact List.mem_append_left _ hc
  · intro c hc
    rcases startCloser_cases h id with ⟨he, -⟩ | ⟨k, -, -, -, -, he⟩
    · exact .inl (he ▸ hc)
    · rw [he] at hc
      rcases List.mem_append.1 hc with hc | hc
      · exact .inl hc
      · rw [List.mem_singleton.1 hc]
        exact .inr rfl
  · intro c hc
    rcases startCloser_cases h id with ⟨he, -⟩ | ⟨k, hk, hid, hopen, -, he⟩
    · exact .inl (he ▸ hc)
    · rw [he] at hc
      rcases List.mem_append.1 hc with hc | hc
      · exact .inl hc
      · rw [List.mem_singleton.1 hc]
        exact .inr ⟨k, hk, hid, rfl, hopen⟩
  · intro hn
    rcases startCloser_cases h id with ⟨he, -⟩ | ⟨k, hk, rfl, hopen, -, he⟩
    · rwa [he]
    · have hids : (s.startCloser k.id).closerIds = s.closerIds ++ [k.id] := by
        rw [he]
        simp [closerIds]
      have hnew : k.id ∉ s.closerIds := fun hc => by
        rw [((h.agrees k hk).closers.1 hc).1] at hopen
        cases hopen
      rw [hids]
      exact List.nodup_append.2 ⟨hn, List.nodup_singleton _,
        fun a ha b hb he => hnew (by rwa [← List.mem_singleton.1 hb, ← he])⟩
  · intro ha
    rcases startCloser_cases h id with ⟨he, -⟩ | ⟨k, -, -, -, -, he⟩
    · rwa [he]
    · rw [he]
      exact apart_update (f := fun k => { k with closing := true })
        (fun l hl hid _ _ => hw l hl hid) ha

theorem requestClose (h : Coherent s) : Worked s (s.requestClose id) := by
  have hd : Worked s (s.updateSlot id Slot.drained) :=
    .update (fun _ => .drained) (fun _ => Slot.closing_drained) fun _ => Slot.writing_drained
  rw [requestClose_def]
  split
  · exact hd
  · rename_i hrun
    refine hd.trans (.startCloser h.drain ?_)
    rintro k hk rfl hw
    rw [h.drain.slot?_eq_some hk] at hrun
    exact hrun (by simpa using hw)

theorem requestClose_all (l : List Slot) (h : Coherent s) :
    Worked s (l.foldl (fun s k => s.requestClose k.id) s) := by
  induction l generalizing s with
  | nil => exact .refl
  | cons k l ih => exact (requestClose h).trans (ih h.requestClose)

theorem supersede (h : Coherent s) : Worked s s.supersede := by
  unfold State.supersede
  split
  · exact .refl
  · exact .requestClose h

/-- A read pump starts at its beginning, on a device that was not read yet. -/
theorem ensureReader {carry : Option ReadRequest} (h : Coherent s)
    (hcarry : carry = none ∨ s.holdsReads = true ∧ s.parked = none) :
    Worked s (s.ensureReader carry) := by
  rcases ensureReader_cases hcarry with ⟨-, he⟩ | ⟨hr, -, he⟩ | ⟨k, -, hk, he⟩
  · rw [he]
    exact .refl
  · rw [he]
    exact .of_eq rfl rfl rfl rfl rfl rfl rfl rfl
  · obtain ⟨hmem, hu, -⟩ := unread?_eq_some h hk
    have hclosers : (s.ensureReader carry).closers = s.closers := by rw [he]; rfl
    refine ⟨.ensureReader hcarry, ?_, fun c hc => hclosers ▸ hc, fun c hc => .inl (hclosers ▸ hc),
      fun c hc => .inl (hclosers ▸ hc), ?_, ?_, fun pump hp => .inr ?_,
      fun pump hp => .inl ?_, by rw [he]; rfl, by rw [he]; rfl,
      by rw [he]; rfl, by rw [he]; rfl⟩
    · intro id' hu
      rw [he]
      exact unclosed_update (f := fun k => { k with reading := .running }) (fun _ => rfl)
        (fun _ => rfl) hu
    · rw [closerIds, closerIds, hclosers]
      exact fun hn => hn
    · intro ha
      rw [he]
      exact apart_update (f := fun k => { k with reading := .running }) (fun _ _ _ ha => ha) ha
    · rw [he] at hp
      obtain rfl := Option.some.inj hp
      exact ⟨⟨_, rfl⟩, k, hmem, rfl, hu⟩
    · rwa [he] at hp

/-- A write pump starts at its beginning. -/
theorem ensureWriter (h : Coherent s) : Worked s s.ensureWriter := by
  rcases ensureWriter_cases h with ⟨he, -⟩ | ⟨k, hk, -, hactive, -, he⟩
  · rw [he]
    exact .refl
  · have hclosers : s.ensureWriter.closers = s.closers := by rw [he]; rfl
    refine ⟨.ensureWriter h, ?_, fun c hc => hclosers ▸ hc, fun c hc => .inl (hclosers ▸ hc),
      fun c hc => .inl (hclosers ▸ hc), ?_, ?_, fun _ hp => .inl ?_,
      fun pump hp => .inr ?_, by rw [he]; rfl, by rw [he]; rfl,
      by rw [he]; rfl, by rw [he]; rfl⟩
    · intro id' hu
      rw [he]
      exact unclosed_update (f := fun k => { k with writing := .running }) (fun _ => rfl)
        (fun _ => rfl) hu
    · rw [closerIds, closerIds, hclosers]
      exact fun hn => hn
    · intro ha
      rw [he]
      refine apart_update (f := fun k => { k with writing := .running }) ?_ ha
      intro l hl hid _ hc
      obtain rfl := h.eq_of_id hl hk hid
      exact absurd hactive ((h.agrees l hl).drains hc)
    · rwa [he] at hp
    · rw [he] at hp
      obtain rfl := Option.some.inj hp
      rfl

theorem restart (h : Coherent s) (hr : s.holdsReads = true) (hp : s.parked = none) {exit : ReadExit} :
    Worked s (s.restart exit) := by
  cases exit with
  | drained carry => exact .ensureReader h (.inr ⟨hr, hp⟩)
  | failed => exact .ensureReader h (.inl rfl)
  | disconnected => exact .refl

theorem freeWriter : Worked s (s.freeWriter id) :=
  ⟨.freeWriter s id, fun _ hu => unclosed_update (f := fun k => { k with writing := .done })
    (fun _ => rfl) (fun _ => rfl) hu, fun _ hk => hk, fun _ hk => .inl hk, fun _ hk => .inl hk,
    fun hn => hn, apart_update (f := fun k => { k with writing := .done }) fun _ _ _ _ _ hw => (by cases hw),
    fun _ hp => .inl hp, fun _ hp => (by cases hp), rfl, rfl, rfl, rfl⟩

/-- The write pump of a device has ended before its close starts. -/
theorem closeAfter (h : Coherent (s.freeWriter id)) {exit : WriteExit} :
    Worked (s.freeWriter id) ((s.freeWriter id).closeAfter id exit) := by
  cases exit with
  | drained =>
    refine .startCloser h ?_
    intro k' hk' he hw
    obtain ⟨k, -, ⟨-, rfl⟩ | ⟨hne, rfl⟩⟩ := mem_updateSlot hk'
    · cases hw
    · exact hne he
  | disconnected => exact .refl

theorem closeAll (h : Coherent s) (cause : Teardown) : Worked s (s.closeAll cause) :=
  trans (t := { s with closeError := none, coordinator := .tearingDown cause })
    (.of_eq rfl rfl rfl rfl rfl rfl rfl rfl)
    (requestClose_all s.slots (h.congr rfl (.refl _) (Nat.le_refl _) rfl rfl rfl rfl rfl))

/-- A teardown that ends with the coordinator at work was a shutdown. -/
theorem settleTeardown (ho : s.settleTeardown.isOver = false) : Worked s s.settleTeardown := by
  rcases settleTeardown_cases s with ⟨he, -⟩ | ⟨cause, -, -, he⟩
  · rw [he]
    exact .refl
  · cases cause with
    | shutdown c =>
      have hlive := hasHandle_endShutdown s c
      obtain ⟨_, hs⟩ := endShutdown_eq s c
      rw [he]
      exact .of_eq (by rw [hs]) (by rw [hs]) (by rw [hs]) (by rw [hs]) (by rw [hs]) (by rw [hs])
        (by rw [hs]) hlive
    | close c => simp [he, isOver, endTeardown, coordinator_finish] at ho
    | released => simp [he, isOver, endTeardown, coordinator_finish] at ho

theorem query {c : Caller} {question : Question} {default : Answer} :
    Worked s (s.query c question default) := by
  unfold State.query
  split
  · exact .of_eq rfl rfl rfl rfl rfl rfl rfl hasHandle_answer
  · exact .of_eq rfl rfl rfl rfl rfl rfl rfl rfl

end Worked

/-! ## Moves -/

/-- A move of the coordinator after which it still works: what sets it off, and work. -/
inductive Deed (s : State) : Move → State → Prop
  | message {m : Control} {rest : List Control} {t : State} (hm : s.control = m :: rest)
      (hn : m.number? = none) (work : Worked { s with control := rest } t) : Deed s .control t
  | device {id : DeviceId} {device : DeviceRef} {rest : List Control} {u t : State}
      (hm : s.control = .add id device :: rest) (before : Worked { s with control := rest } u)
      (work : Worked { u with slots := u.slots ++ [({ id, device } : Slot)] } t) : Deed s .control t
  | noHolder {t : State} (hm : s.control = []) (work : Worked s t) : Deed s .control t
  | readerEnd {pump : ReadPump} {exit : ReadExit} {t : State} (hr : s.reader = some pump)
      (hs : pump.stage = .stopped exit) (work : Worked (s.freeReader pump.id) t) :
      Deed s .joinReader t
  | writerEnd {t : State} (work : Worked s t) : Deed s .joinWriter t
  | closerEnd {closer : Closer} {t : State} (hc : closer ∈ s.closers) (hr : closer.result ≠ none)
      (work : Worked (s.markClosed closer.id) t) : Deed s (.joinCloser closer.id) t

theorem Coherent.restart (h : Coherent s) (hr : s.holdsReads = true) (hp : s.parked = none)
    {exit : ReadExit} : Coherent (s.restart exit) := by
  cases exit with
  | drained carry => exact h.ensureReader (.inr ⟨hr, hp⟩)
  | failed => exact h.ensureReader (.inl rfl)
  | disconnected => exact h

theorem Deed.trans {m : Move} (d : Deed s m t) (w : Worked t u) : Deed s m u := by
  cases d with
  | message hm hn work => exact .message hm hn (work.trans w)
  | device hm before work => exact .device hm before (work.trans w)
  | noHolder hm work => exact .noHolder hm (work.trans w)
  | readerEnd hr hs work => exact .readerEnd hr hs (work.trans w)
  | writerEnd work => exact .writerEnd (work.trans w)
  | closerEnd hc hr work => exact .closerEnd hc hr (work.trans w)

/-- A close is waited for until it is joined. -/
theorem Deed.kept {m : Move} {k : Closer} (d : Deed s m t) (hk : k ∈ s.closers)
    (hm : m ≠ .joinCloser k.id) : k ∈ t.closers := by
  cases d with
  | message hm' hn work => exact work.kept hk
  | device hm' before work => exact work.kept (before.kept hk)
  | noHolder hm' work => exact work.kept hk
  | readerEnd hr hs work => exact work.kept hk
  | writerEnd work => exact work.kept hk
  | closerEnd hc hr work =>
    refine work.kept (List.mem_filter.2 ⟨hk, bne_iff_ne.2 fun he => hm ?_⟩)
    rw [he]

/-- What a move of the coordinator is before a teardown may end. -/
structure Before (s : State) (m : Move) (u t : State) : Prop where
  deed : Deed s m u
  tended : Tended u
  working : u.isOver = false
  eq : t = u.settleTeardown

theorem Before.of_serving {m : Move} (d : Deed s m t) (ht : Tended t)
    (hc : t.coordinator = .serving) : Before s m t t :=
  ⟨d, ht, by simp [isOver, hc], by rw [State.settleTeardown, hc]⟩

theorem Before.closeAll {m : Move} {cause : Teardown} (d : Deed s m (t.closeAll cause))
    (ht : Kept t) : Before s m (t.closeAll cause) (t.beginTeardown cause) :=
  ⟨d, (ht.closeAll cause).1, isOver_closeAll, rfl⟩

theorem Settled.before_control (h : Settled s) (hs : s.takeControl = some t) :
    ∃ u, Before s .control u t := by
  obtain ⟨hserving, ⟨m, rest, hm, rfl⟩ | ⟨hm, -, rfl⟩⟩ := takeControl_cases hs
  · have htaken := h.taken hm
    have hkept := htaken.tended.toKept
    cases m with
    | add id device =>
      have hcoh := (h.tended.toKept.superseded hm).2
      exact ⟨_, .of_serving (.device hm (.supersede hkept.coherent)
        ((Worked.ensureWriter hcoh).trans (.ensureReader hcoh.ensureWriter (.inl rfl))))
        (h.tended.addSlot hm hserving) ((coordinator_addSlot _ id device).trans hserving)⟩
    | mtu c =>
      exact ⟨_, .of_serving (.message hm rfl .query)
        (htaken.aside .query reader_query writer_query).tended
        (Quiet.query.coordinator.trans hserving)⟩
    | name c =>
      exact ⟨_, .of_serving (.message hm rfl .query)
        (htaken.aside .query reader_query writer_query).tended
        (Quiet.query.coordinator.trans hserving)⟩
    | count c =>
      exact ⟨_, .of_serving (.message hm rfl (.of_eq rfl rfl rfl rfl rfl rfl rfl hasHandle_answer))
        (htaken.aside .answer rfl rfl).tended hserving⟩
    | shutdown c => exact ⟨_, .closeAll (.message hm rfl (.closeAll hkept.coherent _)) hkept⟩
    | close c => exact ⟨_, .closeAll (.message hm rfl (.closeAll hkept.coherent _)) hkept⟩
  · have hkept := h.tended.toKept
    exact ⟨_, .closeAll (.noHolder hm (.closeAll hkept.coherent _)) hkept⟩

theorem Settled.before_joinReader (h : Settled s) (hs : s.joinReader = some t) :
    t = s.crash ∨ ∃ u, Before s .joinReader u t := by
  obtain ⟨ho, pump, hp, ⟨exit, he, rfl⟩ | ⟨-, rfl⟩⟩ := joinReader_cases hs
  · have hparked : (s.freeReader pump.id).parked = none := h.tended.reads.parked_eq_none hp
    have hcoh := h.tended.coherent.freeReader (readId_of_reader hp)
    refine .inr ⟨_, ?_, h.tended.onReadExit hp he,
      (Handled.onReadExit h.tended.reads hp he).isOver.trans ho, rfl⟩
    rw [onReadExit_eq]
    exact .readerEnd hp he
      ((Worked.restart hcoh rfl hparked).trans (.prune (hcoh.restart rfl hparked)))
  · exact .inl rfl

theorem Settled.before_joinWriter (h : Settled s) (hs : s.joinWriter = some t) :
    t = s.crash ∨ ∃ u, Before s .joinWriter u t := by
  obtain ⟨ho, pump, hp, ⟨exit, he, rfl⟩ | ⟨-, rfl⟩⟩ := joinWriter_cases hs
  · have hcoh := (h.tended.closeAfter hp he).2.1
    refine .inr ⟨_, ?_, h.tended.onWriteExit hp he, (Handled.onWriteExit hp he).isOver.trans ho, rfl⟩
    rw [onWriteExit_eq]
    exact .writerEnd (Worked.freeWriter.trans
      ((Worked.closeAfter (h.tended.coherent.freeWriter (writtenId_of_writer hp))).trans
        ((Worked.ensureWriter hcoh).trans (.prune hcoh.ensureWriter))))
  · exact .inl rfl

theorem Settled.before_joinCloser (h : Settled s) (hs : s.joinCloser id = some t) :
    t = s.crash ∨ ∃ u, Before s (.joinCloser id) u t := by
  obtain ⟨ho, closer, hf, ⟨error, hr, rfl⟩ | ⟨-, rfl⟩⟩ := joinCloser_cases hs
  · obtain rfl : closer.id = id := by simpa using List.find?_some hf
    have hmem := List.mem_of_find?_eq_some hf
    have hlisted : closer.id ∈ s.closerIds := List.mem_map_of_mem hmem
    have hcoh : Coherent { s.markClosed closer.id with closeError := error.or s.closeError } :=
      (h.tended.coherent.markClosed hlisted).congr rfl (.refl _) (Nat.le_refl _) rfl rfl rfl rfl rfl
    refine .inr ⟨_, ?_, h.tended.onClosed hlisted error,
      (Handled.onClosed (s := s) closer.id error).isOver.trans ho, rfl⟩
    rw [onClosed_eq]
    exact .closerEnd hmem hr
      (Worked.trans (t := { s.markClosed closer.id with closeError := error.or s.closeError })
        (.of_eq rfl rfl rfl rfl rfl rfl rfl rfl) (.prune hcoh))
  -- a crash drops the closers that were left as well
  · exact .inl rfl

/-- A move of the coordinator is a crash, or a deed after which a teardown may end. -/
theorem Settled.before (h : Settled s) {m : Move} (hm : m.isWork = true) (hs : s.step m = some t) :
    t = s.crash ∨ ∃ u, Before s m u t := by
  cases m with
  | control => exact .inr (h.before_control hs)
  | joinReader => exact h.before_joinReader hs
  | joinWriter => exact h.before_joinWriter hs
  | joinCloser id => exact h.before_joinCloser hs
  | _ => cases hm

/-- A move of the coordinator after which it still works is a deed. -/
theorem Settled.deed (h : Settled s) {m : Move} (hm : m.isWork = true) (hs : s.step m = some t)
    (ho : t.isOver = false) : Deed s m t := by
  rcases h.before hm hs with rfl | ⟨u, b⟩
  · rw [isOver_crash] at ho
    cases ho
  · obtain rfl := b.eq
    exact b.deed.trans (.settleTeardown ho)

end

end SeamlessTunnel.Multiplexer.State
