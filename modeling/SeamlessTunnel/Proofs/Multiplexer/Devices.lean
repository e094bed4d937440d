import SeamlessTunnel.Proofs.Multiplexer.Closes
import SeamlessTunnel.Proofs.Multiplexer.Endings
import SeamlessTunnel.Proofs.Multiplexer.Succession
/-
  SeamlessTunnel.Proofs.Multiplexer.Devices — the devices that were taken in.

  A device that the coordinator has taken in is older than all that are on their way to it
  (`Passed`), and the active one is the newest of all (`taken_of_run`). It stays on the list
  until its close has returned (`listed_or_reported`), and pumps run on listed devices only,
  also when the coordinator is over (`pumpsListed_of_run`).
-/

namespace SeamlessTunnel.Multiplexer

namespace State

/-- The devices that a move takes in. -/
def acceptedDevices (s : State) (_ : Move) (t : State) : List DeviceId :=
  (t.slots.map (·.id)).filter (· ∉ s.slots.map (·.id))

/-- A device that will not come any more. -/
structure Passed (id : DeviceId) (s : State) : Prop where
  coming : ∀ n ∈ s.control.filterMap (·.number?), id.number < n
  added : id.number ≤ s.added

/-- What is known of all devices that were taken in. -/
structure Taken (ids : List DeviceId) (s : State) : Prop where
  passed : ∀ id ∈ ids, Passed id s
  positive : ∀ id ∈ ids, 0 < id.number
  listed : ∀ k ∈ s.slots, k.id ∈ ids
  newest : s.isOver = false → ∀ id ∈ ids, ∀ k ∈ s.slots, k.phase = .active →
    id.number ≤ k.id.number

/-- Whether pumps run on listed devices only. -/
structure PumpsListed (s : State) : Prop where
  reader : ∀ id, s.readId = some id → ∃ k ∈ s.slots, k.id = id
  writer : ∀ id, s.writtenId = some id → ∃ k ∈ s.slots, k.id = id

section

variable {s t u : State} {m : Move} {id : DeviceId} {ms : List Move}

theorem mem_acceptedDevices : id ∈ acceptedDevices s m t ↔
    (∃ k ∈ t.slots, k.id = id) ∧ ∀ k ∈ s.slots, k.id ≠ id := by
  simp [acceptedDevices]

theorem acceptedDevices_eq_nil (h : t.slots = s.slots) : acceptedDevices s m t = [] := by
  rw [acceptedDevices, h]
  exact List.filter_eq_nil_iff.2 fun _ hid => by simpa using hid

/-! ## Where devices come from -/

theorem coming_of_add {device : DeviceRef} (h : .add id device ∈ s.control) : s.Coming id :=
  List.mem_filterMap.2 ⟨_, h, rfl⟩

theorem Deed.slots (d : Deed s m t) :
    ∀ k' ∈ t.slots, (∃ k ∈ s.slots, Slot.Later k k') ∨ .add k'.id k'.device ∈ s.control := by
  intro k' hk'
  cases d with
  | message hm hn work => exact .inl (work.steady.after k' hk')
  | @device new device rest u t hm before work =>
    obtain ⟨k, hk, hl⟩ := work.steady.after k' hk'
    rcases List.mem_append.1 hk with hk | hk
    · obtain ⟨l, hl', hll⟩ := before.steady.after k hk
      exact .inl ⟨l, hl', hll.trans hl⟩
    · refine .inr ?_
      rw [hl.id, hl.device, List.mem_singleton.1 hk, hm]
      exact List.mem_cons_self ..
  | noHolder hm work => exact .inl (work.steady.after k' hk')
  | @readerEnd pump exit t hr hs work =>
    exact .inl ((After.freeReader s pump.id).trans work.steady.after k' hk')
  | writerEnd work => exact .inl (work.steady.after k' hk')
  | @closerEnd closer t hc hr work =>
    exact .inl ((Steady.markClosed s closer.id).after.trans work.steady.after k' hk')

theorem Deed.added (d : Deed s m t) : t.added = s.added := by
  cases d with
  | message hm hn work => exact work.added
  | device hm before work => exact work.added.trans before.added
  | noHolder hm work => exact work.added
  | readerEnd hr hs work => exact work.added
  | writerEnd work => exact work.added
  | closerEnd hc hr work => exact work.added

theorem slots_settleTeardown : s.settleTeardown.slots = s.slots := by
  obtain ⟨_, _, _, _, _, _, _, _, _, _, he⟩ := settleTeardown_parts s
  rw [he]

theorem added_settleTeardown : s.settleTeardown.added = s.added := by
  obtain ⟨_, _, _, _, _, _, _, _, _, _, he⟩ := settleTeardown_parts s
  rw [he]

theorem slots_crash : s.crash.slots = s.slots := by
  obtain ⟨_, _, _, _, _, _, _, he, -⟩ := crash_parts s
  rw [he]

/-- The end of a teardown leaves the messages or drops them. -/
theorem control_settleTeardown :
    s.settleTeardown.control = s.control ∨ s.settleTeardown.control = [] := by
  rcases settleTeardown_cases s with ⟨he, -⟩ | ⟨cause, -, -, he⟩
  · exact .inl (by rw [he])
  · cases cause with
    | shutdown c =>
      obtain ⟨_, hs⟩ := endShutdown_eq s c
      exact .inl (by rw [he, hs])
    | close c =>
      obtain ⟨_, _, _, _, _, _, hf⟩ := finish_parts (s.endTeardown (.shutdown c))
      exact .inr (by rw [he, endClose_eq, hf])
    | released =>
      obtain ⟨_, _, _, _, _, _, hf⟩ := finish_parts s.releaseParked
      exact .inr (by rw [he, endTeardown, hf])

/-- A listed device was listed before or has come. -/
theorem slots_of_step (hset : s.isOver = false → Settled s) (hs : s.step m = some t) :
    ∀ k' ∈ t.slots, (∃ k ∈ s.slots, Slot.Later k k') ∨ .add k'.id k'.device ∈ s.control := by
  have hsame : t.slots = s.slots →
      ∀ k' ∈ t.slots, (∃ k ∈ s.slots, Slot.Later k k') ∨ .add k'.id k'.device ∈ s.control :=
    fun he k' hk' => .inl ⟨k', he ▸ hk', .refl⟩
  rcases step_kinds hs with ⟨hwork, ho⟩ | ⟨device, -, rfl⟩ | q
  · rcases (hset ho).before hwork hs with rfl | ⟨u, b⟩
    · exact hsame slots_crash
    · rw [b.eq, slots_settleTeardown]
      exact b.deed.slots
  · obtain ⟨_, he⟩ := add_parts s device
    exact hsame (by rw [he])
  · exact hsame q.slots

/-- A device is on its way since it was handed in. -/
theorem coming_of_step (hset : s.isOver = false → Settled s) (hs : s.step m = some t) :
    ∀ n ∈ t.control.filterMap (·.number?), n ∈ s.control.filterMap (·.number?) ∨
      n = s.added + 1 := by
  intro n hn
  rcases step_kinds hs with ⟨hwork, ho⟩ | ⟨device, -, rfl⟩ | q
  · rcases (hset ho).before hwork hs with rfl | ⟨u, b⟩
    · obtain ⟨_, _, _, _, _, _, _, he, -⟩ := crash_parts s
      rw [he] at hn
      cases hn
    · refine .inl ?_
      obtain ⟨k, hk, he⟩ := List.mem_filterMap.1 hn
      rw [b.eq] at hk
      rcases control_settleTeardown (s := u) with hc | hc
      · exact List.mem_filterMap.2 ⟨k, b.deed.control k (hc ▸ hk), he⟩
      · rw [hc] at hk
        cases hk
  · cases ho : s.isOver with
    | true =>
      refine .inl ?_
      simpa [State.add, ho] using hn
    | false =>
      rw [add_eq ho, List.filterMap_append] at hn
      rcases List.mem_append.1 hn with hn | hn
      · exact .inl hn
      · exact .inr (by simpa [Control.number?, nextId] using hn)
  · exact .inl (q.control ▸ hn)

theorem added_eq_of_step (hset : s.isOver = false → Settled s) (hs : s.step m = some t)
    (hm : ∀ device, m ≠ .add device) : t.added = s.added := by
  rcases step_kinds hs with ⟨hwork, ho⟩ | ⟨device, rfl, -⟩ | q
  · rcases (hset ho).before hwork hs with rfl | ⟨u, b⟩
    · obtain ⟨_, _, _, _, _, _, _, he, -⟩ := crash_parts s
      rw [he]
    · rw [b.eq, added_settleTeardown, b.deed.added]
  · exact absurd rfl (hm device)
  · exact q.added

theorem added_of_step (hset : s.isOver = false → Settled s) (hs : s.step m = some t) :
    s.added ≤ t.added := by
  by_cases hm : ∃ device, m = .add device
  · obtain ⟨device, rfl⟩ := hm
    obtain rfl := step_add hs
    obtain ⟨_, he⟩ := add_parts s device
    rw [he]
    exact Nat.le_succ _
  · exact Nat.le_of_eq (added_eq_of_step hset hs fun device he => hm ⟨device, he⟩).symm

theorem added_of_moves {settings : MultiplexerSettings} {ns : List Move}
    (h : Run (.init settings) ms s) (k : Run s ns t) : s.added ≤ t.added := by
  induction k generalizing ms with
  | nil => exact Nat.le_refl _
  | cons hs _ ih => exact Nat.le_trans (added_of_step (settled_of_run h) hs) (ih (h.snoc hs))

/-- Without a device that is handed in none is counted. -/
theorem added_eq_of_moves {settings : MultiplexerSettings} {ns : List Move}
    (h : Run (.init settings) ms s) (k : Run s ns t) (hm : ∀ m ∈ ns, ∀ device, m ≠ .add device) :
    t.added = s.added := by
  induction k generalizing ms with
  | nil => rfl
  | @cons s u t m ns hs k ih =>
    exact (ih (h.snoc hs) fun m' hm' => hm m' (List.mem_cons_of_mem _ hm')).trans
      (added_eq_of_step (settled_of_run h) hs (hm m (List.mem_cons_self ..)))

theorem Passed.step (h : Passed id s) (hset : s.isOver = false → Settled s)
    (hs : s.step m = some t) : Passed id t := by
  refine ⟨?_, Nat.le_trans h.added (added_of_step hset hs)⟩
  intro n hn
  rcases coming_of_step hset hs n hn with hn | rfl
  · exact h.coming n hn
  · exact Nat.lt_succ_of_le h.added

theorem Passed.not_coming (h : Passed id s) : ¬ s.Coming id := fun hc =>
  Nat.lt_irrefl _ (h.coming _ hc)

/-- The record of a device that has passed has an earlier record. -/
theorem Passed.later (h : Passed id s) (hset : s.isOver = false → Settled s)
    (hs : s.step m = some t) {k' : Slot} (hk' : k' ∈ t.slots) (hid : k'.id = id) :
    ∃ k ∈ s.slots, Slot.Later k k' :=
  (slots_of_step hset hs k' hk').resolve_right fun hc => h.not_coming (hid ▸ coming_of_add hc)

theorem Coherent.passed (h : Coherent s) {k : Slot} (hk : k ∈ s.slots) : Passed k.id s := by
  have hmem : k.id.number ∈ s.slots.map (·.id.number) := List.mem_map_of_mem hk
  exact ⟨(List.pairwise_append.1 h.ascending).2.2 _ hmem, h.counted _ (List.mem_append_left _ hmem)⟩

/-- A device that is taken in was on its way, and has passed. -/
theorem accepted_of_step (hset : s.isOver = false → Settled s) (hs : s.step m = some t)
    (hid : id ∈ acceptedDevices s m t) : s.Coming id ∧ Passed id t := by
  obtain ⟨⟨k, hk, rfl⟩, hnew⟩ := mem_acceptedDevices.1 hid
  have hsame : t.slots ≠ s.slots := fun he => hnew k (he ▸ hk) rfl
  refine ⟨coming_of_add ((slots_of_step hset hs k hk).resolve_left fun ⟨l, hl, hlater⟩ =>
    hnew l hl hlater.id.symm), ?_⟩
  rcases step_kinds hs with ⟨hwork, ho⟩ | ⟨device, -, rfl⟩ | q
  · rcases (hset ho).before hwork hs with rfl | ⟨u, b⟩
    · exact absurd slots_crash hsame
    · rw [b.eq] at hk ⊢
      rw [slots_settleTeardown] at hk
      have hp := b.tended.coherent.passed hk
      refine ⟨?_, added_settleTeardown (s := u) ▸ hp.added⟩
      rcases control_settleTeardown (s := u) with hc | hc
      · rw [hc]
        exact hp.coming
      · simp [hc]
  · obtain ⟨_, he⟩ := add_parts s device
    exact absurd (by rw [he]) hsame
  · exact absurd q.slots hsame

/-- The active device is the newest that is listed. -/
theorem Coherent.newest_of_active (h : Coherent s) {k l : Slot} (hk : k ∈ s.slots)
    (ha : k.phase = .active) (hl : l ∈ s.slots) : l.id.number ≤ k.id.number := by
  obtain ⟨init, hslots⟩ := List.getLast?_eq_some_iff.1 (h.last_of_active hk ha)
  have hasc := (List.pairwise_append.1 h.ascending).1
  rw [List.pairwise_map, hslots] at hasc
  rw [hslots] at hl
  rcases List.mem_append.1 hl with hl | hl
  · exact Nat.le_of_lt ((List.pairwise_append.1 hasc).2.2 l hl k (List.mem_singleton_self _))
  · exact Nat.le_of_eq (by rw [List.mem_singleton.1 hl])

theorem taken_of_run {settings : MultiplexerSettings} (h : Run (.init settings) ms s) :
    Taken ((State.init settings).log acceptedDevices ms) s := by
  have hzero : ∀ {ms : List Move} {s : State}, Run (.init settings) ms s → Passed ⟨0⟩ s :=
    fun h => h.snocRec (p := fun _ s => Passed ⟨0⟩ s)
      ⟨fun _ hn => (by cases hn), Nat.zero_le _⟩ fun _ _ _ _ ht hp hm =>
        hp.step (settled_of_run ht) hm
  refine h.snocRec (p := fun ms s => Taken ((State.init settings).log acceptedDevices ms) s)
    ⟨fun _ hid => (by cases hid), fun _ hid => (by cases hid), fun _ hk => (by cases hk),
      fun _ _ hid => (by cases hid)⟩ ?_
  intro ms s m t hrun ih hm
  have hset := settled_of_run hrun
  rw [hrun.log_snoc hm]
  refine ⟨?_, ?_, ?_, ?_⟩
  · intro id hid
    rcases List.mem_append.1 hid with hid | hid
    · exact (ih.passed id hid).step hset hm
    · exact (accepted_of_step hset hm hid).2
  · intro id hid
    rcases List.mem_append.1 hid with hid | hid
    · exact ih.positive id hid
    · exact (hzero hrun).coming _ (accepted_of_step hset hm hid).1
  · intro k hk
    by_cases hold : ∃ l ∈ s.slots, l.id = k.id
    · obtain ⟨l, hl, he⟩ := hold
      exact List.mem_append_left _ (he ▸ ih.listed l hl)
    · exact List.mem_append_right _ (mem_acceptedDevices.2
        ⟨⟨k, hk, rfl⟩, fun l hl he => hold ⟨l, hl, he⟩⟩)
  · intro ho id hid k hk ha
    have hcoh := (settled_of_run (hrun.snoc hm) ho).tended.coherent
    rcases List.mem_append.1 hid with hid | hid
    · rcases slots_of_step hset hm k hk with ⟨l, hl, hlater⟩ | hc
      · rw [hlater.id]
        exact ih.newest (isOver_eq_false_of_step hm ho) id hid l hl (hlater.active ha)
      · exact Nat.le_of_lt ((ih.passed id hid).coming _ (coming_of_add hc))
    · obtain ⟨⟨l, hl, rfl⟩, -⟩ := mem_acceptedDevices.1 hid
      exact hcoh.newest_of_active hk ha hl

/-! ## Leaving the list -/

theorem Known.reported (h : Known ms s) (hcoh : Coherent s) (hp : Passed id s)
    (hpos : 0 < id.number) (hn : ∀ k ∈ s.slots, k.id ≠ id) : Reported ms id := by
  rcases h.devices id hpos hp.added with hc | hu | hr
  · exact absurd hc hp.not_coming
  · obtain ⟨k, hk, he⟩ : ∃ k ∈ s.slots, k.id = id :=
      hu.elim (hcoh.closers id) fun ⟨k, hk, he, _⟩ => ⟨k, hk, he⟩
    exact absurd he (hn k hk)
  · exact hr

/-- A coordinator that stops in good order has no devices left. -/
theorem slots_eq_nil_of_over (ho : s.isOver = false) (hover : s.settleTeardown.isOver = true) :
    s.slots = [] :=
  (parked_settleTeardown s ho hover).1

/-- A device that was taken in is listed until its close has returned. -/
theorem listed_or_reported {settings : MultiplexerSettings} (h : Run (.init settings) ms s) :
    ∀ id ∈ (State.init settings).log acceptedDevices ms,
      (∃ k ∈ s.slots, k.id = id) ∨ Reported ms id := by
  refine h.snocRec (p := fun ms s => ∀ id ∈ (State.init settings).log acceptedDevices ms,
    (∃ k ∈ s.slots, k.id = id) ∨ Reported ms id) (fun _ hid => by cases hid) ?_
  intro ms s m t hrun ih hm id hid
  have hset := settled_of_run hrun
  have htaken := taken_of_run (hrun.snoc hm)
  have hpos := htaken.positive id hid
  have hkept : t.slots = s.slots → (∃ k ∈ t.slots, k.id = id) ∨ Reported (ms ++ [m]) id :=
    fun he => by
      rw [hrun.log_snoc hm, acceptedDevices_eq_nil he, List.append_nil] at hid
      rw [he]
      exact (ih id hid).imp_right .append
  rcases step_kinds hm with ⟨hwork, ho⟩ | ⟨device, -, rfl⟩ | q
  · rcases (hset ho).before hwork hm with rfl | ⟨u, b⟩
    · exact hkept slots_crash
    · -- no device is forgotten before a teardown may end
      have hknown := (known_of_run hrun ho).deed b.deed
      have hp : Passed id u := by
        rw [hrun.log_snoc hm] at hid
        have hslots : ∀ k ∈ u.slots, k ∈ t.slots := fun k hk => by
          rwa [b.eq, slots_settleTeardown]
        rcases List.mem_append.1 hid with hid | hid
        · have hold := (taken_of_run hrun).passed id hid
          refine ⟨fun n hn => hold.coming n ?_, b.deed.added ▸ hold.added⟩
          obtain ⟨k, hk, he⟩ := List.mem_filterMap.1 hn
          exact List.mem_filterMap.2 ⟨k, b.deed.control k hk, he⟩
        · obtain ⟨⟨k, hk, rfl⟩, -⟩ := mem_acceptedDevices.1 hid
          rw [b.eq, slots_settleTeardown] at hk
          exact b.tended.coherent.passed hk
      by_cases hl : ∃ k ∈ u.slots, k.id = id
      · rw [b.eq, slots_settleTeardown]
        exact .inl hl
      · exact .inr (hknown.reported b.tended.coherent hp hpos fun k hk he => hl ⟨k, hk, he⟩).append
  · obtain ⟨_, he⟩ := add_parts s device
    exact hkept (by rw [he])
  · exact hkept q.slots

/-! ## Pumps -/

theorem writer_of_stopWriter {pump pump' : WritePump} {exit : WriteExit}
    (hp : (s.stopWriter pump exit).writer = some pump') : pump'.id = pump.id := by
  unfold stopWriter at hp
  simp only [] at hp
  split at hp
  · simp [shutWrites] at hp
  · rw [← Option.some.inj hp]

theorem writer_pollWriter (hs : s.pollWriter = some t) :
    ∀ pump, t.writer = some pump → ∃ pump', s.writer = some pump' ∧ pump'.id = pump.id := by
  intro pump' hp
  obtain ⟨pump, hw, ⟨-, -, rfl⟩ | ⟨-, rfl⟩ | ⟨r, writes, -, -, -, rfl⟩ | ⟨-, -, -, rfl⟩⟩ :=
    pollWriter_cases hs
  · exact ⟨pump, hw, (writer_of_stopWriter hp).symm⟩
  · exact ⟨pump, hw, by rw [← Option.some.inj hp]⟩
  · exact ⟨pump, hw, by rw [← Option.some.inj hp]⟩
  · exact ⟨pump, hw, (writer_of_stopWriter hp).symm⟩

theorem writer_writeReturned {out : Outcome Nat} (hs : s.writeReturned out = some t) :
    ∀ pump, t.writer = some pump → ∃ pump', s.writer = some pump' ∧ pump'.id = pump.id := by
  intro pump' hp
  obtain ⟨pump, r, hw, -, ⟨a, -, rfl⟩ | ⟨-, rfl⟩⟩ := writeReturned_cases hs
  · exact ⟨pump, hw, by rw [← Option.some.inj hp]⟩
  · refine ⟨pump, hw, ?_⟩
    cases ho : s.isOver with
    | true => simp [shutWrites, ho] at hp
    | false =>
      have hcrashed : { pump with stage := .crashed } = pump' := by simpa [shutWrites, ho] using hp
      rw [← hcrashed]

theorem Aside.writer (q : Aside s m t) (hs : s.step m = some t) :
    ∀ pump, t.writer = some pump → ∃ pump', s.writer = some pump' ∧ pump'.id = pump.id := by
  rcases q.writes with ⟨hw, -⟩ | rfl | ⟨out, rfl⟩
  · exact fun pump hp => ⟨pump, hw ▸ hp, rfl⟩
  · exact writer_pollWriter hs
  · exact writer_writeReturned hs

/-- A pump that is at work survives a crash. -/
theorem writer_crash : s.crash.writer = s.writer ∨ s.crash.writer = none := by
  obtain ⟨_, hc⟩ := dropControl_eq s
  obtain ⟨_, _, _, hq⟩ := dropReads_eq s.dropControl
  obtain ⟨_, _, _, hr, -⟩ := dropReader_eq s.dropControl.dropReads
  obtain ⟨_, _, _, hv⟩ := dropWrites_eq s.dropControl.dropReads.dropReader
  have hsame : s.dropControl.dropReads.dropReader.dropWrites.writer = s.writer := by
    rw [hv, hr, hq, hc]
  rw [crash_eq, ← hsame]
  unfold dropWriter
  repeat' split
  · exact .inl rfl
  · exact .inr (by simp [shutWrites])
  · exact .inr rfl
  · exact .inl rfl
  · exact .inl rfl
  · exact .inl rfl

/-- A coordinator that stops starts no write pump. -/
theorem writer_of_isOver (hset : Settled s) (hm : m.isWork = true) (hs : s.step m = some t)
    (hover : t.isOver = true) :
    ∀ pump, t.writer = some pump → ∃ pump', s.writer = some pump' ∧ pump'.id = pump.id := by
  intro pump hp
  rcases hset.before hm hs with rfl | ⟨u, b⟩
  · rcases writer_crash (s := s) with he | he
    · exact ⟨pump, he ▸ hp, rfl⟩
    · rw [he] at hp
      cases hp
  · obtain ⟨_, _, _, _, _, _, _, _, _, _, he⟩ := settleTeardown_parts u
    rw [b.eq, he] at hp
    obtain ⟨k, hk, -⟩ := b.tended.coherent.writer pump.id (writtenId_of_writer hp)
    rw [slots_eq_nil_of_over b.working (b.eq ▸ hover)] at hk
    cases hk

/-- A move after which the coordinator is over starts no write pump. -/
theorem writer_of_over (hset : s.isOver = false → Settled s) (hs : s.step m = some t)
    (hover : t.isOver = true) :
    ∀ pump, t.writer = some pump → ∃ pump', s.writer = some pump' ∧ pump'.id = pump.id := by
  intro pump hp
  rcases step_kinds hs with ⟨hwork, ho⟩ | ⟨device, -, rfl⟩ | q
  · exact writer_of_isOver (hset ho) hwork hs hover pump hp
  · refine ⟨pump, ?_, rfl⟩
    obtain ⟨_, he⟩ := add_parts s device
    rw [he] at hp
    exact hp
  · exact q.writer hs pump hp

/-- A coordinator that is over keeps its list, or has stopped with no device and no pump. -/
theorem slots_of_over (hset : s.isOver = false → Settled s) (hs : s.step m = some t)
    (hover : t.isOver = true) :
    t.slots = s.slots ∨ t.slots = [] ∧ t.reader = none ∧ t.writer = none := by
  rcases step_kinds hs with ⟨hwork, ho⟩ | ⟨device, -, rfl⟩ | q
  · rcases (hset ho).before hwork hs with rfl | ⟨u, b⟩
    · exact .inl slots_crash
    · have hnil := slots_eq_nil_of_over b.working (b.eq ▸ hover)
      have hcoh := b.tended.coherent
      obtain ⟨_, _, _, _, _, _, _, _, _, _, he⟩ := settleTeardown_parts u
      refine .inr ⟨?_, ?_, ?_⟩
      · rw [b.eq, slots_settleTeardown, hnil]
      · rw [b.eq, he]
        by_contra hr
        obtain ⟨pump, hp⟩ := Option.ne_none_iff_exists'.1 hr
        obtain ⟨k, hk, -⟩ := hcoh.reader pump.id (readId_of_reader hp)
        rw [hnil] at hk
        cases hk
      · rw [b.eq, he]
        by_contra hw
        obtain ⟨pump, hp⟩ := Option.ne_none_iff_exists'.1 hw
        obtain ⟨k, hk, -⟩ := hcoh.writer pump.id (writtenId_of_writer hp)
        rw [hnil] at hk
        cases hk
  · obtain ⟨_, he⟩ := add_parts s device
    exact .inl (by rw [he])
  · exact .inl q.slots

theorem pumpsListed_of_run {settings : MultiplexerSettings} (h : Run (.init settings) ms s) :
    PumpsListed s := by
  refine h.snocRec (p := fun _ s => PumpsListed s)
    ⟨fun _ hr => (by cases hr), fun _ hw => by cases hw⟩ ?_
  intro ms s m t hrun ih hm
  have hset := settled_of_run hrun
  cases ho : t.isOver with
  | false =>
    have hcoh := (settled_of_run (hrun.snoc hm) ho).tended.coherent
    exact ⟨hcoh.reader, hcoh.writer⟩
  | true =>
    rcases slots_of_over hset hm ho with he | ⟨-, hr, hw⟩
    · refine ⟨?_, ?_⟩
      · intro id hid
        obtain ⟨pump, hp, rfl⟩ := Option.map_eq_some_iff.1 hid
        obtain ⟨pump', hp', hsame⟩ := reader_of_over hset hm ho pump hp
        rw [he, ← hsame]
        exact ih.reader _ (readId_of_reader hp')
      · intro id hid
        obtain ⟨pump, hp, rfl⟩ := Option.map_eq_some_iff.1 hid
        obtain ⟨pump', hp', hsame⟩ := writer_of_over hset hm ho pump hp
        rw [he, ← hsame]
        exact ih.writer _ (writtenId_of_writer hp')
    · refine ⟨fun id hid => ?_, fun id hid => ?_⟩
      · rw [readId, hr] at hid
        cases hid
      · rw [writtenId, hw] at hid
        cases hid

end

end State

end SeamlessTunnel.Multiplexer
