import Mathlib.Data.List.Nodup
import SeamlessTunnel.Proofs.Multiplexer.Devices
/-
  SeamlessTunnel.Proofs.Multiplexer.Closing — devices are closed once and in good order.

  Over any run the close of a device is started at most once, when the device is past its
  active phase and nothing is written to it any more, and the device leaves the list only
  after its close has returned and its pumps have ended (`closing_of_run`).
-/

namespace SeamlessTunnel.Multiplexer

/-- The device that a call closes. -/
def DeviceCall.close? : DeviceCall → Option DeviceId
  | .close id => some id
  | .read _ | .write _ | .nextEvent _ | .lateClose _ | .ask _ => none

namespace State

/-- The devices that are being closed. -/
def closeCalls (s : State) : List DeviceId :=
  s.outstanding.filterMap (·.call.close?)

/-- The devices whose close a move starts, each as often as it does. -/
def startedCloses (s : State) (_ : Move) (t : State) : List DeviceId :=
  t.closeCalls.diff s.closeCalls

/-- What is known of the devices whose close was started. -/
structure Closings (ids : List DeviceId) (s : State) : Prop where
  once : ids.Nodup
  passed : ∀ id ∈ ids, Passed id s
  marked : s.isOver = false → ∀ id ∈ ids, ∀ k ∈ s.slots, k.id = id → k.closing = true
  unwritten : ∀ id ∈ ids, s.writtenId ≠ some id
  calls : s.closeCalls ⊆ ids

section

variable {s t u : State} {m : Move} {id : DeviceId} {ms : List Move}

/-! ## Calls on devices -/

theorem closeCalls_eq (s : State) :
    s.closeCalls = (s.closers.filter (·.result.isNone)).map (·.id) := by
  have hreader : ∀ l : List Outstanding, (∀ o ∈ l, o.call.close? = none) →
      l.filterMap (·.call.close?) = [] := fun l h => List.filterMap_eq_nil_iff.2 h
  unfold closeCalls outstanding
  simp only [List.filterMap_append, List.filterMap_map]
  rw [hreader, hreader, hreader]
  · simp [Function.comp_def, DeviceCall.close?]
  · split <;> simp [DeviceCall.close?]
  · split <;> simp [DeviceCall.close?]
  · split <;> simp [DeviceCall.close?]

theorem mem_closeCalls : id ∈ s.closeCalls ↔ ∃ c ∈ s.closers, c.id = id ∧ c.result = none := by
  simp only [closeCalls_eq, List.mem_map, List.mem_filter, Option.isNone_iff_eq_none]
  exact exists_congr fun c => by rw [and_assoc, and_comm (a := c.result = none)]

theorem closeCalls_sublist (s : State) : s.closeCalls.Sublist s.closerIds := by
  rw [closeCalls_eq]
  exact List.filter_sublist.map _

/-- A closer starts on a device whose close was not started. -/
theorem Deed.opened (d : Deed s m t) : ∀ c ∈ t.closers, c ∈ s.closers ∨
    c.result = none ∧ ((∃ l ∈ s.slots, l.id = c.id ∧ l.device = c.device ∧ l.closing = false) ∨
      .add c.id c.device ∈ s.control) := by
  -- what work opens it opens afresh
  have hwork : ∀ {v w : State}, Worked v w → ∀ c ∈ w.closers, c ∈ v.closers ∨ c.result = none ∧
      ∃ l ∈ v.slots, l.id = c.id ∧ l.device = c.device ∧ l.closing = false := fun {v w} work c hc => by
    by_cases hold : c ∈ v.closers
    · exact .inl hold
    · exact .inr ⟨(work.fresh c hc).resolve_left hold, (work.opened c hc).resolve_left hold⟩
  intro c hc
  cases d with
  | message hm hn work => exact (hwork work c hc).imp_right fun h => ⟨h.1, .inl h.2⟩
  | @device new device rest u t hm before work =>
    rcases hwork work c hc with hc | ⟨hr, l, hl, he, hd, hopen⟩
    · exact (hwork before c hc).imp_right fun h => ⟨h.1, .inl h.2⟩
    · rcases List.mem_append.1 hl with hl | hl
      · obtain ⟨k, hk, hst⟩ := before.steady l hl
        refine .inr ⟨hr, .inl ⟨k, hk, hst.id.symm.trans he, hst.device.symm.trans hd, ?_⟩⟩
        by_contra hclosing
        rw [hst.closing (by simpa using hclosing)] at hopen
        cases hopen
      · rw [List.mem_singleton.1 hl] at he hd
        exact .inr ⟨hr, .inr (by simp [hm, ← he, ← hd])⟩
  | noHolder hm work => exact (hwork work c hc).imp_right fun h => ⟨h.1, .inl h.2⟩
  | @readerEnd pump exit t hr hs work =>
    refine (hwork work c hc).imp_right fun ⟨hr, l, hl, he, hopen⟩ => ⟨hr, .inl ?_⟩
    obtain ⟨k, hk, ⟨-, rfl⟩ | ⟨-, rfl⟩⟩ := mem_updateSlot hl
    · exact ⟨k, hk, he, hopen⟩
    · exact ⟨l, hk, he, hopen⟩
  | writerEnd work => exact (hwork work c hc).imp_right fun h => ⟨h.1, .inl h.2⟩
  | @closerEnd closer t hcl hr work =>
    rcases hwork work c hc with hc | ⟨hr, l, hl, he, hopen⟩
    · exact .inl (List.mem_filter.1 hc).1
    · obtain ⟨k, hk, ⟨-, rfl⟩ | ⟨-, rfl⟩⟩ := mem_updateSlot hl
      · exact .inr ⟨hr, .inl ⟨k, hk, he, hopen⟩⟩
      · exact .inr ⟨hr, .inl ⟨l, hk, he, hopen⟩⟩

theorem Deed.single (d : Deed s m t) (h : s.closerIds.Nodup) : t.closerIds.Nodup := by
  cases d with
  | message hm hn work => exact work.single h
  | device hm before work => exact work.single (before.single h)
  | noHolder hm work => exact work.single h
  | readerEnd hr hs work => exact work.single h
  | writerEnd work => exact work.single h
  | closerEnd hc hr work => exact work.single (h.sublist (List.filter_sublist.map _))

theorem Deed.apart (d : Deed s m t) (h : s.Apart) : t.Apart := by
  cases d with
  | message hm hn work => exact work.apart h
  | device hm before work =>
    refine work.apart fun k hk hc => ?_
    rcases List.mem_append.1 hk with hk | hk
    · exact before.apart h k hk hc
    · rw [List.mem_singleton.1 hk] at hc
      cases hc
  | noHolder hm work => exact work.apart h
  | readerEnd hr hs work =>
    exact work.apart (Worked.apart_update (f := fun k => { k with reading := .done })
      (fun _ _ _ hk => hk) h)
  | writerEnd work => exact work.apart h
  | closerEnd hc hr work =>
    exact work.apart (Worked.apart_update (f := fun k => { k with phase := .closed })
      (fun _ _ _ hk => hk) h)

/-- Each device has one closer, and none while its write pump runs. -/
theorem guarded_of_run {settings : MultiplexerSettings} (h : Run (.init settings) ms s) :
    s.closerIds.Nodup ∧ s.Apart := by
  refine h.snocRec (p := fun _ s => s.closerIds.Nodup ∧ s.Apart) ?_ ?_
  · exact ⟨List.nodup_nil, fun _ hk => by cases hk⟩
  intro ms s m t hrun ih hm
  rcases step_kinds hm with ⟨hwork, ho⟩ | ⟨device, -, rfl⟩ | q
  · rcases (settled_of_run hrun ho).before hwork hm with rfl | ⟨u, b⟩
    · obtain ⟨_, _, _, _, _, _, _, he, -⟩ := crash_parts s
      rw [he]
      exact ⟨List.nodup_nil, ih.2⟩
    · obtain ⟨_, _, _, _, _, _, _, _, _, _, he⟩ := settleTeardown_parts u
      rw [b.eq, he]
      exact ⟨b.deed.single ih.1, b.deed.apart ih.2⟩
  · obtain ⟨_, he⟩ := add_parts s device
    rw [he]
    exact ih
  · refine ⟨q.closers ▸ ih.1, fun k hk => ih.2 k (q.slots ▸ hk)⟩

theorem mem_startedCloses (hn : t.closerIds.Nodup) :
    id ∈ startedCloses s m t ↔ id ∈ t.closeCalls ∧ id ∉ s.closeCalls :=
  (hn.sublist (closeCalls_sublist t)).mem_sdiff_iff

/-- A close is started by the coordinator, which goes on, on a device that is not being
    closed. -/
theorem started_of_step (hset : s.isOver = false → Settled s) (hs : s.step m = some t)
    (hn : t.closerIds.Nodup) (hid : id ∈ startedCloses s m t) :
    s.isOver = false ∧ t.isOver = false ∧ m.isWork = true ∧
      ((∃ l ∈ s.slots, l.id = id ∧ l.closing = false) ∨ s.Coming id) := by
  obtain ⟨ht, hnew⟩ := (mem_startedCloses hn).1 hid
  obtain ⟨c, hc, rfl, hr⟩ := mem_closeCalls.1 ht
  have hfresh : c ∉ s.closers := fun hc => hnew (mem_closeCalls.2 ⟨c, hc, rfl, hr⟩)
  rcases step_kinds hs with ⟨hwork, ho⟩ | ⟨device, -, rfl⟩ | q
  · rcases (hset ho).before hwork hs with rfl | ⟨u, b⟩
    · obtain ⟨_, _, _, _, _, _, _, he, -⟩ := crash_parts s
      rw [he] at hc
      cases hc
    · obtain ⟨_, _, _, _, _, _, _, _, _, _, he⟩ := settleTeardown_parts u
      have hu : c ∈ u.closers := by rwa [b.eq, he] at hc
      have hbefore := ((b.deed.opened c hu).resolve_left hfresh).2
      refine ⟨ho, ?_, hwork, hbefore.imp (fun ⟨l, hl, he, _, hc⟩ => ⟨l, hl, he, hc⟩) coming_of_add⟩
      by_contra hover
      obtain ⟨k, hk, -⟩ := b.tended.coherent.closers c.id (List.mem_map_of_mem hu)
      rw [slots_eq_nil_of_over b.working (by rw [← b.eq]; simpa using hover)] at hk
      cases hk
  · obtain ⟨_, he⟩ := add_parts s device
    rw [he] at hc
    exact absurd hc hfresh
  · rcases q.tasks with he | ⟨id', out, rfl⟩
    · exact absurd (he ▸ hc) hfresh
    · obtain ⟨-, rfl⟩ := closeReturned_cases hs
      obtain ⟨k, hk, rfl⟩ := List.mem_map.1 hc
      split at hr
      · cases hr
      · rename_i hne
        rw [if_neg hne] at hfresh
        exact absurd hk hfresh

/-- A device that is being closed is listed, marked, and past its active phase. -/
theorem Coherent.closing (h : Coherent s) (hid : id ∈ s.closeCalls) :
    ∃ k ∈ s.slots, k.id = id ∧ k.closing = true ∧ k.phase ≠ .active := by
  have hc := (closeCalls_sublist s).subset hid
  obtain ⟨k, hk, rfl⟩ := h.closers id hc
  have hmarked := ((h.agrees k hk).closers.1 hc).1
  exact ⟨k, hk, rfl, hmarked, (h.agrees k hk).drains hmarked⟩

/-! ## Over a run -/

section

variable {ids : List DeviceId}

/-- The close of a device starts only if it has not started before. -/
theorem Closings.once_step (h : Closings ids s) (hset : s.isOver = false → Settled s)
    (hs : s.step m = some t) (hn : t.closerIds.Nodup) : (ids ++ startedCloses s m t).Nodup := by
  have hnodup : (startedCloses s m t).Nodup := (hn.sublist (closeCalls_sublist t)).diff
  refine List.nodup_append.2 ⟨h.once, hnodup, ?_⟩
  rintro id hid _ hid' rfl
  obtain ⟨ho, -, -, ⟨l, hl, he, hopen⟩ | hc⟩ := started_of_step hset hs hn hid'
  · rw [h.marked ho id hid l hl he] at hopen
    cases hopen
  · exact (h.passed id hid).not_coming hc

/-- The record of a device shows that its close was started. -/
theorem Closings.marked_step (h : Closings ids s) (hset : s.isOver = false → Settled s)
    (hset' : t.isOver = false → Settled t) (hs : s.step m = some t) (hn : t.closerIds.Nodup)
    (ho : t.isOver = false) :
    ∀ id ∈ ids ++ startedCloses s m t, ∀ k ∈ t.slots, k.id = id → k.closing = true := by
  intro id hid k hk he
  rcases List.mem_append.1 hid with hid | hid
  · obtain ⟨l, hl, hlater⟩ := (h.passed id hid).later hset hs hk he
    exact hlater.closing
      (h.marked (isOver_eq_false_of_step hs ho) id hid l hl (hlater.id.symm.trans he))
  · have hcoh := (hset' ho).tended.coherent
    obtain ⟨l, hl, hle, hclosing, -⟩ := hcoh.closing ((mem_startedCloses hn).1 hid).1
    rwa [hcoh.eq_of_id hk hl (he.trans hle.symm)]

/-- No write pump is there for a device whose close was started. -/
theorem Closings.unwritten_step (h : Closings ids s) (hset : s.isOver = false → Settled s)
    (hset' : t.isOver = false → Settled t) (hs : s.step m = some t)
    (hguard : t.closerIds.Nodup ∧ t.Apart) :
    ∀ id ∈ ids ++ startedCloses s m t, t.writtenId ≠ some id := by
  intro id hid hw
  obtain ⟨pump, hp, rfl⟩ := Option.map_eq_some_iff.1 hw
  cases ho : t.isOver with
  | false =>
    -- the record of the device would show both the pump and the close
    have hcoh := (hset' ho).tended.coherent
    obtain ⟨k, hk, he⟩ := hcoh.writer pump.id hw
    exact hguard.2 k hk (h.marked_step hset hset' hs hguard.1 ho _ hid k hk he)
      ((hcoh.agrees k hk).writing.2 (by rw [hw, he]))
  | true =>
    obtain ⟨pump', hp', he⟩ := writer_of_over hset hs ho pump hp
    rcases List.mem_append.1 hid with hid | hid
    · exact h.unwritten _ hid (by rw [writtenId_of_writer hp', he])
    · rw [(started_of_step hset hs hguard.1 hid).2.1] at ho
      cases ho

theorem Closings.step (h : Closings ids s) (hset : s.isOver = false → Settled s)
    (hset' : t.isOver = false → Settled t) (hs : s.step m = some t)
    (hguard : t.closerIds.Nodup ∧ t.Apart) : Closings (ids ++ startedCloses s m t) t where
  once := h.once_step hset hs hguard.1
  marked := h.marked_step hset hset' hs hguard.1
  unwritten := h.unwritten_step hset hset' hs hguard
  passed := by
    intro id hid
    rcases List.mem_append.1 hid with hid | hid
    · exact (h.passed id hid).step hset hs
    · have hcoh := (hset' (started_of_step hset hs hguard.1 hid).2.1).tended.coherent
      obtain ⟨k, hk, rfl, -⟩ := hcoh.closing ((mem_startedCloses hguard.1).1 hid).1
      exact hcoh.passed hk
  calls := by
    intro id hid
    by_cases hold : id ∈ s.closeCalls
    · exact List.mem_append_left _ (h.calls hold)
    · exact List.mem_append_right _ ((mem_startedCloses hguard.1).2 ⟨hid, hold⟩)

end

theorem closings_of_run {settings : MultiplexerSettings} (h : Run (.init settings) ms s) :
    Closings ((State.init settings).log startedCloses ms) s := by
  refine h.snocRec (p := fun ms s => Closings ((State.init settings).log startedCloses ms) s)
    ⟨.nil, fun _ hid => (by cases hid), fun _ _ hid => (by cases hid), fun _ hid => (by cases hid),
      fun _ hid => (by cases hid)⟩ ?_
  intro ms s m t hrun ih hm
  rw [hrun.log_snoc hm]
  have hafter := hrun.snoc hm
  exact ih.step (settled_of_run hrun) (settled_of_run hafter) hm (guarded_of_run hafter)

/-! ## Devices that came too late -/

theorem Deed.late (d : Deed s m t) : t.lateCloses = s.lateCloses := by
  cases d with
  | message hm hn work => exact work.late
  | device hm before work => exact work.late.trans before.late
  | noHolder hm work => exact work.late
  | readerEnd hr hs work => exact work.late
  | writerEnd work => exact work.late
  | closerEnd hc hr work => exact work.late

theorem lateCloses_finish : s.finish.lateCloses = s.lateCloses ++ lateDevices s.control := by
  obtain ⟨_, _, _, hr⟩ := dropReads_eq s.endControl
  obtain ⟨_, _, _, hw⟩ := dropWrites_eq s.endControl.dropReads
  obtain ⟨_, he⟩ := refuse_eq { s with
    coordinator := .ended
    control := []
    lateCloses := s.lateCloses ++ lateDevices s.control } (controlCallers s.control)
  rw [finish_eq, hw, hr, endControl, he]

theorem mem_lateDevices {ms : List Control} {k : DeviceId × DeviceRef} :
    k ∈ lateDevices ms ↔ .add k.1 k.2 ∈ ms := by
  refine List.mem_filterMap.trans ⟨?_, fun h => ⟨_, h, rfl⟩⟩
  rintro ⟨m, hm, he⟩
  cases m with
  | add id device =>
    obtain rfl := Option.some.inj he
    exact hm
  | _ => cases he

/-- A coordinator that ends closes the devices that are still on their way. -/
theorem lateCloses_settleTeardown (ho : s.isOver = false) : s.settleTeardown.lateCloses =
    s.lateCloses ++ if s.settleTeardown.isOver then lateDevices s.control else [] := by
  have hfinish : ∀ v : State, v.lateCloses = s.lateCloses → v.control = s.control →
      v.finish.lateCloses = s.lateCloses ++ if v.finish.isOver then lateDevices s.control else [] :=
    fun v hl hc => by
      rw [lateCloses_finish, hl, hc, isOver, coordinator_finish]
      rfl
  rcases settleTeardown_cases s with ⟨he, -⟩ | ⟨cause, -, -, he⟩
  · rw [he, ho]
    exact (List.append_nil _).symm
  · rw [he]
    cases cause with
    | shutdown c =>
      obtain ⟨_, hs⟩ := endShutdown_eq s c
      rw [hs]
      exact (List.append_nil _).symm
    | close c =>
      obtain ⟨_, hs⟩ := endShutdown_eq s c
      exact hfinish (s.endTeardown (.shutdown c)) (by rw [hs]) (by rw [hs])
    | released =>
      obtain ⟨_, hs⟩ := releaseParked_eq s
      exact hfinish _ (by rw [hs]) (by rw [hs])

/-- Only devices that were still on their way come too late. -/
theorem lateCloses_of_step (hset : s.isOver = false → Settled s) (hs : s.step m = some t) :
    ∀ k ∈ t.lateCloses, k ∈ s.lateCloses ∨ .add k.1 k.2 ∈ s.control := by
  intro k hk
  rcases step_kinds hs with ⟨hwork, ho⟩ | ⟨device, -, rfl⟩ | q
  · rcases (hset ho).before hwork hs with rfl | ⟨u, b⟩
    · obtain ⟨_, _, _, _, _, _, _, he, -⟩ := crash_parts s
      rw [he] at hk
      exact .inl hk
    · rw [b.eq] at hk
      rw [lateCloses_settleTeardown b.working, b.deed.late] at hk
      refine (List.mem_append.1 hk).imp_right fun hk => b.deed.control _ (mem_lateDevices.1 ?_)
      split at hk
      · exact hk
      · cases hk
  · obtain ⟨_, he⟩ := add_parts s device
    rw [he] at hk
    exact .inl hk
  · exact .inl (q.late.subset hk)

theorem lateCloses_eq_nil {settings : MultiplexerSettings} (h : Run (.init settings) ms s)
    (ho : s.isOver = false) : s.lateCloses = [] := by
  refine h.snocRec (p := fun _ s => s.isOver = false → s.lateCloses = []) (fun _ => rfl) ?_ ho
  intro ms s m t hrun ih hm ho
  have hopen := isOver_eq_false_of_step hm ho
  rcases step_kinds hm with ⟨hwork, -⟩ | ⟨device, -, rfl⟩ | q
  · exact ((settled_of_run hrun hopen).deed hwork hm ho).late.trans (ih hopen)
  · rw [add_eq hopen]
    exact ih hopen
  · exact List.sublist_nil.1 (ih hopen ▸ q.late)

def superseded : State where
  defaultMtu := 1280
  slots := [{ id := ⟨2⟩, device := 1, reading := .running, writing := .running }]
  reads := { capacity := 64 }
  writes := { capacity := 64 }
  events := { capacity := 64 }
  holdsReads := false
  holdsWrites := false
  reader := some ⟨⟨2⟩, 1, .ready none⟩
  writer := some ⟨⟨2⟩, 1, .starting⟩
  added := 2

end

end State

end SeamlessTunnel.Multiplexer
