import SeamlessTunnel.Proofs.Multiplexer.Requests
import SeamlessTunnel.Proofs.Multiplexer.Work
/-
  SeamlessTunnel.Proofs.Multiplexer.Succession — reads are made one at a time and move on.

  A read is issued only after the one before it has returned (`issued_of_run`), and on the
  same device or a newer one: what a read pump may still start on is newer than all that was
  read (`Ahead`, `ordered_of_run`).
-/

namespace SeamlessTunnel.Multiplexer

/-- The device that a call reads. -/
def DeviceCall.read? : DeviceCall → Option DeviceId
  | .read id => some id
  | .write _ | .nextEvent _ | .close _ | .lateClose _ | .ask _ => none

namespace State

/-- The read that a move issues. -/
def issuedReads (_ : State) (m : Move) (t : State) : List (DeviceId × ReadRequest) :=
  match m with
  | .pollReader => t.inFlight.toList
  | _ => []

/-- The read that a move ends. -/
def returnedReads (s : State) (m : Move) (_ : State) : List (DeviceId × ReadRequest) :=
  match m with
  | .readReturned _ => s.inFlight.toList
  | _ => []

/-- No device older than this one will be read any more. -/
structure Ahead (id : DeviceId) (s : State) : Prop where
  reader : ∀ pump, s.reader = some pump → id.number ≤ pump.id.number
  unread : ∀ k ∈ s.slots, Unread k → id.number < k.id.number
  coming : ∀ n ∈ s.control.filterMap (·.number?), id.number < n
  added : id.number ≤ s.added

section

variable {s t u : State} {m : Move} {id : DeviceId} {ms : List Move}

/-! ## The read under way -/

/-- Of all calls on devices at most one is a read. -/
theorem reads_outstanding (s : State) :
    s.outstanding.filterMap (·.call.read?) = s.inFlight.toList.map (·.1) := by
  obtain ⟨d, d', others, he, hothers⟩ := outstanding_parts s
  have hnone : others.filterMap (·.call.read?) = [] := by
    refine List.filterMap_eq_nil_iff.2 fun o ho => ?_
    cases hc : o.call with
    | read id => exact absurd hc (hothers o ho id).1
    | _ => rfl
  rw [he, List.filterMap_append, List.filterMap_append, hnone]
  simp [DeviceCall.read?]

theorem inFlight_pollReader (hs : s.pollReader = some t) : s.inFlight = none := by
  obtain ⟨pump, hr, ⟨r, hstage, -⟩ | ⟨hstage, -, -⟩ | ⟨r, reads, hstage, -, -, -⟩ |
    ⟨hstage, -, -, -⟩⟩ := pollReader_cases hs
  all_goals
    rw [inFlight_of_reader hr, hstage]
    rfl

theorem inFlight_stopReader {pump : ReadPump} {exit : ReadExit} :
    (s.stopReader pump exit).inFlight = none := by
  unfold stopReader
  split
  · simp [inFlight, shutReads]
  · rfl

theorem inFlight_readReturned {out : Outcome Packet} (hs : s.readReturned out = some t) :
    t.inFlight = none := by
  obtain ⟨pump, r, -, -, ⟨p, -, rfl⟩ | ⟨e, -, -, rfl⟩ | ⟨e, -, -, rfl⟩ | ⟨-, rfl⟩⟩ :=
    readReturned_cases hs
  · rfl
  · exact inFlight_stopReader
  · exact inFlight_stopReader
  · cases ho : s.isOver <;> simp [inFlight, shutReads, ReadStage.reading?]

/-- Nobody but the read pump and the device touches the read under way. -/
theorem inFlight_of_step (hset : s.isOver = false → Settled s)
    (hs : s.step m = some t) (hpoll : m ≠ .pollReader) (hreturned : ∀ out, m ≠ .readReturned out) :
    t.inFlight = s.inFlight := by
  rcases step_kinds hs with ⟨hwork, ho⟩ | ⟨device, -, rfl⟩ | q
  · cases (hset ho).act hwork hs with
    | answer => rfl
    | ask => rfl
    | fail closers =>
      obtain ⟨_, _, _, reader, _, _, _, he, hreader⟩ := crash_parts { s with closers }
      rw [he]
      show reader.bind _ = s.inFlight
      rcases hreader with rfl | ⟨rfl, hidle⟩
      · rfl
      · cases hr : s.reader with
        | none => exact (inFlight_eq_none hr).symm
        | some pump =>
          rw [inFlight_of_reader hr]
          cases hstage : pump.stage with
          | reading r => exact absurd hstage (hidle pump hr r)
          | _ => rfl
    | @handle _ _ u _ hu =>
      obtain ⟨_, _, _, _, _, _, _, _, _, _, he⟩ := settleTeardown_parts u
      rw [he]
      exact hu.inFlight
  · obtain ⟨_, he⟩ := add_parts s device
    rw [he]
    rfl
  · rcases q.reads with ⟨hr, -⟩ | rfl | ⟨out, rfl⟩
    · rw [inFlight, inFlight, hr]
    · exact absurd rfl hpoll
    · exact absurd rfl (hreturned out)

/-- A read is issued only after all reads before it have returned. -/
theorem issued_of_run {settings : MultiplexerSettings} (h : Run (.init settings) ms s) :
    (State.init settings).log issuedReads ms =
      (State.init settings).log returnedReads ms ++ s.inFlight.toList := by
  refine h.snocRec (p := fun ms s => (State.init settings).log issuedReads ms =
    (State.init settings).log returnedReads ms ++ s.inFlight.toList) rfl ?_
  intro ms s m t hrun ih hm
  rw [hrun.log_snoc hm, hrun.log_snoc hm, ih]
  by_cases hpoll : m = .pollReader
  · subst hpoll
    rw [inFlight_pollReader hm]
    simp [issuedReads, returnedReads]
  · by_cases hreturned : ∃ out, m = .readReturned out
    · obtain ⟨out, rfl⟩ := hreturned
      rw [inFlight_readReturned hm]
      simp [issuedReads, returnedReads]
    · rw [inFlight_of_step (settled_of_run hrun) hm hpoll
        fun out he => hreturned ⟨out, he⟩]
      cases m with
      | pollReader => exact absurd rfl hpoll
      | readReturned out => exact absurd ⟨out, rfl⟩ hreturned
      | _ => simp [issuedReads, returnedReads]

/-! ## Older devices -/

namespace Ahead

theorem unread_after (h : Ahead id s) (ha : After s t) :
    ∀ k ∈ t.slots, Unread k → id.number < k.id.number := fun k' hk' hu => by
  obtain ⟨k, hk, hl⟩ := ha k' hk'
  rw [hl.id]
  exact h.unread k hk (hl.of_unread hu)

theorem worked (h : Ahead id s) (w : Worked s t) : Ahead id t := by
  refine ⟨?_, h.unread_after w.steady.after, w.control ▸ h.coming, w.added ▸ h.added⟩
  intro pump hp
  rcases w.started pump hp with hp | ⟨-, k, hk, he, hu⟩
  · exact h.reader pump hp
  · exact he ▸ Nat.le_of_lt (h.unread k hk hu)

/-- Only devices, those that come and the pump's device matter. -/
theorem congr (h : Ahead id s) (hslots : t.slots = s.slots)
    (hreader : ∀ pump, t.reader = some pump → ∃ pump', s.reader = some pump' ∧ pump'.id = pump.id)
    (hcontrol : t.control.filterMap (·.number?) ⊆ s.control.filterMap (·.number?))
    (hadded : s.added ≤ t.added) : Ahead id t := by
  refine ⟨?_, hslots ▸ h.unread, fun n hn => h.coming n (hcontrol hn), Nat.le_trans h.added hadded⟩
  intro pump hp
  obtain ⟨pump', hp', he⟩ := hreader pump hp
  exact he ▸ h.reader pump' hp'

theorem takeControl (h : Ahead id s) {msg : Control} {rest : List Control}
    (hm : s.control = msg :: rest) : Ahead id { s with control := rest } := by
  refine h.congr rfl (fun pump hp => ⟨pump, hp, rfl⟩) ?_ (Nat.le_refl _)
  rw [hm]
  exact ((List.sublist_cons_self msg rest).filterMap _).subset

theorem deed (h : Ahead id s) (d : Deed s m t) : Ahead id t := by
  cases d with
  | message hm hn work => exact (h.takeControl hm).worked work
  | @device new device rest u t hm before work =>
    have hu := (h.takeControl hm).worked before
    have hnew : id.number < new.number := h.coming _ (by simp [hm, Control.number?])
    have hlisted : Ahead id { u with slots := u.slots ++ [({ id := new, device } : Slot)] } := by
      refine ⟨hu.reader, ?_, hu.coming, hu.added⟩
      intro k hk hunread
      rcases List.mem_append.1 hk with hk | hk
      · exact hu.unread k hk hunread
      · rw [List.mem_singleton.1 hk]
        exact hnew
    exact hlisted.worked work
  | noHolder hm work => exact h.worked work
  | @readerEnd pump exit t hr hs work =>
    have hfree : Ahead id (s.freeReader pump.id) :=
      ⟨fun _ hp => (by cases hp), h.unread_after (.freeReader s pump.id), h.coming, h.added⟩
    exact hfree.worked work
  | writerEnd work => exact h.worked work
  | @closerEnd closer t hc hr work =>
    have hmarked : Ahead id (s.markClosed closer.id) :=
      ⟨h.reader, h.unread_after (Steady.markClosed s closer.id).after, h.coming, h.added⟩
    exact hmarked.worked work

theorem quiet (h : Ahead id s) (q : Quiet s t)
    (hreader : ∀ pump, t.reader = some pump → ∃ pump', s.reader = some pump' ∧ pump'.id = pump.id) :
    Ahead id t := by
  exact h.congr q.slots hreader (q.control ▸ List.Subset.refl _) (q.added ▸ Nat.le_refl _)

/-- A device that is handed in is newer than all that were read. -/
theorem add (h : Ahead id s) (ho : s.isOver = false) (device : DeviceRef) :
    Ahead id (s.add device).2 := by
  rw [add_eq ho]
  refine ⟨h.reader, h.unread, ?_, Nat.le_succ_of_le h.added⟩
  intro n hn
  rw [List.filterMap_append] at hn
  rcases List.mem_append.1 hn with hn | hn
  · exact h.coming n hn
  · have : n = s.added + 1 := by simpa [Control.number?, nextId] using hn
    rw [this]
    exact Nat.lt_succ_of_le h.added

end Ahead

/-- The device that is read is older than all that were not read yet. -/
theorem Coherent.ahead (h : Coherent s) {pump : ReadPump} (hr : s.reader = some pump) :
    Ahead pump.id s := by
  have hread := readId_of_reader hr
  obtain ⟨k, hk, he⟩ := h.reader pump.id hread
  have hmem : pump.id.number ∈ s.slots.map (·.id.number) := he ▸ List.mem_map_of_mem hk
  refine ⟨?_, fun k hk hu => h.oldest pump.id hread k hk hu,
    (List.pairwise_append.1 h.ascending).2.2 _ hmem, h.counted _ (List.mem_append_left _ hmem)⟩
  intro pump' hp
  exact Nat.le_of_eq (by rw [Option.some.inj (hr.symm.trans hp)])

theorem reader_of_stopReader {pump pump' : ReadPump} {exit : ReadExit}
    (hp : (s.stopReader pump exit).reader = some pump') : pump'.id = pump.id := by
  unfold stopReader at hp
  split at hp
  · simp [shutReads] at hp
  · rw [← Option.some.inj hp]

theorem reader_pollReader (hs : s.pollReader = some t) :
    ∀ pump, t.reader = some pump → ∃ pump', s.reader = some pump' ∧ pump'.id = pump.id := by
  intro pump' hp
  obtain ⟨pump, hr, ⟨r, -, rfl⟩ | ⟨-, -, rfl⟩ | ⟨r, reads, -, -, -, rfl⟩ | ⟨-, -, -, rfl⟩⟩ :=
    pollReader_cases hs
  · exact ⟨pump, hr, by rw [← Option.some.inj hp]⟩
  · exact ⟨pump, hr, (reader_of_stopReader hp).symm⟩
  · exact ⟨pump, hr, by rw [← Option.some.inj hp]⟩
  · exact ⟨pump, hr, (reader_of_stopReader hp).symm⟩

theorem reader_readReturned {out : Outcome Packet} (hs : s.readReturned out = some t) :
    ∀ pump, t.reader = some pump → ∃ pump', s.reader = some pump' ∧ pump'.id = pump.id := by
  intro pump' hp
  obtain ⟨pump, r, hr, -, ⟨p, -, rfl⟩ | ⟨e, -, -, rfl⟩ | ⟨e, -, -, rfl⟩ | ⟨-, rfl⟩⟩ :=
    readReturned_cases hs
  · exact ⟨pump, hr, by rw [← Option.some.inj hp]⟩
  · exact ⟨pump, hr, (reader_of_stopReader hp).symm⟩
  · exact ⟨pump, hr, (reader_of_stopReader hp).symm⟩
  · refine ⟨pump, hr, ?_⟩
    cases ho : s.isOver with
    | true => simp [shutReads, ho] at hp
    | false =>
      have hcrashed : { pump with stage := .crashed } = pump' := by simpa [shutReads, ho] using hp
      rw [← hcrashed]

theorem Aside.reader (q : Aside s m t) (hs : s.step m = some t) :
    ∀ pump, t.reader = some pump → ∃ pump', s.reader = some pump' ∧ pump'.id = pump.id := by
  rcases q.reads with ⟨hr, -⟩ | rfl | ⟨out, rfl⟩
  · exact fun pump hp => ⟨pump, hr ▸ hp, rfl⟩
  · exact reader_pollReader hs
  · exact reader_readReturned hs

/-- A coordinator that stops starts no read pump. -/
theorem reader_of_isOver (hset : Settled s) (hm : m.isWork = true)
    (hs : s.step m = some t) (hover : t.isOver = true) :
    ∀ pump, t.reader = some pump → ∃ pump', s.reader = some pump' ∧ pump'.id = pump.id := by
  intro pump hp
  cases hset.act hm hs with
  | answer => exact ⟨pump, hp, rfl⟩
  | ask => exact ⟨pump, hp, rfl⟩
  | fail closers =>
    obtain ⟨_, _, _, reader, _, _, _, he, rfl | ⟨rfl, -⟩⟩ := crash_parts { s with closers }
    · rw [he] at hp
      exact ⟨pump, hp, rfl⟩
    · rw [he] at hp
      cases hp
  | @handle _ _ u _ _ ht ho =>
    obtain ⟨hnil, -⟩ := parked_settleTeardown u ho hover
    obtain ⟨_, _, _, _, _, _, _, _, _, _, he⟩ := settleTeardown_parts u
    rw [he] at hp
    obtain ⟨k, hk, -⟩ := ht.coherent.reader pump.id (readId_of_reader hp)
    rw [hnil] at hk
    cases hk

/-- A move after which the coordinator is over starts no read pump. -/
theorem reader_of_over (hset : s.isOver = false → Settled s) (hs : s.step m = some t)
    (hover : t.isOver = true) :
    ∀ pump, t.reader = some pump → ∃ pump', s.reader = some pump' ∧ pump'.id = pump.id := by
  intro pump hp
  rcases step_kinds hs with ⟨hwork, hopen⟩ | ⟨device, -, rfl⟩ | q
  · exact reader_of_isOver (hset hopen) hwork hs hover pump hp
  · refine ⟨pump, ?_, rfl⟩
    obtain ⟨_, he⟩ := add_parts s device
    rw [he] at hp
    exact hp
  · exact q.reader hs pump hp

/-- Reads were issued from older devices to newer ones, and go on so. -/
structure Ordered (ids : List DeviceId) (s : State) : Prop where
  sorted : ids.Pairwise (·.number ≤ ·.number)
  reader : ∀ id ∈ ids, ∀ pump, s.reader = some pump → id.number ≤ pump.id.number
  ahead : s.isOver = false → ∀ id ∈ ids, Ahead id s

theorem Ordered.step {ids : List DeviceId} (h : Ordered ids s)
    (hset : s.isOver = false → Settled s) (hs : s.step m = some t) : Ordered ids t := by
  have hahead : t.isOver = false → ∀ id ∈ ids, Ahead id t := fun ho id hid => by
    have hopen := isOver_eq_false_of_step hs ho
    have hold := h.ahead hopen id hid
    rcases step_kinds hs with ⟨hwork, -⟩ | ⟨device, -, rfl⟩ | q
    · exact hold.deed ((hset hopen).deed hwork hs ho)
    · exact hold.add hopen device
    · exact hold.quiet q.toQuiet (q.reader hs)
  refine ⟨h.sorted, ?_, hahead⟩
  intro id hid pump hp
  cases ho : t.isOver with
  | false => exact (hahead ho id hid).reader pump hp
  | true =>
    obtain ⟨pump', hp', he⟩ := reader_of_over hset hs ho pump hp
    exact he ▸ h.reader id hid pump' hp'

/-- A read is issued on the device of the pump. -/
theorem Ordered.issue {ids : List DeviceId} (h : Ordered ids s)
    (hset : s.isOver = false → Settled s) {pump : ReadPump} (hp : s.reader = some pump) :
    Ordered (ids ++ [pump.id]) s := by
  refine ⟨List.pairwise_append.2 ⟨h.sorted, List.pairwise_singleton _ _, ?_⟩, ?_, ?_⟩
  · intro id hid id' hid'
    rw [List.mem_singleton.1 hid']
    exact h.reader id hid pump hp
  · intro id hid pump' hp'
    rcases List.mem_append.1 hid with hid | hid
    · exact h.reader id hid pump' hp'
    · exact Nat.le_of_eq (by rw [List.mem_singleton.1 hid, Option.some.inj (hp.symm.trans hp')])
  · intro ho id hid
    rcases List.mem_append.1 hid with hid | hid
    · exact h.ahead ho id hid
    · rw [List.mem_singleton.1 hid]
      exact (hset ho).tended.coherent.ahead hp

theorem ordered_of_run {settings : MultiplexerSettings} (h : Run (.init settings) ms s) :
    Ordered (((State.init settings).log issuedReads ms).map (·.1)) s := by
  refine h.snocRec (p := fun ms s =>
    Ordered (((State.init settings).log issuedReads ms).map (·.1)) s) ?_ ?_
  · exact ⟨.nil, fun _ hid => (by cases hid), fun _ _ hid => (by cases hid)⟩
  · intro ms s m t hrun ih hm
    have hold := ih.step (settled_of_run hrun) hm
    rw [hrun.log_snoc hm, List.map_append]
    cases m with
    | pollReader =>
      cases hr : t.reader with
      | none => simpa [issuedReads, inFlight_eq_none hr] using hold
      | some pump =>
        cases hstage : pump.stage.reading? with
        | none => simpa [issuedReads, inFlight_of_reader hr, hstage] using hold
        | some r =>
          simpa [issuedReads, inFlight_of_reader hr, hstage] using
            hold.issue (settled_of_run (hrun.snoc hm)) hr
    | _ => simpa [issuedReads] using hold

end

end State

end SeamlessTunnel.Multiplexer
