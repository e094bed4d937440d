import SeamlessTunnel.Proofs.Multiplexer.Mailbox
import SeamlessTunnel.Proofs.Multiplexer.Moves
import SeamlessTunnel.Proofs.Multiplexer.Runs
import SeamlessTunnel.Proofs.Multiplexer.Tended
/-
  SeamlessTunnel.Proofs.Multiplexer.Settling — every move keeps the coordinator's work done.

  What callers, pumps and devices do leaves the coordinator's records alone (`Quiet`), and
  what the coordinator does is one of its handlers. So in every state of a run the
  coordinator is over or has nothing left to do but to wait (`settled_of_run`).
-/

namespace SeamlessTunnel.Multiplexer

/-- Whether a move is one of the coordinator. -/
def Move.isWork : Move → Bool
  | .control | .joinReader | .joinWriter | .joinCloser _ => true
  | _ => false

namespace State

/-- A move that leaves the coordinator's records alone. -/
structure Quiet (s t : State) : Prop where
  slots : t.slots = s.slots
  coordinator : t.coordinator = s.coordinator
  parked : t.parked = s.parked
  closers : t.closerIds = s.closerIds
  numbers : t.numbers = s.numbers
  added : t.added = s.added
  holdsReads : t.holdsReads = s.holdsReads
  holdsWrites : t.holdsWrites = s.holdsWrites
  live : t.hasHandle = true → s.hasHandle = true

/-- A move of others. Only a pump's own moves take requests from its queue, only calls send
    messages, only returns change closers, callers go away only of their own accord, and no
    device comes too late. -/
structure Aside (s : State) (m : Move) (t : State) : Prop extends Quiet s t where
  reads : (t.reader = s.reader ∧ s.reads.items <+: t.reads.items) ∨ m = .pollReader ∨
    ∃ out, m = .readReturned out
  writes : (t.writer = s.writer ∧ s.writes.items <+: t.writes.items) ∨ m = .pollWriter ∨
    ∃ out, m = .writeReturned out
  messages : t.control = s.control ∨ ∃ c op k, m = .call c op ∧ controlOf c op = some k ∧
    t.control = s.control ++ [k]
  tasks : t.closers = s.closers ∨ ∃ id out, m = .closeReturned id out
  gone : t.gone = s.gone ∨ ∃ c, m = .cancel c ∧ t.gone = s.gone ++ [c]
  late : t.lateCloses.Sublist s.lateCloses

section

variable {s t u : State} {c : Caller} {id : DeviceId} {a : Answer} {cs : List Caller}

/-! ## Quiet acts -/

namespace Quiet

theorem refl : Quiet s s :=
  ⟨rfl, rfl, rfl, rfl, rfl, rfl, rfl, rfl, fun h => h⟩

theorem trans (h : Quiet s t) (h' : Quiet t u) : Quiet s u :=
  ⟨h'.slots.trans h.slots, h'.coordinator.trans h.coordinator, h'.parked.trans h.parked,
    h'.closers.trans h.closers, h'.numbers.trans h.numbers, h'.added.trans h.added,
    h'.holdsReads.trans h.holdsReads, h'.holdsWrites.trans h.holdsWrites,
    fun hl => h.live (h'.live hl)⟩

theorem answer : Quiet s (s.answer c a) :=
  ⟨rfl, rfl, rfl, rfl, rfl, rfl, rfl, rfl, fun h => hasHandle_answer ▸ h⟩

theorem refuse : Quiet s (s.refuse cs) :=
  refuse_rec (p := Quiet s) .refl fun _ _ h => h.trans .answer

theorem shutReads : Quiet s s.shutReads :=
  trans (t := { s with reads := s.reads.shut }) ⟨rfl, rfl, rfl, rfl, rfl, rfl, rfl, rfl, fun h => h⟩ .refuse

theorem shutWrites : Quiet s s.shutWrites :=
  trans (t := { s with writes := s.writes.shut }) ⟨rfl, rfl, rfl, rfl, rfl, rfl, rfl, rfl, fun h => h⟩ .refuse

theorem releaseEvents : Quiet s s.releaseEvents := by
  unfold State.releaseEvents
  split
  · exact .refl
  · exact ⟨rfl, rfl, rfl, rfl, rfl, rfl, rfl, rfl, fun h => h⟩

theorem stopReader {pump : ReadPump} {exit : ReadExit} : Quiet s (s.stopReader pump exit) := by
  unfold State.stopReader
  split
  · exact trans (t := { s with reader := none }) ⟨rfl, rfl, rfl, rfl, rfl, rfl, rfl, rfl, fun h => h⟩
      (shutReads.trans .refuse)
  · exact ⟨rfl, rfl, rfl, rfl, rfl, rfl, rfl, rfl, fun h => h⟩

theorem stopWriter {pump : WritePump} {exit : WriteExit} : Quiet s (s.stopWriter pump exit) := by
  unfold State.stopWriter
  simp only []
  split
  · exact trans (t := { s.dropForwarder with writer := none })
      ⟨rfl, rfl, rfl, rfl, rfl, rfl, rfl, rfl, fun h => h⟩ .shutWrites
  · exact ⟨rfl, rfl, rfl, rfl, rfl, rfl, rfl, rfl, fun h => h⟩

theorem call {op : Operation} (h : s.call c op = some t) : Quiet s t := by
  obtain ⟨⟨hheld, -, -⟩, hcases⟩ := call_cases h
  have hlive : s.hasHandle = true := by simp [hasHandle, hheld]
  have henlist : Quiet s (s.enlist c) := ⟨rfl, rfl, rfl, rfl, rfl, rfl, rfl, rfl, fun _ => hlive⟩
  rcases hcases with ⟨size, -, rfl⟩ | ⟨packet, -, rfl⟩ | ⟨-, rfl⟩ | ⟨m, hm, -, rfl⟩ | rfl
  · exact ⟨rfl, rfl, rfl, rfl, rfl, rfl, rfl, rfl, fun _ => hlive⟩
  · exact ⟨rfl, rfl, rfl, rfl, rfl, rfl, rfl, rfl, fun _ => hlive⟩
  · exact ⟨rfl, rfl, rfl, rfl, rfl, rfl, rfl, rfl, fun _ => hlive⟩
  · refine ⟨rfl, rfl, rfl, rfl, ?_, rfl, rfl, rfl, fun _ => hlive⟩
    have hn : m.number? = none := by
      have hc := caller?_controlOf hm
      cases m with
      | add id device => cases hc
      | _ => rfl
    simp [State.numbers, enlist, hn]
  · exact henlist.trans .refuse

theorem enter (h : s.enter c = some t) : Quiet s t := by
  rcases enter_cases h with ⟨reads, -, rfl⟩ | ⟨writes, -, rfl⟩
  · exact ⟨rfl, rfl, rfl, rfl, rfl, rfl, rfl, rfl, fun h => h⟩
  · exact ⟨rfl, rfl, rfl, rfl, rfl, rfl, rfl, rfl, fun h => h⟩

/-- Fewer calls hold the multiplexer less. -/
theorem of_calls {p : Call → Bool} (hcalls : t.calls = s.calls.filter p) (hheld : t.held = s.held) :
    t.hasHandle = true → s.hasHandle = true := by
  simp only [hasHandle, hcalls, hheld, Bool.or_eq_true, Bool.not_eq_true', List.isEmpty_eq_false_iff]
  rintro (hh | hne)
  · exact .inl hh
  · exact .inr fun hn => hne (by rw [hn]; rfl)

theorem leave (h : s.leave c = some t) : Quiet s t := by
  obtain ⟨a, -, rfl⟩ := leave_cases h
  exact trans (t := { s with calls := s.calls.filter (·.caller != c) })
    ⟨rfl, rfl, rfl, rfl, rfl, rfl, rfl, rfl, of_calls rfl rfl⟩ .releaseEvents

theorem cancel (h : s.cancel c = some t) : Quiet s t := by
  obtain ⟨-, rfl⟩ := cancel_cases h
  exact trans (t := s.quit c) ⟨rfl, rfl, rfl, rfl, rfl, rfl, rfl, rfl, of_calls rfl rfl⟩ .releaseEvents

theorem release (h : s.release = some t) : Quiet s t := by
  unfold State.release at h
  split at h
  · rename_i hheld
    obtain rfl := Option.some.inj h
    exact trans (t := { s with held := false })
      ⟨rfl, rfl, rfl, rfl, rfl, rfl, rfl, rfl, fun _ => by simp [hasHandle, hheld]⟩ .releaseEvents
  · cases h

theorem pollReader (h : s.pollReader = some t) : Quiet s t := by
  obtain ⟨pump, -, ⟨r, -, rfl⟩ | ⟨-, -, rfl⟩ | ⟨r, reads, -, -, -, rfl⟩ | ⟨-, -, -, rfl⟩⟩ :=
    pollReader_cases h
  · exact ⟨rfl, rfl, rfl, rfl, rfl, rfl, rfl, rfl, fun h => h⟩
  · exact .stopReader
  · exact ⟨rfl, rfl, rfl, rfl, rfl, rfl, rfl, rfl, fun h => h⟩
  · exact .stopReader

theorem readReturned {out : Outcome Packet} (h : s.readReturned out = some t) : Quiet s t := by
  obtain ⟨pump, r, -, -, ⟨p, -, rfl⟩ | ⟨e, -, -, rfl⟩ | ⟨e, -, -, rfl⟩ | ⟨-, rfl⟩⟩ :=
    readReturned_cases h
  · exact trans (t := { s with reader := some { pump with stage := .ready none } })
      ⟨rfl, rfl, rfl, rfl, rfl, rfl, rfl, rfl, fun h => h⟩ .answer
  · exact .stopReader
  · exact answer.trans .stopReader
  · refine trans (t := { s with reader := if _ then none else _ })
      ⟨rfl, rfl, rfl, rfl, rfl, rfl, rfl, rfl, fun h => h⟩ (refuse.trans .shutReads)

theorem pollWriter (h : s.pollWriter = some t) : Quiet s t := by
  obtain ⟨pump, -, ⟨-, -, rfl⟩ | ⟨-, rfl⟩ | ⟨r, writes, -, -, -, rfl⟩ | ⟨-, -, -, rfl⟩⟩ :=
    pollWriter_cases h
  · exact .stopWriter
  · exact ⟨rfl, rfl, rfl, rfl, rfl, rfl, rfl, rfl, fun h => h⟩
  · exact ⟨rfl, rfl, rfl, rfl, rfl, rfl, rfl, rfl, fun h => h⟩
  · exact .stopWriter

theorem writeReturned {out : Outcome Nat} (h : s.writeReturned out = some t) : Quiet s t := by
  obtain ⟨pump, r, -, -, ⟨a, -, rfl⟩ | ⟨-, rfl⟩⟩ := writeReturned_cases h
  · exact trans (t := { s with writer := some { pump with stage := .ready } })
      ⟨rfl, rfl, rfl, rfl, rfl, rfl, rfl, rfl, fun h => h⟩ .answer
  · refine trans (t := { s with writer := if _ then none else _ })
      ⟨rfl, rfl, rfl, rfl, rfl, rfl, rfl, rfl, fun h => h⟩ (refuse.trans .shutWrites)

theorem eventReturned {out : Outcome (Option Event)} (h : s.eventReturned out = some t) :
    Quiet s t := by
  obtain ⟨events, forwarder, rfl⟩ := eventReturned_eq h
  exact ⟨rfl, rfl, rfl, rfl, rfl, rfl, rfl, rfl, fun h => h⟩

theorem pollForwarder (h : s.pollForwarder = some t) : Quiet s t := by
  obtain ⟨events, forwarder, rfl⟩ := pollForwarder_eq h
  exact ⟨rfl, rfl, rfl, rfl, rfl, rfl, rfl, rfl, fun h => h⟩

theorem takeEvent (h : s.takeEvent = some t) : Quiet s t := by
  obtain ⟨c, rest, a, events, -, rfl⟩ := takeEvent_eq h
  exact trans (t := { s with events, listeners := rest })
    ⟨rfl, rfl, rfl, rfl, rfl, rfl, rfl, rfl, fun h => h⟩ .answer

theorem closeReturned {out : Outcome Unit} (h : s.closeReturned id out = some t) : Quiet s t := by
  obtain ⟨-, rfl⟩ := closeReturned_cases h
  refine ⟨rfl, rfl, rfl, ?_, rfl, rfl, rfl, rfl, fun h => h⟩
  simp only [closerIds, List.map_map]
  refine List.map_congr_left ?_
  intro k _
  simp only [Function.comp]
  split <;> rfl

theorem lateCloseReturned (h : s.lateCloseReturned id = some t) : Quiet s t := by
  obtain rfl := lateCloseReturned_cases h
  exact ⟨rfl, rfl, rfl, rfl, rfl, rfl, rfl, rfl, fun h => h⟩

theorem answered {ticket : Nat} {out : Outcome Answer} (h : s.answered ticket out = some t) :
    Quiet s t := by
  obtain ⟨q, a, -, rfl⟩ := answered_cases h
  exact trans (t := { s with queries := s.queries.filter (·.ticket != ticket) })
    ⟨rfl, rfl, rfl, rfl, rfl, rfl, rfl, rfl, fun h => h⟩ .answer

end Quiet

/-! ## Quiet moves and settled states -/

theorem Settled.quiet (h : Settled s) (q : Quiet s t) (hread : t.readId = s.readId)
    (hwritten : t.writtenId = s.writtenId) (hreads : t.ReadExits) (hwrites : t.WriteExits) :
    Settled t :=
  ⟨h.tended.congr (h.tended.coherent.congr q.slots (q.numbers ▸ .refl _) (q.added ▸ Nat.le_refl _)
      hread hwritten q.closers q.holdsReads q.holdsWrites) q.slots hread hwritten q.parked
      q.coordinator q.live hreads hwrites,
    fun cause hc => q.slots ▸ h.listed cause (q.coordinator ▸ hc)⟩

theorem Quiet.control (q : Quiet s t) :
    t.control.filterMap (·.number?) = s.control.filterMap (·.number?) := by
  have hn := q.numbers
  rw [State.numbers, State.numbers, q.slots] at hn
  exact List.append_cancel_left hn

theorem Quiet.inactive (q : Quiet s t) (h : s.Inactive id) : t.Inactive id := by
  intro k hk
  rw [q.slots] at hk
  exact h k hk

theorem Quiet.dead (q : Quiet s t) (h : s.hasHandle = false) : t.hasHandle = false := by
  by_contra ht
  rw [q.live (by simpa using ht)] at h
  cases h

theorem Quiet.readExits (q : Quiet s t) (hreader : t.reader = s.reader) (h : s.ReadExits) :
    t.ReadExits := by
  intro pump exit hp hs
  have hfits := h pump exit (hreader ▸ hp) hs
  cases exit with
  | drained carry => exact q.inactive hfits
  | failed => trivial
  | disconnected => exact q.dead hfits

theorem Quiet.writeExits (q : Quiet s t) (hwriter : t.writer = s.writer) (h : s.WriteExits) :
    t.WriteExits := by
  intro pump exit hp hs
  have hfits := h pump exit (hwriter ▸ hp) hs
  cases exit with
  | drained => exact q.inactive hfits
  | disconnected => exact q.dead hfits

/-- A move of which the pumps take no notice. -/
theorem Settled.aside (h : Settled s) (q : Quiet s t) (hreader : t.reader = s.reader)
    (hwriter : t.writer = s.writer) : Settled t :=
  h.quiet q (by rw [readId, hreader]; rfl) (by rw [writtenId, hwriter]; rfl)
    (q.readExits hreader h.tended.reads.exits) (q.writeExits hwriter h.tended.writes.exits)

/-- A move of the read pump, which goes on or stops for a reason. -/
theorem Settled.readerMoved (h : Settled s) (q : Quiet s t) {pump : ReadPump} {stage : ReadStage}
    (hr : s.reader = some pump) (hr' : t.reader = some { pump with stage })
    (hwriter : t.writer = s.writer)
    (hfits : ∀ exit, stage = .stopped exit → s.ReadExitFits pump.id exit) : Settled t := by
  refine h.quiet q ?_ (by rw [writtenId, hwriter]; rfl) ?_
    (q.writeExits hwriter h.tended.writes.exits)
  · rw [readId_of_reader hr, readId_of_reader hr']
  · intro pump' exit hp hs
    rw [hr'] at hp
    obtain rfl := Option.some.inj hp
    have := hfits exit hs
    cases exit with
    | drained carry => exact q.inactive this
    | failed => trivial
    | disconnected => exact q.dead this

/-- A move of the write pump, which goes on or stops for a reason. -/
theorem Settled.writerMoved (h : Settled s) (q : Quiet s t) {pump : WritePump} {stage : WriteStage}
    (hw : s.writer = some pump) (hw' : t.writer = some { pump with stage })
    (hreader : t.reader = s.reader)
    (hfits : ∀ exit, stage = .stopped exit → s.WriteExitFits pump.id exit) : Settled t := by
  refine h.quiet q (by rw [readId, hreader]; rfl) ?_ (q.readExits hreader h.tended.reads.exits) ?_
  · rw [writtenId_of_writer hw, writtenId_of_writer hw']
  · intro pump' exit hp hs
    rw [hw'] at hp
    obtain rfl := Option.some.inj hp
    have := hfits exit hs
    cases exit with
    | drained => exact q.inactive this
    | disconnected => exact q.dead this

theorem Coherent.inactive_of_isDraining (h : Coherent s) (hd : s.isDraining id = true) :
    s.Inactive id := by
  intro k hk he ha
  rw [isDraining, ← he, h.slot?_eq_some hk] at hd
  simp [ha] at hd

theorem Coherent.inactive_of_isClosed (h : Coherent s) (hd : s.isClosed id = true) :
    s.Inactive id := by
  intro k hk he ha
  rw [isClosed, ← he, h.slot?_eq_some hk] at hd
  simp [ha] at hd

theorem reader_stopReader {pump : ReadPump} {exit : ReadExit} (ho : s.isOver = false) :
    (s.stopReader pump exit).reader = some { pump with stage := .stopped exit } := by
  rw [stopReader, ho]
  rfl

theorem writer_stopReader {pump : ReadPump} {exit : ReadExit} :
    (s.stopReader pump exit).writer = s.writer := by
  unfold stopReader
  split
  · simp [shutReads]
  · rfl

theorem Settled.pollReader (h : Settled s) (ho : s.isOver = false) (hs : s.pollReader = some t) :
    Settled t := by
  have q := Quiet.pollReader hs
  obtain ⟨pump, hp, ⟨r, -, rfl⟩ | ⟨-, hc, rfl⟩ | ⟨r, reads, -, -, -, rfl⟩ | ⟨-, -, hd, rfl⟩⟩ :=
    pollReader_cases hs
  · refine h.readerMoved q hp rfl rfl ?_
    intro exit he
    split at he <;> cases he
  · refine h.readerMoved q hp (reader_stopReader ho) writer_stopReader ?_
    intro exit he
    obtain rfl := ReadStage.stopped.inj he
    exact h.tended.coherent.inactive_of_isClosed (hc.resolve_left (by simp [ho]))
  · refine h.readerMoved q hp rfl rfl ?_
    intro exit he
    split at he <;> cases he
  · refine h.readerMoved q hp (reader_stopReader ho) writer_stopReader ?_
    intro exit he
    obtain rfl := ReadStage.stopped.inj he
    exact hd

theorem Settled.readReturned (h : Settled s) (ho : s.isOver = false) {out : Outcome Packet}
    (hs : s.readReturned out = some t) : Settled t := by
  have q := Quiet.readReturned hs
  obtain ⟨pump, r, hp, -, ⟨p, -, rfl⟩ | ⟨e, -, hd, rfl⟩ | ⟨e, -, -, rfl⟩ | ⟨-, rfl⟩⟩ :=
    readReturned_cases hs
  · exact h.readerMoved q hp rfl rfl fun exit he => by cases he
  · refine h.readerMoved q hp (reader_stopReader ho) writer_stopReader ?_
    intro exit he
    obtain rfl := ReadStage.stopped.inj he
    exact h.tended.coherent.inactive_of_isDraining hd
  · refine h.readerMoved q hp (reader_stopReader (s := s.answer r.caller (.failed e)) ho)
      writer_stopReader ?_
    intro exit he
    obtain rfl := ReadStage.stopped.inj he
    trivial
  · refine h.readerMoved q hp (show _ = some { pump with stage := .crashed } from ?_)
      (by simp [shutReads]) fun exit he => by cases he
    simp [shutReads, ho]

theorem writer_stopWriter {pump : WritePump} {exit : WriteExit} (ho : s.isOver = false) :
    (s.stopWriter pump exit).writer = some { pump with stage := .stopped exit } := by
  unfold stopWriter
  have : s.dropForwarder.isOver = false := ho
  simp [this]

@[simp] theorem reader_stopWriter {pump : WritePump} {exit : WriteExit} :
    (s.stopWriter pump exit).reader = s.reader := by
  unfold stopWriter
  simp only []
  split
  · simp [shutWrites, dropForwarder]
  · rfl

theorem Settled.pollWriter (h : Settled s) (ho : s.isOver = false) (hs : s.pollWriter = some t) :
    Settled t := by
  have q := Quiet.pollWriter hs
  obtain ⟨pump, hp, ⟨-, hc, rfl⟩ | ⟨-, rfl⟩ | ⟨r, writes, -, -, -, rfl⟩ | ⟨-, -, hd, rfl⟩⟩ :=
    pollWriter_cases hs
  · refine h.writerMoved q hp (writer_stopWriter ho) reader_stopWriter ?_
    intro exit he
    obtain rfl := WriteStage.stopped.inj he
    exact h.tended.coherent.inactive_of_isDraining (hc.resolve_left (by simp [ho]))
  · exact h.writerMoved q hp rfl rfl fun exit he => by cases he
  · refine h.writerMoved q hp rfl rfl ?_
    intro exit he
    split at he <;> cases he
  · refine h.writerMoved q hp (writer_stopWriter ho) reader_stopWriter ?_
    intro exit he
    obtain rfl := WriteStage.stopped.inj he
    exact hd

theorem Settled.writeReturned (h : Settled s) (ho : s.isOver = false) {out : Outcome Nat}
    (hs : s.writeReturned out = some t) : Settled t := by
  have q := Quiet.writeReturned hs
  obtain ⟨pump, r, hp, -, ⟨a, -, rfl⟩ | ⟨-, rfl⟩⟩ := writeReturned_cases hs
  · exact h.writerMoved q hp rfl rfl fun exit he => by cases he
  · refine h.writerMoved q hp (show _ = some { pump with stage := .crashed } from ?_)
      (by simp [shutWrites]) fun exit he => by cases he
    simp [shutWrites, ho]

/-! ## Moves of the coordinator -/

theorem Quiet.query {question : Question} {default : Answer} :
    Quiet s (s.query c question default) := by
  unfold State.query
  split
  · exact .answer
  · exact ⟨rfl, rfl, rfl, rfl, rfl, rfl, rfl, rfl, fun h => h⟩

theorem reader_query {question : Question} {default : Answer} :
    (s.query c question default).reader = s.reader := by
  unfold State.query
  split <;> rfl

theorem writer_query {question : Question} {default : Answer} :
    (s.query c question default).writer = s.writer := by
  unfold State.query
  split <;> rfl

theorem Kept.beginTeardown (h : Kept s) (cause : Teardown) :
    (s.beginTeardown cause).isOver = true ∨ Settled (s.beginTeardown cause) := by
  rw [beginTeardown_eq]
  exact settled_settleTeardown (h.closeAll cause).1

theorem Settled.taken (h : Settled s) {m : Control} {rest : List Control}
    (hm : s.control = m :: rest) : Settled { s with control := rest } := by
  have hkept := h.tended.toKept.takeControl hm
  exact ⟨h.tended.congr hkept.coherent rfl rfl rfl rfl rfl (fun hl => hl) hkept.reads.exits
    hkept.writes.exits, h.listed⟩

theorem Settled.takeControl (h : Settled s) (hs : s.takeControl = some t) :
    t.isOver = true ∨ Settled t := by
  obtain ⟨hserving, ⟨m, rest, hm, rfl⟩ | ⟨-, -, rfl⟩⟩ := takeControl_cases hs
  · have htaken := h.taken hm
    have hkept := htaken.tended.toKept
    cases m with
    | add id device =>
      refine .inr ⟨h.tended.addSlot hm hserving, ?_⟩
      intro cause hc
      rw [State.handle, coordinator_addSlot, hserving] at hc
      cases hc
    | mtu c => exact .inr (htaken.aside .query reader_query writer_query)
    | name c => exact .inr (htaken.aside .query reader_query writer_query)
    | count c => exact .inr (htaken.aside .answer rfl rfl)
    | shutdown c => exact hkept.beginTeardown _
    | close c => exact hkept.beginTeardown _
  · exact h.tended.toKept.beginTeardown _

theorem isOver_crash : s.crash.isOver = true := by
  simp [isOver, coordinator_crash]

theorem Settled.joinReader (h : Settled s) (hs : s.joinReader = some t) :
    t.isOver = true ∨ Settled t := by
  obtain ⟨-, pump, hp, ⟨exit, he, rfl⟩ | ⟨-, rfl⟩⟩ := joinReader_cases hs
  · exact settled_settleTeardown (h.tended.onReadExit hp he)
  · exact .inl isOver_crash

theorem Settled.joinWriter (h : Settled s) (hs : s.joinWriter = some t) :
    t.isOver = true ∨ Settled t := by
  obtain ⟨-, pump, hp, ⟨exit, he, rfl⟩ | ⟨-, rfl⟩⟩ := joinWriter_cases hs
  · exact settled_settleTeardown (h.tended.onWriteExit hp he)
  · exact .inl isOver_crash

theorem Settled.joinCloser (h : Settled s) (hs : s.joinCloser id = some t) :
    t.isOver = true ∨ Settled t := by
  obtain ⟨-, closer, hf, ⟨error, -, rfl⟩ | ⟨-, rfl⟩⟩ := joinCloser_cases hs
  · have hid : closer.id = id := by simpa using List.find?_some hf
    have hc : id ∈ s.closerIds := List.mem_map.2 ⟨closer, List.mem_of_find?_eq_some hf, hid⟩
    exact settled_settleTeardown (h.tended.onClosed hc error)
  · exact .inl isOver_crash

theorem add_eq (ho : s.isOver = false) {device : DeviceRef} : (s.add device).2 =
    { s with added := s.added + 1, control := s.control ++ [.add s.nextId device] } := by
  simp [State.add, ho]

/-- A device that is handed in is counted, and may be sent to the coordinator. -/
theorem add_parts (s : State) (device : DeviceRef) :
    ∃ control, (s.add device).2 = { s with control, added := s.added + 1 } := by
  unfold State.add
  split
  · exact ⟨_, rfl⟩
  · exact ⟨_, rfl⟩

/-- A new device gets a number of its own. -/
theorem Coherent.add (h : Coherent s) {device : DeviceRef} :
    Coherent { s with added := s.added + 1, control := s.control ++ [.add s.nextId device] } := by
  have hnumbers : State.numbers { s with
      added := s.added + 1, control := s.control ++ [.add s.nextId device] } =
      s.numbers ++ [s.added + 1] := by
    simp [numbers, Control.number?, nextId]
  refine ⟨?_, ?_, h.agrees, h.newest, h.reader, h.writer, h.closers, h.oldest, h.reads, h.writes⟩
  · rw [hnumbers]
    refine List.pairwise_append.2 ⟨h.ascending, List.pairwise_singleton _ _, ?_⟩
    intro n hn m hm
    rw [List.mem_singleton.1 hm]
    exact Nat.lt_succ_of_le (h.counted n hn)
  · intro n hn
    rw [hnumbers] at hn
    rcases List.mem_append.1 hn with hn | hn
    · exact Nat.le_succ_of_le (h.counted n hn)
    · exact Nat.le_of_eq (List.mem_singleton.1 hn)

theorem Settled.add (h : Settled s) (ho : s.isOver = false) (device : DeviceRef) :
    Settled (s.add device).2 := by
  rw [add_eq ho]
  exact ⟨h.tended.congr h.tended.coherent.add rfl rfl rfl rfl rfl (fun hl => hl)
    h.tended.reads.exits h.tended.writes.exits, h.listed⟩

/-! ## All moves -/

theorem Quiet.isOver (q : Quiet s t) : t.isOver = s.isOver := by
  rw [State.isOver, q.coordinator]
  rfl

theorem isOver_add (device : DeviceRef) : (s.add device).2.isOver = s.isOver := by
  obtain ⟨_, he⟩ := add_parts s device
  rw [he]
  rfl

theorem releaseEvents_eq (s : State) : ∃ events, s.releaseEvents = { s with events } := by
  unfold State.releaseEvents
  split
  · exact ⟨_, rfl⟩
  · exact ⟨_, rfl⟩

@[simp] theorem reader_releaseEvents : s.releaseEvents.reader = s.reader := by
  obtain ⟨_, he⟩ := releaseEvents_eq s
  rw [he]

@[simp] theorem writer_releaseEvents : s.releaseEvents.writer = s.writer := by
  obtain ⟨_, he⟩ := releaseEvents_eq s
  rw [he]

/-! ## Moves of others -/

/-- What moves of others mostly leave as it is. -/
def rest (s : State) :=
  (s.reader, s.reads.items, s.writer, s.writes.items, s.control, s.closers, s.gone)

theorem stopReader_eq (s : State) (pump : ReadPump) (exit : ReadExit) :
    ∃ reader calls reads, s.stopReader pump exit = { s with reader, calls, reads } := by
  unfold State.stopReader
  split
  · obtain ⟨_, reads, hs⟩ := shutReads_eq { s with reader := none }
    obtain ⟨calls, hr⟩ := refuse_eq (State.shutReads { s with reader := none }) exit.callers
    exact ⟨none, calls, reads, by rw [hr, hs]⟩
  · exact ⟨_, _, _, rfl⟩

theorem stopWriter_eq (s : State) (pump : WritePump) (exit : WriteExit) :
    ∃ writer calls writes forwarder events, s.stopWriter pump exit =
      { s with writer, calls, writes, forwarder, events } := by
  unfold State.stopWriter
  simp only []
  split
  · obtain ⟨calls, writes, hs⟩ := shutWrites_eq { s.dropForwarder with writer := none }
    exact ⟨_, _, _, _, _, hs⟩
  · exact ⟨_, _, _, _, _, rfl⟩

theorem pollReader_eq (hs : s.pollReader = some t) :
    ∃ reader calls reads, t = { s with reader, calls, reads } := by
  obtain ⟨pump, -, ⟨r, -, rfl⟩ | ⟨-, -, rfl⟩ | ⟨r, reads, -, -, -, rfl⟩ | ⟨-, -, -, rfl⟩⟩ :=
    pollReader_cases hs
  · exact ⟨_, _, _, rfl⟩
  · exact stopReader_eq s pump (.drained none)
  · exact ⟨_, _, _, rfl⟩
  · exact stopReader_eq s pump .disconnected

theorem readReturned_eq {out : Outcome Packet} (hs : s.readReturned out = some t) :
    ∃ reader calls reads, t = { s with reader, calls, reads } := by
  obtain ⟨pump, r, -, -, ⟨p, -, rfl⟩ | ⟨e, -, -, rfl⟩ | ⟨e, -, -, rfl⟩ | ⟨-, rfl⟩⟩ :=
    readReturned_cases hs
  · exact ⟨_, _, _, rfl⟩
  · exact stopReader_eq s pump (.drained (some r))
  · obtain ⟨_, calls, reads, he⟩ := stopReader_eq (s.answer r.caller (.failed e)) pump .failed
    exact ⟨_, calls, reads, he⟩
  · let crashed := if s.isOver then none else some { pump with stage := .crashed }
    obtain ⟨calls, reads, he⟩ := shutReads_eq (State.refuse { s with reader := crashed } [r.caller])
    exact ⟨crashed, calls, reads, he⟩

theorem pollWriter_eq (hs : s.pollWriter = some t) :
    ∃ writer calls writes forwarder events,
      t = { s with writer, calls, writes, forwarder, events } := by
  obtain ⟨pump, -, ⟨-, -, rfl⟩ | ⟨-, rfl⟩ | ⟨r, writes, -, -, -, rfl⟩ | ⟨-, -, -, rfl⟩⟩ :=
    pollWriter_cases hs
  · exact stopWriter_eq s pump .drained
  · exact ⟨_, _, _, _, _, rfl⟩
  · exact ⟨_, _, _, _, _, rfl⟩
  · exact stopWriter_eq s pump .disconnected

theorem writeReturned_eq {out : Outcome Nat} (hs : s.writeReturned out = some t) :
    ∃ writer calls writes, t = { s with writer, calls, writes } := by
  obtain ⟨pump, r, -, -, ⟨a, -, rfl⟩ | ⟨-, rfl⟩⟩ := writeReturned_cases hs
  · exact ⟨_, _, _, rfl⟩
  · let crashed := if s.isOver then none else some { pump with stage := .crashed }
    obtain ⟨calls, writes, he⟩ := shutWrites_eq (State.refuse { s with writer := crashed } [r.caller])
    exact ⟨crashed, calls, writes, he⟩

namespace Aside

theorem of_rest {m : Move} (q : Quiet s t) (h : t.rest = s.rest)
    (hlate : t.lateCloses.Sublist s.lateCloses) : Aside s m t := by
  simp only [rest, Prod.mk.injEq] at h
  obtain ⟨hreader, hreads, hwriter, hwrites, hcontrol, hclosers, hgone⟩ := h
  exact ⟨q, .inl ⟨hreader, hreads ▸ List.prefix_rfl⟩, .inl ⟨hwriter, hwrites ▸ List.prefix_rfl⟩,
    .inl hcontrol, .inl hclosers, .inl hgone, hlate⟩

theorem call {op : Operation} (hs : s.call c op = some t) : Aside s (.call c op) t := by
  have q := Quiet.call hs
  obtain ⟨-, ⟨_, -, rfl⟩ | ⟨_, -, rfl⟩ | ⟨-, rfl⟩ | ⟨k, hk, -, rfl⟩ | rfl⟩ := call_cases hs
  · exact ⟨q, .inl ⟨rfl, Mailbox.prefix_send⟩, .inl ⟨rfl, List.prefix_rfl⟩, .inl rfl, .inl rfl,
      .inl rfl, .refl _⟩
  · exact ⟨q, .inl ⟨rfl, List.prefix_rfl⟩, .inl ⟨rfl, Mailbox.prefix_send⟩, .inl rfl, .inl rfl,
      .inl rfl, .refl _⟩
  · exact .of_rest q rfl (.refl _)
  · exact ⟨q, .inl ⟨rfl, List.prefix_rfl⟩, .inl ⟨rfl, List.prefix_rfl⟩,
      .inr ⟨c, op, k, rfl, hk, rfl⟩, .inl rfl, .inl rfl, .refl _⟩
  · exact .of_rest q rfl (.refl _)

theorem enter (hs : s.enter c = some t) : Aside s (.enter c) t := by
  have q := Quiet.enter hs
  obtain ⟨reads, hr, rfl⟩ | ⟨writes, hw, rfl⟩ := enter_cases hs
  · exact ⟨q, .inl ⟨rfl, Mailbox.prefix_enter hr⟩, .inl ⟨rfl, List.prefix_rfl⟩, .inl rfl, .inl rfl,
      .inl rfl, .refl _⟩
  · exact ⟨q, .inl ⟨rfl, List.prefix_rfl⟩, .inl ⟨rfl, Mailbox.prefix_enter hw⟩, .inl rfl, .inl rfl,
      .inl rfl, .refl _⟩

theorem leave (hs : s.leave c = some t) : Aside s (.leave c) t := by
  have q := Quiet.leave hs
  obtain ⟨_, -, rfl⟩ := leave_cases hs
  obtain ⟨_, he⟩ := releaseEvents_eq { s with calls := s.calls.filter (·.caller != c) }
  exact .of_rest q (by rw [he]; rfl) (by rw [he])

theorem cancel (hs : s.cancel c = some t) : Aside s (.cancel c) t := by
  have q := Quiet.cancel hs
  obtain ⟨-, rfl⟩ := cancel_cases hs
  obtain ⟨_, he⟩ := releaseEvents_eq (s.quit c)
  rw [he] at q ⊢
  exact ⟨q, .inl ⟨rfl, List.prefix_rfl⟩, .inl ⟨rfl, List.prefix_rfl⟩, .inl rfl, .inl rfl,
    .inr ⟨c, rfl, rfl⟩, .refl _⟩

theorem release (hs : s.release = some t) : Aside s .release t := by
  have q := Quiet.release hs
  unfold State.release at hs
  split at hs
  · obtain rfl := Option.some.inj hs
    obtain ⟨_, he⟩ := releaseEvents_eq { s with held := false }
    exact .of_rest q (by rw [he]; rfl) (by rw [he])
  · cases hs

theorem pollReader (hs : s.pollReader = some t) : Aside s .pollReader t := by
  have q := Quiet.pollReader hs
  obtain ⟨_, _, _, rfl⟩ := pollReader_eq hs
  exact ⟨q, .inr (.inl rfl), .inl ⟨rfl, List.prefix_rfl⟩, .inl rfl, .inl rfl, .inl rfl,
    .refl _⟩

theorem readReturned {out : Outcome Packet} (hs : s.readReturned out = some t) :
    Aside s (.readReturned out) t := by
  have q := Quiet.readReturned hs
  obtain ⟨_, _, _, rfl⟩ := readReturned_eq hs
  exact ⟨q, .inr (.inr ⟨out, rfl⟩), .inl ⟨rfl, List.prefix_rfl⟩, .inl rfl, .inl rfl, .inl rfl,
    .refl _⟩

theorem pollWriter (hs : s.pollWriter = some t) : Aside s .pollWriter t := by
  have q := Quiet.pollWriter hs
  obtain ⟨_, _, _, _, _, rfl⟩ := pollWriter_eq hs
  exact ⟨q, .inl ⟨rfl, List.prefix_rfl⟩, .inr (.inl rfl), .inl rfl, .inl rfl, .inl rfl,
    .refl _⟩

theorem writeReturned {out : Outcome Nat} (hs : s.writeReturned out = some t) :
    Aside s (.writeReturned out) t := by
  have q := Quiet.writeReturned hs
  obtain ⟨_, _, _, rfl⟩ := writeReturned_eq hs
  exact ⟨q, .inl ⟨rfl, List.prefix_rfl⟩, .inr (.inr ⟨out, rfl⟩), .inl rfl, .inl rfl, .inl rfl,
    .refl _⟩

end Aside

/-- Only a coordinator that still works makes moves. -/
theorem isOver_of_isWork {m : Move} (hm : m.isWork = true) (hs : s.step m = some t) :
    s.isOver = false := by
  cases m with
  | control => simp [isOver, (takeControl_cases hs).1]
  | joinReader => exact (joinReader_cases hs).1
  | joinWriter => exact (joinWriter_cases hs).1
  | joinCloser id => exact (joinCloser_cases hs).1
  | _ => cases hm

theorem step_add {device : DeviceRef} (hs : s.step (.add device) = some t) :
    t = (s.add device).2 := by
  simp only [State.step] at hs
  split at hs
  · exact (Option.some.inj hs).symm
  · cases hs

/-- The coordinator makes a move, a device is handed in, or the coordinator takes no
    notice. -/
theorem step_kinds {m : Move} (hs : s.step m = some t) : (m.isWork = true ∧ s.isOver = false) ∨
    (∃ device, m = .add device ∧ t = (s.add device).2) ∨ Aside s m t := by
  cases m with
  | call c op => exact .inr (.inr (.call hs))
  | enter c => exact .inr (.inr (.enter hs))
  | leave c => exact .inr (.inr (.leave hs))
  | cancel c => exact .inr (.inr (.cancel hs))
  | add device => exact .inr (.inl ⟨device, rfl, step_add hs⟩)
  | release => exact .inr (.inr (.release hs))
  | control => exact .inl ⟨rfl, isOver_of_isWork rfl hs⟩
  | joinReader => exact .inl ⟨rfl, isOver_of_isWork rfl hs⟩
  | joinWriter => exact .inl ⟨rfl, isOver_of_isWork rfl hs⟩
  | joinCloser id => exact .inl ⟨rfl, isOver_of_isWork rfl hs⟩
  | pollReader => exact .inr (.inr (.pollReader hs))
  | pollWriter => exact .inr (.inr (.pollWriter hs))
  | pollForwarder =>
    have q := Quiet.pollForwarder hs
    obtain ⟨_, _, rfl⟩ := pollForwarder_eq hs
    exact .inr (.inr (.of_rest q rfl (.refl _)))
  | takeEvent =>
    have q := Quiet.takeEvent hs
    obtain ⟨_, _, _, _, -, rfl⟩ := takeEvent_eq hs
    exact .inr (.inr (.of_rest q rfl (.refl _)))
  | readReturned out => exact .inr (.inr (.readReturned hs))
  | writeReturned out => exact .inr (.inr (.writeReturned hs))
  | eventReturned out =>
    have q := Quiet.eventReturned hs
    obtain ⟨_, _, rfl⟩ := eventReturned_eq hs
    exact .inr (.inr (.of_rest q rfl (.refl _)))
  | closeReturned id out =>
    have q := Quiet.closeReturned hs
    obtain ⟨-, rfl⟩ := closeReturned_cases hs
    exact .inr (.inr ⟨q, .inl ⟨rfl, List.prefix_rfl⟩, .inl ⟨rfl, List.prefix_rfl⟩, .inl rfl,
      .inr ⟨id, out, rfl⟩, .inl rfl, .refl _⟩)
  | lateCloseReturned id =>
    have q := Quiet.lateCloseReturned hs
    obtain rfl := lateCloseReturned_cases hs
    exact .inr (.inr (.of_rest q rfl List.filter_sublist))
  | answered ticket out =>
    have q := Quiet.answered hs
    obtain ⟨_, _, -, rfl⟩ := answered_cases hs
    exact .inr (.inr (.of_rest q rfl (.refl _)))

/-- A coordinator that is over stays so. -/
theorem isOver_of_step {m : Move} (hs : s.step m = some t) (ho : s.isOver = true) :
    t.isOver = true := by
  rcases step_kinds hs with ⟨-, hn⟩ | ⟨device, -, rfl⟩ | q
  · rw [hn] at ho
    cases ho
  · exact (isOver_add device).trans ho
  · exact q.isOver.trans ho

theorem isOver_eq_false_of_step {m : Move} (hs : s.step m = some t) (ho : t.isOver = false) :
    s.isOver = false := by
  by_contra hn
  rw [isOver_of_step hs (by simpa using hn)] at ho
  cases ho

theorem Settled.step (h : Settled s) (ho : s.isOver = false) {m : Move} (hs : s.step m = some t) :
    t.isOver = true ∨ Settled t := by
  cases m with
  | call c op =>
    obtain ⟨-, ⟨_, -, rfl⟩ | ⟨_, -, rfl⟩ | ⟨-, rfl⟩ | ⟨_, -, -, rfl⟩ | rfl⟩ := call_cases hs
    · exact .inr (h.aside (.call hs) rfl rfl)
    · exact .inr (h.aside (.call hs) rfl rfl)
    · exact .inr (h.aside (.call hs) rfl rfl)
    · exact .inr (h.aside (.call hs) rfl rfl)
    · exact .inr (h.aside (.call hs) (by simp [enlist]) (by simp [enlist]))
  | enter c =>
    obtain ⟨_, -, rfl⟩ | ⟨_, -, rfl⟩ := enter_cases hs
    · exact .inr (h.aside (.enter hs) rfl rfl)
    · exact .inr (h.aside (.enter hs) rfl rfl)
  | leave c =>
    obtain ⟨_, -, rfl⟩ := leave_cases hs
    exact .inr (h.aside (.leave hs) (by simp) (by simp))
  | cancel c =>
    obtain ⟨-, rfl⟩ := cancel_cases hs
    exact .inr (h.aside (.cancel hs) (by simp [quit]) (by simp [quit]))
  | add device =>
    obtain rfl := step_add hs
    exact .inr (h.add ho device)
  | release =>
    have q := Quiet.release hs
    simp only [State.step, State.release] at hs
    split at hs
    · obtain rfl := Option.some.inj hs
      exact .inr (h.aside q (by simp) (by simp))
    · cases hs
  | control => exact h.takeControl hs
  | joinReader => exact h.joinReader hs
  | joinWriter => exact h.joinWriter hs
  | joinCloser id => exact h.joinCloser hs
  | pollReader => exact .inr (h.pollReader ho hs)
  | pollWriter => exact .inr (h.pollWriter ho hs)
  | pollForwarder =>
    obtain ⟨_, _, rfl⟩ := pollForwarder_eq hs
    exact .inr (h.aside (.pollForwarder hs) rfl rfl)
  | takeEvent =>
    obtain ⟨_, _, _, _, -, rfl⟩ := takeEvent_eq hs
    exact .inr (h.aside (.takeEvent hs) rfl rfl)
  | readReturned out => exact .inr (h.readReturned ho hs)
  | writeReturned out => exact .inr (h.writeReturned ho hs)
  | eventReturned out =>
    obtain ⟨_, _, rfl⟩ := eventReturned_eq hs
    exact .inr (h.aside (.eventReturned hs) rfl rfl)
  | closeReturned id out =>
    obtain ⟨-, rfl⟩ := closeReturned_cases hs
    exact .inr (h.aside (.closeReturned hs) rfl rfl)
  | lateCloseReturned id =>
    obtain rfl := lateCloseReturned_cases hs
    exact .inr (h.aside (.lateCloseReturned hs) rfl rfl)
  | answered ticket out =>
    obtain ⟨_, _, -, rfl⟩ := answered_cases hs
    exact .inr (h.aside (.answered hs) rfl rfl)

theorem settled_init (settings : MultiplexerSettings) : Settled (.init settings) := by
  have hnil : ∀ k : Slot, k ∉ (State.init settings).slots := fun k hk => by cases hk
  have hcoh : Coherent (.init settings) :=
    ⟨.nil, fun n hn => (by cases hn), fun k hk => absurd hk (hnil k), .nil,
      fun id hr => (by cases hr), fun id hw => (by cases hw), fun id hc => (by cases hc),
      fun id hr => (by cases hr), rfl, rfl⟩
  exact
    { tended :=
        { coherent := hcoh
          reads := ⟨fun _ _ k hk => absurd hk (hnil k), fun hp => absurd rfl hp,
            fun _ _ hp => (by cases hp)⟩
          writes := ⟨fun _ k hk => absurd hk (hnil k), fun _ _ hp => (by cases hp)⟩
          closes := fun k hk => absurd hk (hnil k)
          retired := fun k hk => absurd hk (hnil k)
          serving := fun _ hn => absurd rfl hn
          tearing := fun cause hc => (by cases hc) }
      listed := fun cause hc => (by cases hc) }

/-- In every state of a run the coordinator is over or has left nothing undone. -/
theorem settled_of_run {settings : MultiplexerSettings} {ms : List Move}
    (h : Run (.init settings) ms s) (ho : s.isOver = false) : Settled s := by
  refine h.invariant (p := fun s => s.isOver = false → Settled s) (fun _ => settled_init settings)
    ?_ ho
  intro s m t hs hm ho
  have hopen := isOver_eq_false_of_step hm ho
  exact ((hs hopen).step hopen hm).resolve_left (by simp [ho])

/-- A coordinator that has the queue of reads in its hands has no read pump. -/
theorem noReader_of_run {settings : MultiplexerSettings} {ms : List Move}
    (h : Run (.init settings) ms s) (ho : s.isOver = false) :
    s.holdsReads = true → s.reader = none :=
  (settled_of_run h ho).tended.coherent.holdsReads_iff.1

end

end State

end SeamlessTunnel.Multiplexer
