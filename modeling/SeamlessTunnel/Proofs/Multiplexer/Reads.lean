import SeamlessTunnel.Proofs.Multiplexer.Serving
/-
  SeamlessTunnel.Proofs.Multiplexer.Reads — why and in which order reads are answered.

  A move answers read requests from the front of those that are pending, each for a reason
  (`ReadCause`), and puts new ones at their end (`passes_of_step`).
-/

namespace SeamlessTunnel.Multiplexer

namespace State

/-- Why a move gives a read request its answer. -/
inductive ReadCause (s : State) (m : Move) (t : State) (r : ReadRequest) : Answer → Prop
  /-- The read of its device has returned a packet. -/
  | packet {id : DeviceId} {p : Packet} (hm : m = .readReturned (.value p))
      (hf : s.inFlight = some (id, r)) : ReadCause s m t r (.packet p)
  /-- The read of its device has failed while the device was active. -/
  | failure {id : DeviceId} {e : TunnelError} (hm : m = .readReturned (.failure e))
      (hf : s.inFlight = some (id, r)) (ha : s.isDraining id = false) :
      ReadCause s m t r (.failed e)
  /-- A draining device has left it unserved, and the coordinator finds no device left. -/
  | noDevice (hm : m.isWork = true) (hk : s.Keeps r) (hs : t.slots = []) :
      ReadCause s m t r (.packet [])
  /-- The multiplexer is closed, or a device has crashed. -/
  | closed (h : t.isOver = true ∨ m = .readReturned .crash) : ReadCause s m t r (.failed .closed)

/-- What a move makes of the pending read requests. -/
def Passes (s : State) (m : Move) (t : State) : Prop :=
  ∃ front rest, s.pendingReads = front ++ rest ∧
    t.pendingReads = rest ++ t.reads.items.drop s.reads.items.length ∧
    ∀ r ∈ front, s.awaits r.caller = true →
      ∃ a, t.answer? r.caller = some a ∧ ReadCause s m t r a

section

variable {s t : State} {m : Move}

theorem Serves.passes (h : Serves (ReadCause s m t) s t) : Passes s m t := by
  obtain ⟨front, hfront, hserved⟩ := h.pending
  refine ⟨front, t.pendingReads, hfront, ?_, hserved⟩
  rw [List.drop_eq_nil_of_le h.shorter, List.append_nil]

/-- Requests only come. -/
theorem Passes.of_leads (hcarried : t.carried = s.carried)
    (hitems : s.reads.items <+: t.reads.items) : Passes s m t := by
  obtain ⟨new, hnew⟩ := hitems
  refine ⟨[], s.pendingReads, rfl, ?_, fun _ hr => by cases hr⟩
  rw [pendingReads, pendingReads, hcarried, ← hnew, List.drop_left, List.append_assoc]

/-! ## The read pump -/

/-- The read pump takes the first of the pending requests. -/
theorem serves_takeRead {P : ReadRequest → Answer → Prop} {pump : ReadPump} {r : ReadRequest}
    (hparked : s.parked = none) (reads : Mailbox ReadRequest)
    (hpending : s.pendingReads = r :: reads.items)
    (hshorter : reads.items.length ≤ s.reads.items.length) :
    Serves P s ({ s with reads }.takeRead pump r) := by
  have hafter : ∀ stage : ReadStage, pendingReads { s with
      reads, reader := some { pump with stage } } = stage.request?.toList ++ reads.items := by
    simp [pendingReads, carried, inRead, hparked]
  have htake : ({ s with reads }.takeRead pump r) = { s with reads, reader := some { pump with
      stage := if s.awaits r.caller then .reading r else .ready none } } := rfl
  rw [htake]
  split
  · exact .of_refuse [] ((hafter _).trans hpending.symm) hshorter rfl
  · rename_i hw
    refine .skip ?_ hshorter rfl (by simpa using hw)
    rw [hafter, hpending]
    rfl

theorem isOver_stopReader {pump : ReadPump} {exit : ReadExit} :
    (s.stopReader pump exit).isOver = s.isOver := by
  obtain ⟨_, _, _, he⟩ := stopReader_eq s pump exit
  rw [he]
  rfl

theorem serves_pollReader (h : Accounted s) (hp : s.reader ≠ none → s.parked = none)
    (hs : s.pollReader = some t) : Serves (ReadCause s .pollReader t) s t := by
  obtain ⟨pump, hr, ⟨r, hstage, rfl⟩ | ⟨hstage, -, rfl⟩ | ⟨r, reads, hstage, -, hreceive, rfl⟩ |
    ⟨hstage, -, -, rfl⟩⟩ := pollReader_cases hs
  all_goals have hparked := hp (by simp [hr])
  · refine serves_takeRead hparked s.reads ?_ (Nat.le_refl _)
    simp [pendingReads, carried, inRead, hr, hstage, hparked, ReadStage.request?]
  · refine .stopReader h hparked (by rw [inRead_of_reader hr, hstage]; rfl) fun ho r => .closed ?_
    exact .inl (isOver_stopReader.trans ho)
  · have hitems := Mailbox.items_receive hreceive
    refine serves_takeRead hparked reads ?_ (by simp [hitems])
    simp [pendingReads, carried, inRead, hr, hstage, hparked, hitems, ReadStage.request?]
  · refine .stopReader h hparked (by rw [inRead_of_reader hr, hstage]; rfl) fun ho r => .closed ?_
    exact .inl (isOver_stopReader.trans ho)

/-- The caller of the read under way is answered. -/
theorem serves_answerRead {P : ReadRequest → Answer → Prop} (h : Accounted s) {pump : ReadPump}
    {r : ReadRequest} {stage : ReadStage} {a : Answer} (hparked : s.parked = none)
    (hr : s.reader = some pump) (hstage : pump.stage = .reading r) (hn : stage.request? = none)
    (hP : P r a) : Serves P s ({ s with reader := some { pump with stage } }.answer r.caller a) := by
  refine ⟨⟨[r], ?_, fun r' hr' hw => ⟨a, ?_, ?_⟩⟩, Nat.le_refl _, callers_answer, fun c b hb =>
    answer?_answer_of_some (s := { s with reader := some { pump with stage } }) hb⟩
  · have hin : s.inRead = some r := by
      rw [inRead_of_reader hr, hstage]
      rfl
    show s.pendingReads = r :: (stage.request?.toList ++ s.parked.toList ++ s.reads.items)
    rw [pendingReads, carried, hin, hn, hparked]
    rfl
  · rw [List.mem_singleton.1 hr'] at hw ⊢
    exact answer?_answer_self (s := { s with reader := some { pump with stage } }) h.callers hw
  · rwa [List.mem_singleton.1 hr']

theorem serves_readReturned (h : Accounted s) (hp : s.reader ≠ none → s.parked = none)
    {out : Outcome Packet} (hs : s.readReturned out = some t) :
    Serves (ReadCause s (.readReturned out) t) s t := by
  obtain ⟨pump, r, hr, hstage, ⟨p, rfl, rfl⟩ | ⟨e, rfl, -, rfl⟩ | ⟨e, rfl, hd, rfl⟩ | ⟨rfl, rfl⟩⟩ :=
    readReturned_cases hs
  all_goals
    have hparked := hp (by simp [hr])
    have hflight : s.inFlight = some (pump.id, r) := by
      rw [inFlight_of_reader hr, hstage]
      rfl
  · exact serves_answerRead h hparked hr hstage rfl (.packet rfl hflight)
  · refine .stopReader h hparked (by rw [inRead_of_reader hr, hstage]; rfl) fun ho r => .closed ?_
    exact .inl (isOver_stopReader.trans ho)
  · -- the pump may as well have stopped before its caller is told
    have hstopped : Accounted ({ s with
        reader := some { pump with stage := .stopped .failed } }.answer r.caller (.failed e)) :=
      h.answerRead hr hstage rfl _
    have hend : ∀ P, (s.isOver = true → ∀ r, P r (.failed .closed)) → Serves P ({ s with
        reader := some { pump with stage := .stopped .failed } }.answer r.caller (.failed e))
        ((s.answer r.caller (.failed e)).stopReader pump .failed) := fun P hP =>
      Serves.stopReader hstopped hparked rfl hP
    exact (serves_answerRead h hparked hr hstage rfl (.failure rfl hflight hd)).trans hstopped
      (hend _ fun ho r => .closed (.inl (isOver_stopReader.trans ho)))
  · have hcalls : ({ s with reader :=
        if s.isOver then none else some { pump with stage := .crashed } }.refuse
          [r.caller]).shutReads.calls =
        (s.refuse (r.caller :: s.reads.contents.map (·.caller))).calls := calls_refuse rfl
    refine .drop _ h.callers ?_ hcalls ?_ fun r' => .closed (.inr rfl)
    · cases ho : s.isOver <;>
        simp [pendingReads, carried, inRead, shutReads, hparked, Mailbox.shut, ReadStage.request?]
    · intro r' hr'
      have hmem : r' ∈ r :: s.reads.items := by
        simpa [pendingReads, carried, inRead, hr, hstage, hparked, ReadStage.request?] using hr'
      rcases List.mem_cons.1 hmem with rfl | hmem
      · exact List.mem_cons_self ..
      · exact List.mem_cons_of_mem _
          (List.mem_map_of_mem ((Mailbox.sublist_items s.reads).subset hmem))

/-! ## The coordinator -/

theorem Settled.serves_work (hset : Settled s) (h : Accounted s) (hm : m.isWork = true)
    (hs : s.step m = some t) : Serves (ReadCause s m t) s t := by
  have hclosed : t.isOver = true → ∀ r, ReadCause s m t r (.failed .closed) := fun ho r =>
    .closed (.inl ho)
  cases hset.act hm hs with
  | @answer c rest a => exact (Serves.answer (s := { s with control := rest })).congr rfl rfl rfl
  | ask => exact .of_eq rfl rfl rfl
  | fail closers =>
    have hbase : Accounted { s with closers } := h.move rfl rfl fun d => Nat.le_refl _
    exact (Serves.crash hbase hset.tended.coherent.holdsReads_iff.1
      (fun hp => (hset.tended.reads.parked hp).1) (hclosed isOver_crash)).congr rfl rfl rfl
  | handle hc hu ht =>
    have haccounted := (h.handing hc).handled hu
    have hend := Serves.settleTeardown (P := ReadCause s m _) haccounted
      ht.coherent.holdsReads_iff.1 (fun hp => (ht.reads.parked hp).1)
      (fun hn r hp => .noDevice hm (hu.keeps_of_parked ht hp) hn) hclosed
    exact ((Serves.handled hu).trans haccounted hend).congr rfl rfl rfl

/-! ## All moves -/

theorem passes_of_step (h : Accounted s) (hset : s.isOver = false → Settled s)
    (hp : s.reader ≠ none → s.parked = none) (hs : s.step m = some t) : Passes s m t := by
  rcases step_kinds hs with ⟨hwork, ho⟩ | ⟨device, -, rfl⟩ | q
  · exact ((hset ho).serves_work h hwork hs).passes
  · obtain ⟨_, he⟩ := add_parts s device
    rw [he]
    exact .of_leads rfl List.prefix_rfl
  · rcases q.reads with ⟨hr, hitems⟩ | rfl | ⟨out, rfl⟩
    · exact .of_leads (carried_congr hr q.parked) hitems
    · exact (serves_pollReader h hp hs).passes
    · exact (serves_readReturned h hp hs).passes

/-- A coordinator that is over has no request in its hands. -/
theorem parked_of_run {settings : MultiplexerSettings} {ms : List Move}
    (h : Run (.init settings) ms s) : s.reader ≠ none → s.parked = none := by
  have hover : s.isOver = true → s.parked = none := by
    refine h.snocRec (p := fun _ s => s.isOver = true → s.parked = none) (fun ho => by cases ho) ?_
    intro ms s m t hrun ih hm ho
    rcases step_kinds hm with ⟨hwork, hopen⟩ | ⟨device, -, rfl⟩ | q
    · have hset := settled_of_run hrun hopen
      cases hset.act hwork hm with
      | answer => exact absurd (hopen.symm.trans ho) (by simp)
      | ask => exact absurd (hopen.symm.trans ho) (by simp)
      | fail closers =>
        obtain ⟨_, _, _, _, _, _, _, he, -⟩ := crash_parts { s with closers }
        rw [he]
      | @handle _ _ u _ _ _ hu => exact (parked_settleTeardown u hu ho).2
    · obtain ⟨_, he⟩ := add_parts s device
      rw [he] at ho ⊢
      exact ih ho
    · rw [q.isOver] at ho
      exact q.parked.trans (ih ho)
  intro hr
  cases ho : s.isOver with
  | true => exact hover ho
  | false =>
    obtain ⟨pump, hpump⟩ := Option.ne_none_iff_exists'.1 hr
    exact (settled_of_run h ho).tended.reads.parked_eq_none hpump

/-- Callers go away only when they cancel. -/
theorem gone_of_step (hset : s.isOver = false → Settled s) (hs : s.step m = some t) :
    t.gone = s.gone ∨ ∃ c, m = .cancel c ∧ t.gone = s.gone ++ [c] := by
  rcases step_kinds hs with ⟨hwork, hopen⟩ | ⟨device, -, rfl⟩ | q
  · refine .inl ?_
    cases (hset hopen).act hwork hs with
    | answer => rfl
    | ask => rfl
    | fail closers =>
      obtain ⟨_, _, _, _, _, _, _, he, -⟩ := crash_parts { s with closers }
      rw [he]
    | @handle _ _ u _ hu =>
      obtain ⟨_, _, _, _, _, _, _, _, _, _, he⟩ := settleTeardown_parts u
      obtain ⟨_, _, _, _, _, _, _, _, heq⟩ := hu.eq
      rw [he, heq]
  · obtain ⟨_, he⟩ := add_parts s device
    exact .inl (by rw [he])
  · exact q.gone

/-- Only those who cancelled have gone away. -/
theorem cancelled_of_run {settings : MultiplexerSettings} {ms : List Move}
    (h : Run (.init settings) ms s) : ∀ c ∈ s.gone, .cancel c ∈ ms := by
  refine h.snocRec (p := fun ms s => ∀ c ∈ s.gone, .cancel c ∈ ms) (fun _ hc => by cases hc) ?_
  intro ms s m t hrun ih hm c hc
  rcases gone_of_step (settled_of_run hrun) hm with he | ⟨d, rfl, he⟩
  · exact List.mem_append_left _ (ih c (he ▸ hc))
  · rw [he] at hc
    rcases List.mem_append.1 hc with hc | hc
    · exact List.mem_append_left _ (ih c hc)
    · rw [List.mem_singleton.1 hc]
      exact List.mem_append_right _ (List.mem_singleton_self _)

/-- One who has cancelled waits for nothing any more. -/
theorem not_cancelled_of_awaits {settings : MultiplexerSettings} {ms : List Move} {c : Caller}
    (h : Run (.init settings) ms s) (hw : s.awaits c = true) : .cancel c ∉ ms := by
  have hgone : .cancel c ∈ ms → c ∈ s.gone := by
    refine h.snocRec (p := fun ms s => .cancel c ∈ ms → c ∈ s.gone) (fun hc => by cases hc) ?_
    intro ms s m t hrun ih hm hc
    have hkept : c ∈ s.gone → c ∈ t.gone := fun hg => by
      rcases gone_of_step (settled_of_run hrun) hm with he | ⟨d, -, he⟩
      · exact he ▸ hg
      · exact he ▸ List.mem_append_left _ hg
    rcases List.mem_append.1 hc with hc | hc
    · exact hkept (ih hc)
    · obtain rfl := List.mem_singleton.1 hc
      obtain ⟨-, rfl⟩ := cancel_cases hm
      obtain ⟨_, he⟩ := releaseEvents_eq (s.quit c)
      rw [he]
      exact List.mem_append_right _ (List.mem_singleton_self _)
  exact fun hc => (accounted_of_run h).gone c (hgone hc) (mem_callers_of_awaits hw)

end

end State

end SeamlessTunnel.Multiplexer
