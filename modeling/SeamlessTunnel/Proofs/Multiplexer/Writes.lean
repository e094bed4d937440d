import SeamlessTunnel.Proofs.Multiplexer.Reads
/-
  SeamlessTunnel.Proofs.Multiplexer.Writes — what becomes of write requests.

  A write request stays in the queue until the write pump takes it, and then its device is
  the only one that it is passed to. It is done with when that call has returned, when its
  caller has given up, or when the queue is closed (`disposes_of_step`). So over any run
  each request that has entered the queue has one fate or is still pending, in the order of
  the queue (`fates_of_run`).
-/

namespace SeamlessTunnel.Multiplexer

/-- What became of a write request. -/
structure WriteFate where
  request : WriteRequest
  /-- The device that it was passed to, and how that call ended. -/
  result : Option (DeviceId × Outcome Nat)
  /-- The answer that its caller got. -/
  answer : Option Answer

/-- What its caller is told: the result of the call, or that there will be none. -/
def WriteFate.told (f : WriteFate) : Answer :=
  match f.result with
  | some (_, out) => State.writeAnswer out
  | none => .failed .closed

namespace State

/-- Write requests that have entered the queue and are not done, oldest first. -/
def pendingWrites (s : State) : List WriteRequest :=
  s.inWrite.toList ++ s.writes.items

/-- The write requests that a move puts into the queue. -/
def enteredWrites (s : State) (_ : Move) (t : State) : List WriteRequest :=
  t.writes.items.drop s.writes.items.length

/-- The write that a move issues. -/
def issuedWrites (_ : State) (m : Move) (t : State) : List (DeviceId × WriteRequest) :=
  match m with
  | .pollWriter => t.inFlightWrite.toList
  | _ => []

/-- The write that a move ends, and how. -/
def returnedWrites (s : State) (m : Move) (_ : State) :
    List (DeviceId × WriteRequest × Outcome Nat) :=
  match m with
  | .writeReturned out => s.inFlightWrite.toList.map fun w => (w.1, w.2, out)
  | _ => []

/-- The answers that a move gives to pending write requests. -/
def answeredWrites (s : State) (_ : Move) (t : State) : List (WriteRequest × Answer) :=
  s.pendingWrites.filterMap fun r =>
    if s.awaits r.caller then (t.answer? r.caller).map (r, ·) else none

/-- Whether the queue of writes is closed for good: the coordinator is over, or a device has
    crashed in a write. -/
def WritesClosed (ms : List Move) (s : State) : Prop :=
  s.isOver = true ∨ .writeReturned .crash ∈ ms

/-- What a move makes of a write request that it is done with. -/
structure Disposed (s : State) (m : Move) (t : State) (f : WriteFate) : Prop where
  answer : f.answer = if s.awaits f.request.caller then t.answer? f.request.caller else none
  told : s.awaits f.request.caller = true → f.answer = some f.told
  unserved : f.result = none → s.awaits f.request.caller = true → WritesClosed [m] t

/-- What a move makes of the pending write requests: it is done with some at the front, and
    new ones come at the end. -/
def Disposes (s : State) (m : Move) (t : State) : Prop :=
  ∃ (fates : List WriteFate) (rest : List WriteRequest),
    s.pendingWrites = fates.map (·.request) ++ rest ∧
    t.pendingWrites = rest ++ enteredWrites s m t ∧
    returnedWrites s m t =
      fates.filterMap (fun f => f.result.map fun d => (d.1, f.request, d.2)) ∧
    ∀ f ∈ fates, Disposed s m t f

/-- The writes are left alone. -/
structure Spared (s t : State) : Prop where
  inFlight : t.inFlightWrite = s.inFlightWrite
  writes : t.writes = s.writes
  gone : t.gone = s.gone

/-- The queue of writes is closed while none is under way, and all in it are refused. -/
structure Cut (s t : State) : Prop where
  idle : s.inFlightWrite = none
  ended : t.inFlightWrite = none
  items : t.writes.items = []
  isOver : t.isOver = true
  refused : ∀ r ∈ s.writes.items, s.awaits r.caller = true →
    t.answer? r.caller = some (.failed .closed)

section

variable {s t u v : State} {m : Move} {c : Caller} {ms ns : List Move}

/-! ## Callers of writes -/

theorem Accounted.awaits_writer (h : Accounted s) (hc : c ∈ s.writers) :
    s.awaits c = true ∨ c ∈ s.gone :=
  h.placed c (List.mem_append_left _ (List.mem_append_left _ (List.mem_append_right _ hc)))

theorem caller_mem_writers {r : WriteRequest} (hr : r ∈ s.writes.contents) :
    r.caller ∈ s.writers :=
  List.mem_map_of_mem (List.mem_append_right _ hr)

theorem pendingWrites_sublist (s : State) :
    s.pendingWrites.Sublist (s.inWrite.toList ++ s.writes.contents) :=
  (List.Sublist.refl _).append (Mailbox.sublist_items s.writes)

/-- A write request that is still pending was not answered. -/
theorem Accounted.not_answered_write (h : Accounted t) {r : WriteRequest}
    (hr : r ∈ t.pendingWrites) : t.answer? r.caller = none := by
  rcases h.awaits_writer (List.mem_map_of_mem ((pendingWrites_sublist t).subset hr)) with hw | hg
  · exact answer?_eq_none_of_awaits h.callers hw
  · exact answer?_eq_none_of_not_mem (h.gone _ hg)

/-- Those who wait go on waiting while their requests are there. -/
theorem Accounted.still_awaits (h : Accounted s) (hv : Accounted v) (hgone : v.gone = s.gone)
    (hc : c ∈ v.writers) (hw : s.awaits c = true) : v.awaits c = true :=
  (hv.awaits_writer hc).resolve_right fun hg =>
    h.gone c (hgone ▸ hg) (mem_callers_of_awaits hw)

/-! ## The end of the queue -/

namespace Spared

theorem of_parts (hwriter : t.writer = s.writer) (hwrites : t.writes = s.writes)
    (hgone : t.gone = s.gone) : Spared s t :=
  ⟨by rw [inFlightWrite, inFlightWrite, hwriter], hwrites, hgone⟩

theorem refl : Spared s s :=
  ⟨rfl, rfl, rfl⟩

theorem trans (h : Spared s t) (h' : Spared t u) : Spared s u :=
  ⟨h'.inFlight.trans h.inFlight, h'.writes.trans h.writes, h'.gone.trans h.gone⟩

theorem handled (hh : Handled s t) : Spared s t := by
  have hflight := hh.inFlightWrite
  obtain ⟨_, _, _, _, _, _, _, _, he⟩ := hh.eq
  exact ⟨hflight, by rw [he], by rw [he]⟩

theorem endControl : Spared s s.endControl := by
  obtain ⟨_, _, he⟩ := endControl_eq s
  exact .of_parts (by rw [he]) (by rw [he]) (by rw [he])

theorem dropReads : Spared s s.dropReads := by
  obtain ⟨_, _, _, he⟩ := dropReads_eq s
  exact .of_parts (by rw [he]) (by rw [he]) (by rw [he])

theorem releaseParked : Spared s s.releaseParked := by
  obtain ⟨_, he⟩ := releaseParked_eq s
  exact .of_parts (by rw [he]) (by rw [he]) (by rw [he])

theorem endShutdown : Spared s (s.endTeardown (.shutdown c)) := by
  obtain ⟨_, he⟩ := endShutdown_eq s c
  exact .of_parts (by rw [he]) (by rw [he]) (by rw [he])

theorem dropControl : Spared s s.dropControl := by
  obtain ⟨_, he⟩ := dropControl_eq s
  exact .of_parts (by rw [he]) (by rw [he]) (by rw [he])

theorem dropReader : Spared s s.dropReader := by
  obtain ⟨_, _, _, he, -⟩ := dropReader_eq s
  exact .of_parts (by rw [he]) (by rw [he]) (by rw [he])

end Spared

namespace Cut

theorem shutWrites (h : Accounted s) (hw : s.writer = none) (ho : s.isOver = true) :
    Cut s s.shutWrites := by
  refine ⟨inFlightWrite_eq_none hw, inFlightWrite_eq_none ?_, by rw [writes_shutWrites]; rfl,
    ?_, ?_⟩
  · rw [State.shutWrites, writer_refuse]
    exact hw
  · rw [Quiet.shutWrites.isOver]
    exact ho
  · intro r hr hawaits
    exact answer?_refuse_of_mem (s := { s with writes := s.writes.shut }) h.callers hawaits
      (List.mem_map_of_mem ((Mailbox.sublist_items s.writes).subset hr))

/-- The queue was left alone before it was closed. -/
theorem of_spared (hs : Accounted s) (hv : Accounted v) (hsv : Spared s v) (h : Cut v t) :
    Cut s t := by
  refine ⟨hsv.inFlight ▸ h.idle, h.ended, h.items, h.isOver, fun r hr hw => ?_⟩
  rw [← hsv.writes] at hr
  have hmem := caller_mem_writers ((Mailbox.sublist_items v.writes).subset hr)
  exact h.refused r hr (hs.still_awaits hv hsv.gone hmem hw)

end Cut

theorem cut_or_spared_of (hs : Accounted s) (hv : Accounted v) (hsv : Spared s v)
    (h : Cut v t ∨ Spared v t) : Cut s t ∨ Spared s t :=
  h.imp (.of_spared hs hv hsv) hsv.trans

/-- The queue of writes ends in the hands of the coordinator, or is with a pump. -/
theorem dropWrites_cases (h : Accounted s) (hfree : s.holdsWrites = true → s.writer = none)
    (ho : s.isOver = true) :
    (Cut s s.dropWrites ∧ s.dropWrites.writer = none) ∨ s.dropWrites = s := by
  unfold dropWrites
  split
  · rename_i hq
    obtain ⟨_, _, he⟩ := shutWrites_eq s
    have hcut : Cut s s.shutWrites := .shutWrites h (hfree hq) ho
    refine .inl ⟨⟨hcut.idle, hcut.ended, hcut.items, hcut.isOver, hcut.refused⟩, ?_⟩
    rw [he]
    exact hfree hq
  · exact .inr rfl

theorem cut_or_spared_finish (h : Accounted s) (hfree : s.holdsWrites = true → s.writer = none) :
    Cut s s.finish ∨ Spared s s.finish := by
  have hcontrol : Accounted s.endControl.dropReads := h.endControl.dropReads
  have hsame : Spared s s.endControl.dropReads := Spared.endControl.trans .dropReads
  obtain ⟨_, _, _, hr⟩ := dropReads_eq s.endControl
  obtain ⟨_, _, hc⟩ := endControl_eq s
  refine cut_or_spared_of h hcontrol hsame ?_
  rw [finish_eq]
  rcases dropWrites_cases hcontrol (by rw [hr, hc]; exact hfree) (by rw [hr, hc]; rfl) with
    ⟨hcut, -⟩ | he
  · exact .inl hcut
  · rw [he]
    exact .inr .refl

theorem cut_or_spared_settleTeardown (h : Accounted s)
    (hfree : s.holdsWrites = true → s.writer = none) :
    Cut s s.settleTeardown ∨ Spared s s.settleTeardown := by
  rcases settleTeardown_cases s with ⟨he, -⟩ | ⟨cause, hc, -, he⟩
  · rw [he]
    exact .inr .refl
  · rw [he]
    cases cause with
    | shutdown c => exact .inr .endShutdown
    | close c =>
      have hend : Accounted (s.endTeardown (.shutdown c)) := h.endShutdown (by rw [hc]; rfl)
      obtain ⟨_, he⟩ := endShutdown_eq s c
      rw [endClose_eq]
      exact cut_or_spared_of h hend .endShutdown
        (cut_or_spared_finish hend (by rw [he]; exact hfree))
    | released =>
      obtain ⟨_, he⟩ := releaseParked_eq s
      exact cut_or_spared_of h h.releaseParked .releaseParked
        (cut_or_spared_finish h.releaseParked (by rw [he]; exact hfree))

/-- The write pump goes, and its queue with it. -/
theorem Cut.endWriter (h : Accounted s) {pump : WritePump} (hw : s.writer = some pump)
    (hn : pump.stage.request? = none) (ho : s.isOver = true) :
    Cut s ({ s with writer := none }.shutWrites) := by
  have hidle : s.inFlightWrite = none := by
    rw [inFlightWrite_of_writer hw, hn]
    rfl
  have hfree : Accounted { s with writer := none } := by
    refine h.move rfl rfl fun d => Nat.le_of_eq ?_
    have hwriters : writers { s with writer := none } = s.writers := by
      rw [writers, writers, inWrite_eq s, hidle]
      rfl
    rw [count_places, count_places, hwriters]
    rfl
  have hsame : Spared s { s with writer := none } := ⟨hidle.symm, rfl, rfl⟩
  exact .of_spared h hfree hsame (.shutWrites hfree rfl ho)

/-- A write pump that has stopped drops its queue. -/
theorem cut_or_spared_dropWriter (h : Accounted s) (ho : s.isOver = true) :
    Cut s s.dropWriter ∨ Spared s s.dropWriter := by
  unfold dropWriter
  split
  · exact .inr .refl
  · rename_i pump hw
    split
    · rename_i exit hs
      exact .inl (.endWriter h hw (by rw [hs]; rfl) ho)
    · rename_i hs
      refine .inr ⟨?_, rfl, rfl⟩
      rw [inFlightWrite_of_writer hw, hs]
      rfl
    all_goals exact .inr .refl

theorem cut_or_spared_crash (h : Accounted s) (hfree : s.holdsWrites = true → s.writer = none) :
    Cut s s.crash ∨ Spared s s.crash := by
  have hbefore : Accounted s.dropControl.dropReads.dropReader := h.dropControl.dropReads.dropReader
  have hsame : Spared s s.dropControl.dropReads.dropReader :=
    Spared.dropControl.trans (.trans .dropReads .dropReader)
  obtain ⟨_, _, _, hr, -⟩ := dropReader_eq s.dropControl.dropReads
  obtain ⟨_, _, _, hq⟩ := dropReads_eq s.dropControl
  obtain ⟨_, hc⟩ := dropControl_eq s
  have hover : s.dropControl.dropReads.dropReader.isOver = true := by
    rw [hr, hq, hc]
    rfl
  rw [crash_eq]
  refine cut_or_spared_of h hbefore hsame ?_
  rcases dropWrites_cases hbefore (by rw [hr, hq, hc]; exact hfree) hover with ⟨hcut, hw⟩ | he
  · rw [dropWriter, hw]
    exact .inl hcut
  · rw [he]
    exact cut_or_spared_dropWriter hbefore hover

theorem Settled.cut_or_spared (hset : Settled s) (h : Accounted s) (hm : m.isWork = true)
    (hs : s.step m = some t) : Cut s t ∨ Spared s t := by
  cases hset.act hm hs with
  | answer => exact .inr (.of_parts rfl rfl rfl)
  | ask => exact .inr (.of_parts rfl rfl rfl)
  | fail closers =>
    have hbase : Accounted { s with closers } := h.move rfl rfl fun d => Nat.le_refl _
    exact cut_or_spared_of h hbase (.of_parts rfl rfl rfl)
      (cut_or_spared_crash hbase hset.tended.coherent.holdsWrites_iff.1)
  | @handle control coordinator u hc hu ht =>
    have hbase : Accounted { s with control, coordinator } := h.handing hc
    have hsame : Spared s { s with control, coordinator } := .of_parts rfl rfl rfl
    exact cut_or_spared_of h (hbase.handled hu) (hsame.trans (.handled hu))
      (cut_or_spared_settleTeardown (hbase.handled hu) ht.coherent.holdsWrites_iff.1)

/-! ## Moves and fates -/

theorem returnedWrites_eq_nil (hm : ∀ out, m ≠ .writeReturned out) : returnedWrites s m t = [] := by
  cases m with
  | writeReturned out => exact absurd rfl (hm out)
  | _ => rfl

/-- Requests only come. -/
theorem Disposes.lead (hf : t.inFlightWrite = s.inFlightWrite)
    (hitems : s.writes.items <+: t.writes.items) (hm : ∀ out, m ≠ .writeReturned out) :
    Disposes s m t := by
  obtain ⟨new, hnew⟩ := hitems
  refine ⟨[], s.pendingWrites, rfl, ?_, returnedWrites_eq_nil hm, fun _ hf => by cases hf⟩
  rw [pendingWrites, pendingWrites, inWrite_eq, inWrite_eq, hf, enteredWrites, ← hnew,
    List.drop_left, List.append_assoc]

/-- The fate of a request that a move is done with. -/
def fateOf (s t : State) (r : WriteRequest) (result : Option (DeviceId × Outcome Nat)) : WriteFate :=
  ⟨r, result, if s.awaits r.caller then t.answer? r.caller else none⟩

theorem disposed_fateOf {r : WriteRequest} {result : Option (DeviceId × Outcome Nat)}
    (ha : s.awaits r.caller = true → t.answer? r.caller = some (fateOf s t r result).told)
    (hclosed : result = none → WritesClosed [m] t) : Disposed s m t (fateOf s t r result) :=
  ⟨rfl, fun hw => (if_pos hw).trans (ha hw), fun hr _ => hclosed hr⟩

theorem Disposes.cut (h : Cut s t) (hm : ∀ out, m ≠ .writeReturned out) : Disposes s m t := by
  refine ⟨s.writes.items.map (fateOf s t · none), [], ?_, ?_, ?_, ?_⟩
  · simp [pendingWrites, inWrite_eq, h.idle, fateOf, Function.comp_def]
  · simp [pendingWrites, enteredWrites, inWrite_eq, h.ended, h.items]
  · rw [returnedWrites_eq_nil hm]
    simp [List.filterMap_map, fateOf]
  · exact List.forall_mem_map.2 fun r hr =>
      disposed_fateOf (h.refused r hr) fun _ => .inl h.isOver

theorem inFlightWrite_stopWriter {pump : WritePump} {exit : WriteExit} :
    (s.stopWriter pump exit).inFlightWrite = none := by
  unfold stopWriter
  simp only []
  split
  · simp [inFlightWrite, shutWrites]
  · rfl

theorem cut_or_spared_stopWriter (h : Accounted s) {pump : WritePump} (exit : WriteExit)
    (hw : s.writer = some pump) (hn : pump.stage.request? = none) :
    Cut s (s.stopWriter pump exit) ∨ Spared s (s.stopWriter pump exit) := by
  have hidle : s.inFlightWrite = none := by
    rw [inFlightWrite_of_writer hw, hn]
    rfl
  unfold stopWriter
  simp only []
  split
  · rename_i ho
    have hbase : Accounted s.dropForwarder := h.move rfl rfl fun d => Nat.le_refl _
    have hsame : Spared s s.dropForwarder := .of_parts rfl rfl rfl
    exact .inl (.of_spared h hbase hsame (.endWriter hbase hw hn ho))
  · exact .inr ⟨hidle.symm, rfl, rfl⟩

/-- The write pump takes the first of the requests in the queue, or skips it. -/
theorem disposes_pollWriter (h : Accounted s) (hs : s.pollWriter = some t) :
    Disposes s .pollWriter t := by
  have hm : ∀ out, Move.pollWriter ≠ .writeReturned out := fun out he => by cases he
  have hstop : ∀ {pump : WritePump} (exit : WriteExit), s.writer = some pump →
      pump.stage.request? = none → Disposes s .pollWriter (s.stopWriter pump exit) :=
    fun exit hw hn => by
      rcases cut_or_spared_stopWriter h exit hw hn with hc | hk
      · exact .cut hc hm
      · exact .lead hk.inFlight (hk.writes ▸ List.prefix_rfl) hm
  obtain ⟨pump, hw, ⟨hstage, -, rfl⟩ | ⟨hstage, rfl⟩ | ⟨r, writes, hstage, -, hr, rfl⟩ |
    ⟨hstage, -, -, rfl⟩⟩ := pollWriter_cases hs
  · refine hstop .drained hw ?_
    rcases hstage with hstage | hstage <;> rw [hstage] <;> rfl
  · refine .lead ?_ List.prefix_rfl hm
    rw [inFlightWrite_of_writer hw, hstage]
    rfl
  · have hitems := Mailbox.items_receive hr
    have hpending : s.pendingWrites = r :: writes.items := by
      rw [pendingWrites, inWrite_of_writer hw, hstage, hitems]
      rfl
    have hnone : writes.items.drop (r :: writes.items).length = [] :=
      List.drop_eq_nil_of_le (Nat.le_succ _)
    cases hawaits : s.awaits r.caller with
    | true =>
      refine ⟨[], r :: writes.items, hpending, ?_, rfl, fun _ hf => by cases hf⟩
      simp [pendingWrites, enteredWrites, inWrite, hitems, WriteStage.request?]
    | false =>
      refine ⟨[⟨r, none, none⟩], writes.items, hpending, ?_, rfl, ?_⟩
      · simp [pendingWrites, enteredWrites, inWrite, hitems, WriteStage.request?]
      · intro f hf
        obtain rfl := List.mem_singleton.1 hf
        have hno : ∀ {p : Prop}, s.awaits r.caller = true → p := fun hw => by
          rw [hawaits] at hw
          cases hw
        exact ⟨by simp [hawaits], fun hw => hno hw, fun _ hw => hno hw⟩
  · exact hstop .disconnected hw (by rw [hstage]; rfl)

/-- The write under way is done with, and all others too if it has crashed. -/
theorem disposes_writeReturned (h : Accounted s) {out : Outcome Nat}
    (hs : s.writeReturned out = some t) : Disposes s (.writeReturned out) t := by
  obtain ⟨pump, r, hw, hstage, hcases⟩ := writeReturned_cases hs
  have hflight : s.inFlightWrite = some (pump.id, r) := by
    rw [inFlightWrite_of_writer hw, hstage]
    rfl
  have hpending : s.pendingWrites = r :: s.writes.items := by
    rw [pendingWrites, inWrite_eq, hflight]
    rfl
  have hreturned : returnedWrites s (.writeReturned out) t = [(pump.id, r, out)] := by
    rw [returnedWrites, hflight]
    rfl
  rcases hcases with ⟨a, ⟨-, rfl⟩, ht⟩ | ⟨rfl, ht⟩
  · have hwrites : t.writes = s.writes := by rw [ht]; rfl
    have hrest : t.inWrite = none := by rw [ht]; rfl
    refine ⟨[fateOf s t r (some (pump.id, out))], s.writes.items, hpending, ?_, hreturned, ?_⟩
    · rw [pendingWrites, enteredWrites, hrest, hwrites, List.drop_length, List.append_nil]
      rfl
    · intro f hf
      obtain rfl := List.mem_singleton.1 hf
      refine disposed_fateOf (fun hawaits => ?_) fun hn => by cases hn
      rw [ht]
      exact answer?_answer_self (s := { s with writer := some { pump with stage := .ready } })
        h.callers hawaits
  · have hwrites : t.writes = s.writes.shut := by rw [ht]; simp
    have hrest : t.inWrite = none := by
      rw [ht]
      cases ho : s.isOver <;> simp [inWrite, shutWrites, WriteStage.request?]
    have hcalls : t.calls = (s.refuse (r.caller :: s.writes.contents.map (·.caller))).calls := by
      rw [ht]
      exact calls_refuse rfl
    have hanswer : ∀ c ∈ r.caller :: s.writes.contents.map (·.caller), s.awaits c = true →
        t.answer? c = some (.failed .closed) := fun c hc hawaits => by
      rw [answer?_congr hcalls]
      exact answer?_refuse_of_mem h.callers hawaits hc
    refine ⟨fateOf s t r (some (pump.id, .crash)) :: s.writes.items.map (fateOf s t · none), [],
      ?_, ?_, ?_, List.forall_mem_cons.2 ⟨?_, List.forall_mem_map.2 fun r' hr' => ?_⟩⟩
    · rw [hpending]
      simp [fateOf, Function.comp_def]
    · simp [pendingWrites, enteredWrites, hrest, hwrites, Mailbox.shut]
    · rw [hreturned]
      simp [List.filterMap_map, fateOf]
    · exact disposed_fateOf (hanswer _ (List.mem_cons_self ..)) fun hn => by cases hn
    · have hmem := (Mailbox.sublist_items s.writes).subset hr'
      exact disposed_fateOf (hanswer _ (List.mem_cons_of_mem _ (List.mem_map_of_mem hmem)))
        fun _ => .inr (List.mem_singleton_self _)

theorem disposes_of_step (h : Accounted s) (hset : s.isOver = false → Settled s)
    (hs : s.step m = some t) : Disposes s m t := by
  have hlead : (∀ out, m ≠ .writeReturned out) → Spared s t → Disposes s m t := fun hm hk =>
    .lead hk.inFlight (hk.writes ▸ List.prefix_rfl) hm
  rcases step_kinds hs with ⟨hwork, ho⟩ | ⟨device, rfl, rfl⟩ | q
  · have hm : ∀ out, m ≠ .writeReturned out := fun out he => by
      rw [he] at hwork
      cases hwork
    rcases (hset ho).cut_or_spared h hwork hs with hc | hk
    · exact .cut hc hm
    · exact hlead hm hk
  · obtain ⟨_, he⟩ := add_parts s device
    rw [he] at hlead ⊢
    exact hlead (fun out he => by cases he) (.of_parts rfl rfl rfl)
  · rcases q.writes with ⟨hw, hitems⟩ | rfl | ⟨out, rfl⟩
    · have hflight : t.inFlightWrite = s.inFlightWrite := by
        rw [inFlightWrite, inFlightWrite, hw]
      by_cases hm : ∃ out, m = .writeReturned out
      · obtain ⟨out, rfl⟩ := hm
        exact disposes_writeReturned h hs
      · exact .lead hflight hitems fun out he => hm ⟨out, he⟩
    · exact disposes_pollWriter h hs
    · exact disposes_writeReturned h hs

/-! ## Over a run -/

/-- What is known of the fates of the requests of a run. -/
structure Fated (ms : List Move) (s : State) (f : WriteFate) : Prop where
  /-- Its caller was told how the call on the device ended, or has cancelled. -/
  told : f.answer = some f.told ∨ f.answer = none ∧ .cancel f.request.caller ∈ ms
  /-- A request is refused only when the queue is closed. -/
  unserved : f.result = none → f.answer ≠ none → WritesClosed ms s

theorem Disposed.fated {settings : MultiplexerSettings} (hrun : Run (.init settings) ms s)
    {f : WriteFate} (h : Disposed s m t f) (hf : f.request ∈ s.pendingWrites) :
    Fated (ms ++ [m]) t f := by
  have hgone : s.awaits f.request.caller = false → .cancel f.request.caller ∈ ms := fun hw => by
    have hmem : f.request.caller ∈ s.writers :=
      List.mem_map_of_mem ((pendingWrites_sublist s).subset hf)
    refine cancelled_of_run hrun _ (((accounted_of_run hrun).awaits_writer hmem).resolve_left ?_)
    rw [hw]
    exact Bool.false_ne_true
  have hnone : s.awaits f.request.caller = false → f.answer = none := fun hw => by
    rw [h.answer, hw]
    rfl
  cases hw : s.awaits f.request.caller with
  | true =>
    refine ⟨.inl (h.told hw), fun hr _ => (h.unserved hr hw).imp_right fun hm => ?_⟩
    exact List.mem_append_right _ hm
  | false =>
    exact ⟨.inr ⟨hnone hw, List.mem_append_left _ (hgone hw)⟩, fun _ hn => absurd (hnone hw) hn⟩

theorem Fated.step {f : WriteFate} (h : Fated ms s f) (hs : s.step m = some t) :
    Fated (ms ++ [m]) t f := by
  refine ⟨h.told.imp_right fun ⟨hn, hc⟩ => ⟨hn, List.mem_append_left _ hc⟩, fun hr hn => ?_⟩
  exact (h.unserved hr hn).imp (isOver_of_step hs) (List.mem_append_left _)

/-- A move answers the requests that it is done with, and no others. -/
theorem answeredWrites_eq {fates : List WriteFate} {rest new : List WriteRequest}
    (ht : Accounted t) (hs : s.pendingWrites = fates.map (·.request) ++ rest)
    (hpending : t.pendingWrites = rest ++ new) (hf : ∀ f ∈ fates, Disposed s m t f) :
    answeredWrites s m t = fates.filterMap fun f => f.answer.map (f.request, ·) := by
  have hrest : rest.filterMap (fun r =>
      if s.awaits r.caller then (t.answer? r.caller).map (r, ·) else none) = [] := by
    refine List.filterMap_eq_nil_iff.2 ?_
    intro r hr
    rw [ht.not_answered_write (by rw [hpending]; exact List.mem_append_left _ hr)]
    simp
  rw [answeredWrites, hs, List.filterMap_append, hrest, List.append_nil, List.filterMap_map]
  refine List.filterMap_congr fun f hmem => ?_
  simp only [Function.comp]
  rw [(hf f hmem).answer]
  split <;> rfl

/-- Over any run each request has one fate or is pending, in the order of the queue. -/
theorem fates_of_run {settings : MultiplexerSettings} (h : Run (.init settings) ms s) :
    ∃ fates : List WriteFate,
      (State.init settings).log enteredWrites ms = fates.map (·.request) ++ s.pendingWrites ∧
      (State.init settings).log returnedWrites ms =
        fates.filterMap (fun f => f.result.map fun d => (d.1, f.request, d.2)) ∧
      (State.init settings).log answeredWrites ms =
        fates.filterMap (fun f => f.answer.map (f.request, ·)) ∧
      ∀ f ∈ fates, Fated ms s f := by
  refine h.snocRec (p := fun ms s => ∃ fates : List WriteFate,
    (State.init settings).log enteredWrites ms = fates.map (·.request) ++ s.pendingWrites ∧
    (State.init settings).log returnedWrites ms =
      fates.filterMap (fun f => f.result.map fun d => (d.1, f.request, d.2)) ∧
    (State.init settings).log answeredWrites ms =
      fates.filterMap (fun f => f.answer.map (f.request, ·)) ∧
    ∀ f ∈ fates, Fated ms s f) ⟨[], rfl, rfl, rfl, fun _ hf => by cases hf⟩ ?_
  intro ms s m t hrun ih hm
  obtain ⟨fates, hentered, hreturned, hanswered, hfated⟩ := ih
  obtain ⟨new, rest, hs, hpending, hended, hdisposed⟩ :=
    disposes_of_step (accounted_of_run hrun) (settled_of_run hrun) hm
  refine ⟨fates ++ new, ?_, ?_, ?_, ?_⟩
  · rw [hrun.log_snoc hm, hentered, hs, hpending]
    simp
  · rw [hrun.log_snoc hm, hreturned, hended, List.filterMap_append]
  · rw [hrun.log_snoc hm, hanswered,
      answeredWrites_eq (accounted_of_run (hrun.snoc hm)) hs hpending hdisposed,
      List.filterMap_append]
  · intro f hf
    rcases List.mem_append.1 hf with hf | hf
    · exact (hfated f hf).step hm
    · refine (hdisposed f hf).fated hrun ?_
      rw [hs]
      exact List.mem_append_left _ (List.mem_map_of_mem hf)

end

end State

end SeamlessTunnel.Multiplexer
