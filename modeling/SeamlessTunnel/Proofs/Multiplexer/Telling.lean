import SeamlessTunnel.Proofs.Multiplexer.Keeping
import SeamlessTunnel.Proofs.Multiplexer.Writes
/-
  SeamlessTunnel.Proofs.Multiplexer.Telling — what the callers of reads are told.

  A move that answers the caller of a read passes on what the read of its device returned,
  ends a request that no device has served, or says that the multiplexer is closed
  (`ReadTold`, `tells_of_step`). What the parts of moves tell is put together by
  `Tells.trans`.
-/

namespace SeamlessTunnel.Multiplexer.State

/-- Between two states callers are told only what satisfies `P`. -/
def Tells (P : Caller → Answer → Prop) (s t : State) : Prop :=
  ∀ c a, t.answer? c = some a → s.answer? c = some a ∨ P c a

/-- What a move may tell the caller of a read. -/
inductive ReadTold (s : State) (m : Move) (t : State) (c : Caller) : Answer → Prop
  /-- The read of its device has returned a packet. -/
  | packet {id : DeviceId} {r : ReadRequest} {p : Packet} (hm : m = .readReturned (.value p))
      (hf : s.inFlight = some (id, r)) (hc : r.caller = c) : ReadTold s m t c (.packet p)
  /-- The read of its device has failed while the device was active. -/
  | failure {id : DeviceId} {r : ReadRequest} {e : TunnelError}
      (hm : m = .readReturned (.failure e)) (hf : s.inFlight = some (id, r)) (hc : r.caller = c)
      (ha : s.isDraining id = false) : ReadTold s m t c (.failed e)
  /-- The coordinator is done with a request that no device has served. -/
  | empty {r : ReadRequest} (hm : m.isWork = true) (hk : s.Keeps r) (hc : r.caller = c) :
      ReadTold s m t c (.packet [])
  /-- The multiplexer is closed, or a device has crashed. -/
  | closed (h : t.isOver = true ∨ m = .readReturned .crash) : ReadTold s m t c (.failed .closed)

section

variable {P : Caller → Answer → Prop} {s t u : State} {m : Move} {c : Caller} {cs : List Caller}

theorem answer?_of_answer {d : Caller} {a b : Answer} (h : (s.answer c a).answer? d = some b) :
    s.answer? d = some b ∨ d = c ∧ b = a := by
  by_cases hd : d = c
  · rw [answer?, find?_calls_answer] at h
    cases hf : s.calls.find? fun k => decide (k.caller = d) with
    | none =>
      rw [hf] at h
      cases h
    | some k =>
      have hk : k.caller = d := by simpa using List.find?_some hf
      rw [hf] at h
      cases hn : k.answer with
      | none =>
        simp [hk, hd, hn] at h
        exact .inr ⟨hd, h.symm⟩
      | some a' =>
        simp [hn] at h
        exact .inl (by rw [answer?, hf, ← h]; exact hn)
  · rw [answer?_answer_of_ne hd] at h
    exact .inl h

/-- A new call has no answer yet. -/
theorem answer?_enlist {d : Caller} : (s.enlist c).answer? d = s.answer? d := by
  rw [answer?, answer?, enlist, List.find?_append]
  cases hf : s.calls.find? fun k => decide (k.caller = d) with
  | some k => rfl
  | none => by_cases hd : c = d <;> simp [hd]

/-- Calls that are taken away are those of one caller. -/
theorem answer?_filter_of_ne {d : Caller} (h : d ≠ c) :
    State.answer? { s with calls := s.calls.filter (·.caller != c) } d = s.answer? d := by
  have hsame : (fun k : Call => decide ((k.caller != c) = true ∧ decide (k.caller = d) = true)) =
      fun k => decide (k.caller = d) := by
    funext k
    by_cases hk : k.caller = d <;> simp [hk, h]
  rw [answer?, answer?, List.find?_filter, hsame]

/-- Calls that are taken away have no answers. -/
theorem answer?_of_filter {d : Caller} {a : Answer}
    (h : State.answer? { s with calls := s.calls.filter (·.caller != c) } d = some a) :
    s.answer? d = some a := by
  by_cases hd : d = c
  · subst hd
    have hnone : s.calls.find? (fun k =>
        decide ((k.caller != d) = true ∧ decide (k.caller = d) = true)) = none :=
      List.find?_eq_none.2 fun k _ => by simp
    rw [answer?, List.find?_filter, hnone] at h
    cases h
  · exact (answer?_filter_of_ne hd).symm.trans h

namespace Tells

/-! ## Parts of moves -/

theorem of_calls (h : t.calls = s.calls) : Tells P s t := fun _ _ ha =>
  .inl ((answer?_congr h).symm.trans ha)

theorem refl : Tells P s s :=
  of_calls rfl

theorem trans (h : Tells P s t) (h' : Tells P t u) : Tells P s u := fun c a ha =>
  (h' c a ha).elim (h c a) .inr

theorem answer {a : Answer} (hP : P c a) : Tells P s (s.answer c a) := fun d b hb => by
  rcases answer?_of_answer hb with hb | ⟨rfl, rfl⟩
  · exact .inl hb
  · exact .inr hP

theorem refuse (hP : ∀ c ∈ cs, P c (.failed .closed)) : Tells P s (s.refuse cs) := by
  induction cs generalizing s with
  | nil => exact refl
  | cons c cs ih =>
    rw [refuse_cons]
    exact (answer (hP c List.mem_cons_self)).trans (ih fun d hd => hP d (List.mem_cons_of_mem _ hd))

/-- Only refusals happen. -/
theorem of_refuse (h : t.calls = (s.refuse cs).calls) (hP : ∀ c ∈ cs, P c (.failed .closed)) :
    Tells P s t :=
  (refuse hP).trans (of_calls h)

theorem shutReads (hP : ∀ c, P c (.failed .closed)) : Tells P s s.shutReads :=
  of_refuse (calls_refuse rfl) fun c _ => hP c

theorem shutWrites (hP : ∀ r ∈ s.writes.contents, P r.caller (.failed .closed)) :
    Tells P s s.shutWrites :=
  of_refuse (calls_refuse rfl) (List.forall_mem_map.2 hP)

theorem dropReads (hP : ∀ c, P c (.failed .closed)) : Tells P s s.dropReads := by
  unfold State.dropReads
  split
  · exact (shutReads hP).trans (of_calls rfl)
  · exact refl

theorem dropWrites (hP : ∀ c, P c (.failed .closed)) : Tells P s s.dropWrites := by
  unfold State.dropWrites
  split
  · exact (shutWrites fun r _ => hP r.caller).trans (of_calls rfl)
  · exact refl

theorem finish (hP : ∀ c, P c (.failed .closed)) : Tells P s s.finish := by
  have hcontrol : Tells P s s.endControl := of_refuse (calls_refuse rfl) fun c _ => hP c
  rw [finish_eq]
  exact hcontrol.trans ((dropReads hP).trans (dropWrites hP))

theorem releaseParked (hP : ∀ r, s.parked = some r → P r.caller (.packet [])) :
    Tells P s s.releaseParked := by
  unfold State.releaseParked
  split
  · rename_i r hp
    exact answer (hP r hp)
  · exact of_calls rfl

/-- The end of a teardown empties what is parked and tells who waits for it. -/
theorem settleTeardown
    (hparked : ∀ r, s.parked = some r → s.slots = [] → P r.caller (.packet []))
    (hresult : ∀ c a, s.coordinator.caller? = some c → P c a)
    (hclosed : s.settleTeardown.isOver = true → ∀ c, P c (.failed .closed)) :
    Tells P s s.settleTeardown := by
  rcases settleTeardown_cases s with ⟨he, -⟩ | ⟨cause, hc, hnil, he⟩
  · rw [he]
    exact refl
  · have hreleased : Tells P s s.releaseParked := releaseParked fun r hp => hparked r hp hnil
    have hover : ∀ u : State, u.finish.isOver = true := fun u => by
      simp [isOver, coordinator_finish]
    rw [he] at hclosed ⊢
    cases cause with
    | shutdown c =>
      exact (hreleased.trans (of_calls rfl)).trans
        (answer (s := { s.releaseParked with coordinator := .serving })
          (hresult c _ (by rw [hc]; rfl)))
    | close c =>
      exact (hreleased.trans (answer (hresult c _ (by rw [hc]; rfl)))).trans
        (finish (hclosed (hover _)))
    | released => exact hreleased.trans (finish (hclosed (hover _)))

theorem crash (hP : ∀ c, P c (.failed .closed)) : Tells P s s.crash := by
  have hcontrol : Tells P s s.dropControl := of_refuse (calls_refuse rfl) fun c _ => hP c
  have hreader : ∀ u : State, Tells P u u.dropReader := fun u => by
    unfold dropReader
    repeat' split
    · exact refl
    · exact ((of_calls rfl).trans (shutReads (s := { u with reader := none }) hP)).trans
        (refuse fun c _ => hP c)
    · exact of_calls rfl
    · exact refl
    · exact refl
  have hwriter : ∀ u : State, Tells P u u.dropWriter := fun u => by
    unfold dropWriter
    repeat' split
    · exact refl
    · exact (of_calls rfl).trans
        (shutWrites (s := { u with writer := none }) fun r _ => hP r.caller)
    · exact of_calls rfl
    · exact refl
    · exact refl
    · exact refl
  rw [crash_eq]
  exact hcontrol.trans
    ((dropReads hP).trans ((hreader _).trans ((dropWrites hP).trans (hwriter _))))

theorem stopReader {pump : ReadPump} {exit : ReadExit}
    (hP : s.isOver = true → ∀ c, P c (.failed .closed)) : Tells P s (s.stopReader pump exit) := by
  unfold State.stopReader
  split
  · rename_i ho
    exact ((of_calls rfl).trans (shutReads (s := { s with reader := none }) (hP ho))).trans
      (refuse fun c _ => hP ho c)
  · exact of_calls rfl

theorem stopWriter {pump : WritePump} {exit : WriteExit}
    (hP : ∀ r ∈ s.writes.contents, P r.caller (.failed .closed)) :
    Tells P s (s.stopWriter pump exit) := by
  unfold State.stopWriter
  simp only []
  split
  · exact (of_calls rfl).trans (shutWrites (s := { s.dropForwarder with writer := none }) hP)
  · exact of_calls rfl

end Tells

/-! ## Moves -/

/-- Nobody waits for a read and for something else. -/
theorem Accounted.not_mem_readers (h : Accounted s)
    (hc : c ∈ s.writers ∨ c ∈ s.askers ∨ c ∈ s.listeners) : c ∉ s.readers := by
  intro hr
  have hone := List.nodup_iff_count_le_one.1 h.once c
  have hpos := List.count_pos_iff.2 hr
  rw [count_places] at hone
  rcases hc with hc | hc | hc
  all_goals
    have hpos' := List.count_pos_iff.2 hc
    omega

/-- What a move tells the callers of reads; others do not matter. -/
def TellsReaders (s : State) (m : Move) (t : State) : Prop :=
  Tells (fun c a => c ∈ s.readers → ReadTold s m t c a) s t

theorem tells_pollReader (hs : s.pollReader = some t) : TellsReaders s .pollReader t := by
  have hstop : ∀ pump exit, t = s.stopReader pump exit → TellsReaders s .pollReader t := by
    rintro pump exit rfl
    exact .stopReader fun ho c _ => .closed (.inl (isOver_stopReader.trans ho))
  obtain ⟨pump, -, ⟨_, -, rfl⟩ | ⟨-, -, he⟩ | ⟨_, _, -, -, -, rfl⟩ | ⟨-, -, -, he⟩⟩ :=
    pollReader_cases hs
  · exact .of_calls rfl
  · exact hstop _ _ he
  · exact .of_calls rfl
  · exact hstop _ _ he

theorem tells_readReturned {out : Outcome Packet} (hs : s.readReturned out = some t) :
    TellsReaders s (.readReturned out) t := by
  obtain ⟨pump, r, hp, hstage, hcases⟩ := readReturned_cases hs
  have hf : s.inFlight = some (pump.id, r) := by
    rw [inFlight_of_reader hp, hstage]
    rfl
  rcases hcases with ⟨p, rfl, rfl⟩ | ⟨e, -, -, rfl⟩ | ⟨e, rfl, hd, rfl⟩ | ⟨rfl, rfl⟩
  · exact Tells.answer (s := { s with reader := some { pump with stage := .ready none } })
      fun _ => .packet rfl hf rfl
  · exact .stopReader fun ho c _ => .closed (.inl (isOver_stopReader.trans ho))
  · refine Tells.trans (Tells.answer fun _ => .failure rfl hf rfl hd) ?_
    exact .stopReader (s := s.answer r.caller (.failed e)) fun ho c _ =>
      .closed (.inl (isOver_stopReader.trans ho))
  · refine Tells.trans (t := State.refuse { s with
      reader := if s.isOver then none else some { pump with stage := .crashed } } [r.caller]) ?_ ?_
    · exact .of_refuse (calls_refuse rfl) fun c _ _ => .closed (.inr rfl)
    · exact .shutReads fun c _ => .closed (.inr rfl)

/-- Those who wait for the answer to something else are told it. -/
theorem Accounted.tells_answer (h : Accounted s)
    (hc : c ∈ s.writers ∨ c ∈ s.askers ∨ c ∈ s.listeners) (hcalls : u.calls = s.calls)
    {a : Answer} : TellsReaders s m (u.answer c a) :=
  (Tells.of_calls hcalls).trans (.answer fun hr => absurd hr (h.not_mem_readers hc))

theorem Accounted.not_reader_of_write (h : Accounted s) {r : WriteRequest}
    (hr : r ∈ s.writes.contents) : r.caller ∉ s.readers :=
  h.not_mem_readers (.inl (caller_mem_writers hr))

theorem tells_pollWriter (h : Accounted s) (hs : s.pollWriter = some t) :
    TellsReaders s .pollWriter t := by
  have hwriters : ∀ r ∈ s.writes.contents, r.caller ∈ s.readers →
      ReadTold s .pollWriter t r.caller (.failed .closed) := fun r hr hc =>
    absurd hc (h.not_reader_of_write hr)
  obtain ⟨pump, -, ⟨-, -, rfl⟩ | ⟨-, rfl⟩ | ⟨_, _, -, -, -, rfl⟩ | ⟨-, -, -, rfl⟩⟩ :=
    pollWriter_cases hs
  · exact .stopWriter hwriters
  · exact .of_calls rfl
  · exact .of_calls rfl
  · exact .stopWriter hwriters

theorem tells_writeReturned (h : Accounted s) {out : Outcome Nat}
    (hs : s.writeReturned out = some t) : TellsReaders s (.writeReturned out) t := by
  obtain ⟨pump, r, hw, hstage, hcases⟩ := writeReturned_cases hs
  have hmem : r.caller ∈ s.writers := by
    rw [writers, inWrite_of_writer hw, hstage]
    exact List.mem_cons_self
  rcases hcases with ⟨a, -, rfl⟩ | ⟨-, rfl⟩
  · exact h.tells_answer (u := { s with writer := some { pump with stage := .ready } })
      (.inl hmem) rfl
  · refine Tells.trans (t := State.refuse { s with
      writer := if s.isOver then none else some { pump with stage := .crashed } } [r.caller]) ?_ ?_
    · refine .of_refuse (calls_refuse rfl) fun c hc hr => ?_
      rw [List.mem_singleton.1 hc] at hr
      exact absurd hr (h.not_mem_readers (.inl hmem))
    · refine .shutWrites fun r' hr' hc => ?_
      rw [writes_refuse] at hr'
      exact absurd hc (h.not_reader_of_write hr')

theorem tells_call (h : Accounted s) {op : Operation} (hs : s.call c op = some t) :
    TellsReaders s (.call c op) t := by
  have hlisted : ∀ P, Tells P s (s.enlist c) := fun _ _ _ ha => .inl (answer?_enlist.symm.trans ha)
  obtain ⟨⟨-, hc, hg⟩, ⟨_, -, rfl⟩ | ⟨_, -, rfl⟩ | ⟨-, rfl⟩ | ⟨_, -, -, rfl⟩ | rfl⟩ := call_cases hs
  · exact (hlisted _).trans (.of_calls rfl)
  · exact (hlisted _).trans (.of_calls rfl)
  · exact (hlisted _).trans (.of_calls rfl)
  · exact (hlisted _).trans (.of_calls rfl)
  · refine (hlisted _).trans (.refuse fun d hd hr => ?_)
    rw [List.mem_singleton.1 hd] at hr
    have hplace : c ∈ s.places :=
      List.mem_append_left _ (List.mem_append_left _ (List.mem_append_left _ hr))
    exact absurd hplace (h.not_mem_places hc hg)

theorem tells_of_filter (hcalls : t.calls = s.calls.filter (·.caller != c)) :
    TellsReaders s m t := fun d a ha => by
  refine .inl (answer?_of_filter (c := c) ?_)
  rwa [answer?_congr (s := { s with calls := s.calls.filter (·.caller != c) }) hcalls] at ha

/-- What the coordinator tells the callers of reads. -/
theorem Settled.tells_act (h : Settled s) (hacc : Accounted s) (hm : m.isWork = true)
    (hs : s.step m = some t) : TellsReaders s m t := by
  cases h.act hm hs with
  | @answer c rest a hc =>
    refine hacc.tells_answer (u := { s with control := rest }) (.inr (.inl ?_)) rfl
    rw [askers, hc]
    simp
  | ask => exact .of_calls rfl
  | fail closers =>
    have hcrash : Tells
        (fun c a => c ∈ s.readers → ReadTold s m (State.crash { s with closers }) c a)
        { s with closers } (State.crash { s with closers }) :=
      .crash fun c _ => .closed (.inl isOver_crash)
    exact (Tells.of_calls rfl).trans hcrash
  | @handle control coordinator u hc hh ht =>
    have hcalls : u.calls = s.calls := by
      obtain ⟨_, _, _, _, _, _, _, _, he⟩ := hh.eq
      rw [he]
    have hcoord : u.coordinator = coordinator := by
      obtain ⟨_, _, _, _, _, _, _, _, he⟩ := hh.eq
      rw [he]
    refine (Tells.of_calls hcalls).trans (.settleTeardown ?_ ?_ ?_)
    · intro r hp _ _
      have hreader : u.reader = none := (ht.reads.parked (by simp [hp])).1
      have hcarried : u.carried = [r] := by simp [carried, inRead_eq_none hreader, hp]
      exact .empty hm ⟨hh.carried.symm.trans hcarried,
        hh.inFlight.symm.trans (inFlight_eq_none hreader)⟩ rfl
    · intro c a hcaller hr
      refine absurd hr (hacc.not_mem_readers (.inr (.inl ?_)))
      rw [hcoord] at hcaller
      rw [askers, ← hc, hcaller]
      simp
    · exact fun ho c _ => .closed (.inl ho)

theorem tells_of_step (hacc : Accounted s) (hset : s.isOver = false → Settled s)
    (hs : s.step m = some t) : TellsReaders s m t := by
  cases m with
  | call c op => exact tells_call hacc hs
  | enter c =>
    obtain ⟨_, -, rfl⟩ | ⟨_, -, rfl⟩ := enter_cases hs
    · exact .of_calls rfl
    · exact .of_calls rfl
  | leave c =>
    obtain ⟨_, -, rfl⟩ := leave_cases hs
    exact tells_of_filter (c := c) (by simp)
  | cancel c =>
    obtain ⟨-, rfl⟩ := cancel_cases hs
    exact tells_of_filter (c := c) (by simp [quit])
  | add device =>
    obtain rfl := step_add hs
    obtain ⟨_, he⟩ := add_parts s device
    exact .of_calls (by rw [he])
  | release =>
    simp only [State.step, State.release] at hs
    split at hs
    · obtain rfl := Option.some.inj hs
      exact .of_calls (by simp)
    · cases hs
  | control => exact (hset (isOver_of_isWork rfl hs)).tells_act hacc rfl hs
  | joinReader => exact (hset (isOver_of_isWork rfl hs)).tells_act hacc rfl hs
  | joinWriter => exact (hset (isOver_of_isWork rfl hs)).tells_act hacc rfl hs
  | joinCloser id => exact (hset (isOver_of_isWork rfl hs)).tells_act hacc rfl hs
  | pollReader => exact tells_pollReader hs
  | pollWriter => exact tells_pollWriter hacc hs
  | pollForwarder =>
    obtain ⟨_, _, rfl⟩ := pollForwarder_eq hs
    exact .of_calls rfl
  | takeEvent =>
    obtain ⟨c, rest, _, events, hl, rfl⟩ := takeEvent_eq hs
    have hc : c ∈ s.listeners := by
      rw [hl]
      exact List.mem_cons_self
    exact hacc.tells_answer (u := { s with events, listeners := rest }) (.inr (.inr hc)) rfl
  | readReturned out => exact tells_readReturned hs
  | writeReturned out => exact tells_writeReturned hacc hs
  | eventReturned out =>
    obtain ⟨_, _, rfl⟩ := eventReturned_eq hs
    exact .of_calls rfl
  | closeReturned id out =>
    obtain ⟨-, rfl⟩ := closeReturned_cases hs
    exact .of_calls rfl
  | lateCloseReturned id =>
    obtain rfl := lateCloseReturned_cases hs
    exact .of_calls rfl
  | answered ticket out =>
    obtain ⟨q, _, hq, rfl⟩ := answered_cases hs
    refine hacc.tells_answer (u := { s with
      queries := s.queries.filter (·.ticket != ticket) }) (.inr (.inl ?_)) rfl
    exact List.mem_append_right _ (List.mem_map_of_mem (List.mem_of_find?_eq_some hq))

end

end SeamlessTunnel.Multiplexer.State
