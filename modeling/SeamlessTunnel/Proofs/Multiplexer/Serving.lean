import SeamlessTunnel.Proofs.Multiplexer.Accounts
/-
  SeamlessTunnel.Proofs.Multiplexer.Serving — read requests are done with from the front.

  A step takes requests off the front of those that are pending, and each of them that
  someone waits for is answered for a reason (`Serves`). This holds of the parts of moves
  (`Serves.finish`, `Serves.crash`, ...) and carries over to sequences of them
  (`Serves.trans`).
-/

namespace SeamlessTunnel.Multiplexer.State

/-- From one state to the other requests are taken off the front, those that someone waits
    for with answers that satisfy `P`. -/
structure Serves (P : ReadRequest → Answer → Prop) (s t : State) : Prop where
  pending : ∃ front, s.pendingReads = front ++ t.pendingReads ∧
    ∀ r ∈ front, s.awaits r.caller = true → ∃ a, t.answer? r.caller = some a ∧ P r a
  shorter : t.reads.items.length ≤ s.reads.items.length
  callers : t.callers = s.callers
  answers : ∀ c a, s.answer? c = some a → t.answer? c = some a

section

variable {P : ReadRequest → Answer → Prop} {s t u : State} {c : Caller} {cs : List Caller}

theorem answer?_congr (h : t.calls = s.calls) : t.answer? c = s.answer? c := by
  rw [answer?, answer?, h]

theorem awaits_congr (h : t.calls = s.calls) : t.awaits c = s.awaits c := by
  rw [awaits, awaits, h]

/-- The caller of a pending request waits, unless it has gone away. -/
theorem Accounted.awaits_pending (h : Accounted s) {r : ReadRequest} (hr : r ∈ s.pendingReads) :
    s.awaits r.caller = true ∨ r.caller ∈ s.gone := by
  refine h.placed r.caller (List.mem_append_left _ (List.mem_append_left _ ?_))
  refine List.mem_append_left _ (List.mem_map_of_mem ?_)
  exact (List.Sublist.append_left (Mailbox.sublist_items s.reads) s.carried).subset hr

/-- A request that is still pending was not answered. -/
theorem Accounted.not_answered (h : Accounted t) {r : ReadRequest} (hr : r ∈ t.pendingReads) :
    t.answer? r.caller = none := by
  rcases h.awaits_pending hr with hw | hg
  · exact answer?_eq_none_of_awaits h.callers hw
  · exact answer?_eq_none_of_not_mem (h.gone _ hg)

namespace Serves

/-- Only refusals happen, and no request is taken away. -/
theorem of_refuse (cs : List Caller) (hpending : t.pendingReads = s.pendingReads)
    (hshorter : t.reads.items.length ≤ s.reads.items.length)
    (hcalls : t.calls = (s.refuse cs).calls) : Serves P s t := by
  refine ⟨⟨[], hpending.symm, fun _ hr => by cases hr⟩, hshorter, ?_, ?_⟩
  · rw [State.callers, hcalls]
    exact callers_refuse
  · intro c a h
    rw [answer?_congr hcalls]
    exact answer?_refuse_of_some h

theorem of_eq (hpending : t.pendingReads = s.pendingReads) (hreads : t.reads = s.reads)
    (hcalls : t.calls = s.calls) : Serves P s t :=
  of_refuse [] hpending (hreads ▸ Nat.le_refl _) hcalls

theorem refl : Serves P s s :=
  of_eq rfl rfl rfl

/-- Only requests and calls matter. -/
theorem congr (h : Serves P t u) (hpending : t.pendingReads = s.pendingReads)
    (hreads : t.reads = s.reads) (hcalls : t.calls = s.calls) : Serves P s u := by
  refine ⟨?_, hreads ▸ h.shorter, h.callers.trans (by rw [State.callers, hcalls]; rfl),
    fun c a ha => h.answers c a (by rwa [answer?_congr hcalls])⟩
  obtain ⟨front, hfront, hserved⟩ := h.pending
  exact ⟨front, hpending ▸ hfront, fun r hr hw => hserved r hr (by rwa [awaits_congr hcalls])⟩

/-- A request that nobody waits for is skipped. -/
theorem skip {r : ReadRequest} (hpending : s.pendingReads = r :: t.pendingReads)
    (hshorter : t.reads.items.length ≤ s.reads.items.length) (hcalls : t.calls = s.calls)
    (hw : s.awaits r.caller = false) : Serves P s t := by
  refine ⟨⟨[r], hpending, fun r' hr hw' => ?_⟩, hshorter, by rw [State.callers, hcalls]; rfl,
    fun c a h => by rwa [answer?_congr hcalls]⟩
  rw [List.mem_singleton.1 hr, hw] at hw'
  cases hw'

theorem trans (h : Serves P s t) (ht : Accounted t) (h' : Serves P t u) : Serves P s u := by
  obtain ⟨front, hfront, hserved⟩ := h.pending
  obtain ⟨front', hfront', hserved'⟩ := h'.pending
  refine ⟨⟨front ++ front', by rw [hfront, hfront', List.append_assoc], ?_⟩,
    Nat.le_trans h'.shorter h.shorter, h'.callers.trans h.callers,
    fun c a ha => h'.answers c a (h.answers c a ha)⟩
  intro r hr hw
  rcases List.mem_append.1 hr with hr | hr
  · obtain ⟨a, ha, hp⟩ := hserved r hr hw
    exact ⟨a, h'.answers _ _ ha, hp⟩
  · have hmem : r ∈ t.pendingReads := by
      rw [hfront']
      exact List.mem_append_left _ hr
    have hcaller : r.caller ∈ t.callers := h.callers ▸ mem_callers_of_awaits hw
    exact hserved' r hr ((ht.awaits_pending hmem).resolve_right fun hg => ht.gone _ hg hcaller)

/-- Answering takes no request away. -/
theorem answer {a : Answer} : Serves P s (s.answer c a) :=
  ⟨⟨[], rfl, fun _ hr => by cases hr⟩, Nat.le_refl _, callers_answer, fun _ _ h =>
    answer?_answer_of_some h⟩

/-- All that is pending is refused. -/
theorem drop (cs : List Caller) (hu : s.callers.Nodup) (hpending : t.pendingReads = [])
    (hcalls : t.calls = (s.refuse cs).calls) (hcs : ∀ r ∈ s.pendingReads, r.caller ∈ cs)
    (hP : ∀ r, P r (.failed .closed)) : Serves P s t := by
  have hitems : t.reads.items = [] := (List.append_eq_nil_iff.1 hpending).2
  refine ⟨⟨s.pendingReads, by rw [hpending, List.append_nil], fun r hr hw =>
    ⟨_, ?_, hP r⟩⟩, by rw [hitems]; exact Nat.zero_le _, ?_, ?_⟩
  · rw [answer?_congr hcalls]
    exact answer?_refuse_of_mem hu hw (hcs r hr)
  · rw [State.callers, hcalls]
    exact callers_refuse
  · intro c a ha
    rw [answer?_congr hcalls]
    exact answer?_refuse_of_some ha

/-! ## Acts -/

theorem shutReads (hu : s.callers.Nodup) (hcarried : s.carried = [])
    (hP : ∀ r, P r (.failed .closed)) : Serves P s s.shutReads := by
  have hparts : s.shutReads.carried = s.carried := carried_congr (by simp [State.shutReads])
    (by simp [State.shutReads])
  have hcalls : s.shutReads.calls = (s.refuse (s.reads.contents.map (·.caller))).calls :=
    calls_refuse rfl
  refine drop _ hu ?_ hcalls ?_ hP
  · rw [pendingReads, hparts, hcarried, reads_shutReads]
    rfl
  · intro r hr
    rw [pendingReads, hcarried] at hr
    exact List.mem_map_of_mem ((Mailbox.sublist_items s.reads).subset hr)

theorem shutWrites : Serves P s s.shutWrites :=
  of_refuse _ (by simp [pendingReads, carried, inRead, State.shutWrites]) (by simp) (calls_refuse rfl)

theorem handled (hh : Handled s t) : Serves P s t := by
  have hcarried := hh.carried
  obtain ⟨_, _, _, _, _, _, _, _, he⟩ := hh.eq
  exact of_eq (by rw [pendingReads, hcarried, he]; rfl) (by rw [he]) (by rw [he])

theorem endControl : Serves P s s.endControl :=
  of_refuse _ (by simp [State.endControl, pendingReads, carried, inRead]) (by simp [State.endControl])
    (calls_refuse rfl)

/-- The queue of reads ends in the hands of the coordinator, who has nothing else. -/
theorem dropReads (h : Accounted s) (hfree : s.holdsReads = true → s.reader = none)
    (hp : s.parked = none) (hP : ∀ r, P r (.failed .closed)) : Serves P s s.dropReads := by
  unfold State.dropReads
  split
  · rename_i hq
    have hcarried : s.carried = [] := by
      rw [carried, inRead_eq_none (hfree hq), hp]
      rfl
    have hshut : Serves P s s.shutReads := shutReads h.callers hcarried hP
    exact hshut.trans h.shutReads (of_eq rfl rfl rfl)
  · exact refl

theorem dropWrites : Serves P s s.dropWrites := by
  unfold State.dropWrites
  split
  · have hshut : Serves P s s.shutWrites := shutWrites
    exact ⟨hshut.pending, hshut.shorter, hshut.callers, hshut.answers⟩
  · exact refl

theorem finish (h : Accounted s) (hfree : s.holdsReads = true → s.reader = none)
    (hp : s.parked = none) (hP : ∀ r, P r (.failed .closed)) : Serves P s s.finish := by
  have hreads : Serves P s.endControl s.endControl.dropReads := by
    obtain ⟨_, _, he⟩ := endControl_eq s
    exact dropReads h.endControl (by rw [he]; exact hfree) (by rw [he]; exact hp) hP
  exact endControl.trans h.endControl (hreads.trans h.endControl.dropReads dropWrites)

/-- A request that no device could serve ends with an empty packet. -/
theorem releaseParked (hu : s.callers.Nodup) (hr : s.parked ≠ none → s.reader = none)
    (hP : ∀ r, s.parked = some r → P r (.packet [])) : Serves P s s.releaseParked := by
  unfold State.releaseParked
  split
  · rename_i r hp
    have hreader := hr (by simp [hp])
    refine ⟨⟨[r], ?_, fun r' hr' hw => ?_⟩, Nat.le_refl _, callers_answer, fun _ _ ha =>
      answer?_answer_of_some ha⟩
    · simp [pendingReads, carried, inRead, hreader, hp]
    · obtain rfl := List.mem_singleton.1 hr'
      exact ⟨_, answer?_answer_self hu hw, hP _ hp⟩
  · rename_i hp
    exact of_eq (by simp [pendingReads, carried, inRead, hp]) rfl rfl

theorem endShutdown (h : Accounted s) (hr : s.parked ≠ none → s.reader = none)
    (hempty : ∀ r, s.parked = some r → P r (.packet [])) :
    Serves P s (s.endTeardown (.shutdown c)) := by
  have hdone : Serves P { s.releaseParked with coordinator := .serving }
      (s.endTeardown (.shutdown c)) := answer
  exact (releaseParked h.callers hr hempty).trans h.releaseParked (hdone.congr rfl rfl rfl)

/-- A teardown ends with nothing pending in the hands of the coordinator. -/
theorem settleTeardown (h : Accounted s) (hfree : s.holdsReads = true → s.reader = none)
    (hr : s.parked ≠ none → s.reader = none)
    (hempty : s.settleTeardown.slots = [] → ∀ r, s.parked = some r → P r (.packet []))
    (hclosed : s.settleTeardown.isOver = true → ∀ r, P r (.failed .closed)) :
    Serves P s s.settleTeardown := by
  rcases settleTeardown_cases s with ⟨he, -⟩ | ⟨cause, hc, hnil, he⟩
  · rw [he]
    exact refl
  · rw [he] at hempty hclosed ⊢
    have hover : ∀ u : State, u.finish.isOver = true := fun u => by
      simp [isOver, coordinator_finish]
    cases cause with
    | shutdown c =>
      obtain ⟨_, hparts⟩ := endShutdown_eq s c
      exact endShutdown h hr (hempty (by rw [hparts]; exact hnil))
    | close c =>
      obtain ⟨_, hparts⟩ := endShutdown_eq s c
      obtain ⟨_, _, _, _, _, _, hfinish⟩ := finish_parts (s.endTeardown (.shutdown c))
      rw [endClose_eq] at hempty hclosed ⊢
      have hend := h.endShutdown (c := c) (by rw [hc]; rfl)
      exact (endShutdown h hr (hempty (by rw [hfinish, hparts]; exact hnil))).trans hend
        (finish hend (by rw [hparts]; exact hfree) (by rw [hparts]) (hclosed (hover _)))
    | released =>
      obtain ⟨_, hparts⟩ := releaseParked_eq s
      obtain ⟨_, _, _, _, _, _, hfinish⟩ := finish_parts s.releaseParked
      exact (releaseParked h.callers hr (hempty (by
        rw [State.endTeardown, hfinish, hparts]
        exact hnil))).trans h.releaseParked
          (finish h.releaseParked (by rw [hparts]; exact hfree) (by rw [hparts])
            (hclosed (hover _)))

theorem dropControl (h : Accounted s) (hr : s.parked ≠ none → s.reader = none)
    (hclosed : ∀ r, P r (.failed .closed)) : Serves P s s.dropControl := by
  have hcalls : s.dropControl.calls = (s.refuse (s.coordinator.caller?.toList ++
      controlCallers s.control ++ callersOf s.parked)).calls := calls_refuse rfl
  cases hp : s.parked with
  | none =>
    exact of_refuse _ (by simp [State.dropControl, pendingReads, carried, inRead, hp])
      (by simp [State.dropControl]) hcalls
  | some r =>
    have hreader := hr (by simp [hp])
    refine ⟨⟨[r], ?_, fun r' hr' hw => ⟨_, ?_, hclosed r'⟩⟩, by simp [State.dropControl], ?_, ?_⟩
    · simp [State.dropControl, pendingReads, carried, inRead, hp, hreader]
    · rw [answer?_congr hcalls]
      refine answer?_refuse_of_mem h.callers hw (List.mem_append_right _ ?_)
      rw [List.mem_singleton.1 hr', hp]
      exact List.mem_singleton_self _
    · rw [State.callers, hcalls]
      exact callers_refuse
    · intro c a ha
      rw [answer?_congr hcalls]
      exact answer?_refuse_of_some ha

/-- The read pump ends, and its queue with it. -/
theorem endReader (h : Accounted s) {exit : ReadExit} (hp : s.parked = none)
    (hin : s.inRead = (ReadStage.stopped exit).request?) (hclosed : ∀ r, P r (.failed .closed)) :
    Serves P s ({ s with reader := none }.shutReads.refuse exit.callers) := by
  have hcalls : ({ s with reader := none }.shutReads.refuse exit.callers).calls =
      (s.refuse (s.reads.contents.map (·.caller) ++ exit.callers)).calls := by
    rw [State.shutReads, refuse_append]
    exact calls_refuse rfl
  refine drop _ h.callers ?_ hcalls ?_ hclosed
  · simp [pendingReads, carried, inRead, State.shutReads, hp, Mailbox.shut]
  · intro r hr
    have hmem : r ∈ s.inRead.toList ++ s.reads.items := by
      simpa [pendingReads, carried, hp] using hr
    rcases List.mem_append.1 hmem with hr | hr
    · refine List.mem_append_right _ ?_
      rw [← callers_exit, ← hin]
      exact List.mem_map_of_mem hr
    · exact List.mem_append_left _
        (List.mem_map_of_mem ((Mailbox.sublist_items s.reads).subset hr))

theorem stopReader (h : Accounted s) {pump : ReadPump} {exit : ReadExit} (hp : s.parked = none)
    (hin : s.inRead = (ReadStage.stopped exit).request?)
    (hclosed : s.isOver = true → ∀ r, P r (.failed .closed)) :
    Serves P s (s.stopReader pump exit) := by
  unfold State.stopReader
  split
  · rename_i ho
    exact endReader h hp hin (hclosed ho)
  · refine of_eq ?_ rfl rfl
    rw [pendingReads, pendingReads, carried, carried, hin]
    rfl

theorem dropReader (h : Accounted s) (hp : s.parked = none) (hclosed : ∀ r, P r (.failed .closed)) :
    Serves P s s.dropReader := by
  unfold State.dropReader
  split
  · exact refl
  · rename_i pump hr
    split
    · rename_i exit hs
      exact endReader h hp (by rw [inRead_of_reader hr, hs]) hclosed
    · rename_i hs
      exact of_eq (by simp [pendingReads, carried, inRead, hr, hs, ReadStage.request?]) rfl rfl
    · exact refl
    · exact refl

theorem dropWriter : Serves P s s.dropWriter := by
  unfold State.dropWriter
  repeat' split
  · exact refl
  · have hfree : Serves P { s with writer := none } (State.shutWrites { s with writer := none }) :=
      shutWrites
    exact hfree.congr rfl rfl rfl
  · exact of_eq rfl rfl rfl
  · exact refl
  · exact refl
  · exact refl

theorem crash (h : Accounted s) (hfree : s.holdsReads = true → s.reader = none)
    (hr : s.parked ≠ none → s.reader = none) (hclosed : ∀ r, P r (.failed .closed)) :
    Serves P s s.crash := by
  obtain ⟨_, hcontrol⟩ := dropControl_eq s
  obtain ⟨_, _, _, hreads⟩ := dropReads_eq s.dropControl
  have hqueue : Serves P s.dropControl s.dropControl.dropReads :=
    dropReads h.dropControl (by rw [hcontrol]; exact hfree) (by rw [hcontrol]) hclosed
  have hpump : Serves P s.dropControl.dropReads s.dropControl.dropReads.dropReader :=
    dropReader h.dropControl.dropReads (by rw [hreads, hcontrol]) hclosed
  have hbefore := h.dropControl.dropReads.dropReader
  rw [crash_eq]
  exact (dropControl h hr hclosed).trans h.dropControl (hqueue.trans h.dropControl.dropReads
    (hpump.trans hbefore (dropWrites.trans hbefore.dropWrites dropWriter)))

end Serves

end

end SeamlessTunnel.Multiplexer.State
