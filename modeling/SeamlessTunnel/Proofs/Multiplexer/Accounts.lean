import SeamlessTunnel.Proofs.Multiplexer.Requests
/-
  SeamlessTunnel.Proofs.Multiplexer.Accounts — every request is in one place.

  A caller that something is kept for waits for it or has given up, and nothing is kept for
  a caller twice (`Accounted`). So an answer goes to one caller and leaves nothing of its
  call behind (`accounted_of_run`).
-/

namespace SeamlessTunnel.Multiplexer

namespace State

/-! ## Places -/

def readers (s : State) : List Caller :=
  (s.carried ++ s.reads.contents).map (·.caller)

def writers (s : State) : List Caller :=
  (s.inWrite.toList ++ s.writes.contents).map (·.caller)

def askers (s : State) : List Caller :=
  s.coordinator.caller?.toList ++ controlCallers s.control ++ s.queries.map (·.caller)

/-- The callers that something is kept for. -/
def places (s : State) : List Caller :=
  s.readers ++ s.writers ++ s.askers ++ s.listeners

structure Accounted (s : State) : Prop where
  callers : s.callers.Nodup
  gone : ∀ c ∈ s.gone, c ∉ s.callers
  once : s.places.Nodup
  placed : ∀ c ∈ s.places, s.awaits c = true ∨ c ∈ s.gone

section

variable {s t : State} {c : Caller} {cs : List Caller} {id : DeviceId}

theorem count_places (d : Caller) : s.places.count d =
    s.readers.count d + s.writers.count d + s.askers.count d + s.listeners.count d := by
  simp only [places, List.count_append]

theorem places_refuse : (s.refuse cs).places = s.places :=
  refuse_rec (p := fun u => u.places = s.places) rfl fun _ _ hu => hu

/-- Less is kept, and those for whom something is kept still wait. -/
theorem Accounted.of_le (h : Accounted s) (hcallers : t.callers.Sublist s.callers)
    (hgone : t.gone = s.gone) (hcount : ∀ d, t.places.count d ≤ s.places.count d)
    (ha : ∀ d ∈ t.places, s.awaits d = true → t.awaits d = true) : Accounted t := by
  refine ⟨h.callers.sublist hcallers, fun d hd hc => h.gone d (hgone ▸ hd) (hcallers.subset hc),
    List.nodup_iff_count_le_one.2 ?_, ?_⟩
  · intro d
    exact Nat.le_trans (hcount d) (List.nodup_iff_count_le_one.1 h.once d)
  · intro d hd
    have hpos := Nat.lt_of_lt_of_le (List.count_pos_iff.2 hd) (hcount d)
    rcases h.placed d (List.count_pos_iff.1 hpos) with hw | hg
    · exact .inl (ha d hd hw)
    · exact .inr (hgone ▸ hg)

/-- Some callers are answered, and what was kept for them is gone. -/
theorem Accounted.settle (h : Accounted s) (cs : List Caller)
    (hcallers : t.callers.Sublist s.callers) (hgone : t.gone = s.gone)
    (hcount : ∀ d, t.places.count d + cs.count d ≤ s.places.count d)
    (ha : ∀ d, s.awaits d = true → d ∉ cs → t.awaits d = true) : Accounted t := by
  refine h.of_le hcallers hgone (fun d => Nat.le_trans (Nat.le_add_right _ _) (hcount d)) ?_
  intro d hd hw
  have hpos := List.count_pos_iff.2 hd
  have hle := hcount d
  have hone := List.nodup_iff_count_le_one.1 h.once d
  refine ha d hw (List.count_eq_zero.1 ?_)
  omega

/-- Nobody is answered. -/
theorem Accounted.move (h : Accounted s) (hcalls : t.calls = s.calls) (hgone : t.gone = s.gone)
    (hcount : ∀ d, t.places.count d ≤ s.places.count d) : Accounted t := by
  refine h.settle [] ?_ hgone ?_ ?_
  · rw [State.callers, hcalls]
    exact .refl _
  · intro d
    exact hcount d
  · intro d hd _
    rw [awaits, hcalls]
    exact hd

/-- One caller is answered. -/
theorem Accounted.answer (h : Accounted s) {a : Answer} (hcalls : t.calls = s.calls)
    (hgone : t.gone = s.gone) (hcount : ∀ d, t.places.count d + [c].count d ≤ s.places.count d) :
    Accounted (t.answer c a) := by
  refine h.settle [c] ?_ hgone hcount ?_
  · rw [callers_answer, State.callers, hcalls]
    exact .refl _
  · intro d hd hne
    refine awaits_answer.2 ⟨?_, by simpa using hne⟩
    rw [awaits, hcalls]
    exact hd

/-- Some callers are refused. -/
theorem Accounted.refuse (h : Accounted s) (hcalls : t.calls = s.calls) (hgone : t.gone = s.gone)
    (hcount : ∀ d, t.places.count d + cs.count d ≤ s.places.count d) :
    Accounted (t.refuse cs) := by
  refine h.settle cs ?_ (by simpa using hgone) ?_ ?_
  · rw [callers_refuse, State.callers, hcalls]
    exact .refl _
  · rw [places_refuse]
    exact hcount
  · intro d hd hne
    refine awaits_refuse.2 ⟨?_, hne⟩
    rw [awaits, hcalls]
    exact hd

/-! ## Callers -/

theorem Accounted.not_mem_places (h : Accounted s) (hc : c ∉ s.callers) (hg : c ∉ s.gone) :
    c ∉ s.places := fun hp => by
  rcases h.placed c hp with hw | hg'
  · exact hc (mem_callers_of_awaits hw)
  · exact hg hg'

theorem awaits_enlist {d : Caller} :
    (s.enlist c).awaits d = true ↔ s.awaits d = true ∨ d = c := by
  rw [awaits_iff, awaits_iff]
  constructor
  · rintro ⟨k, hk, hd, hn⟩
    rcases List.mem_append.1 hk with hk | hk
    · exact .inl ⟨k, hk, hd, hn⟩
    · rw [List.mem_singleton.1 hk] at hd
      exact .inr hd.symm
  · rintro (⟨k, hk, hd, hn⟩ | rfl)
    · exact ⟨k, List.mem_append_left _ hk, hd, hn⟩
    · exact ⟨_, List.mem_append_right _ (List.mem_singleton_self _), rfl, rfl⟩

/-- A call is made, and something is kept for its caller or nothing. -/
theorem Accounted.enlist (h : Accounted s) (hc : c ∉ s.callers) (hg : c ∉ s.gone)
    (hcalls : t.calls = (s.enlist c).calls) (hgone : t.gone = s.gone)
    (hcount : ∀ d, t.places.count d ≤ s.places.count d + [c].count d) : Accounted t := by
  have hout := h.not_mem_places hc hg
  have hcallers : t.callers = s.callers ++ [c] := by
    simp [State.callers, hcalls, State.enlist]
  have hawaits : ∀ d, t.awaits d = true ↔ s.awaits d = true ∨ d = c := fun d => by
    rw [← awaits_enlist, awaits, awaits, hcalls]
  refine ⟨?_, ?_, List.nodup_iff_count_le_one.2 ?_, ?_⟩
  · rw [hcallers]
    refine List.nodup_append.2 ⟨h.callers, List.nodup_singleton c, ?_⟩
    intro d hd d' hd' he
    rw [List.mem_singleton.1 hd'] at he
    exact hc (he ▸ hd)
  · intro d hd hm
    rw [hgone] at hd
    rw [hcallers] at hm
    rcases List.mem_append.1 hm with hm | hm
    · exact h.gone d hd hm
    · exact hg (List.mem_singleton.1 hm ▸ hd)
  · intro d
    have hle := hcount d
    have hone := List.nodup_iff_count_le_one.1 h.once d
    by_cases hd : d = c
    · subst hd
      rw [List.count_eq_zero.2 hout, List.count_singleton_self] at hle
      omega
    · rw [List.count_eq_zero.2 (fun hm => hd (List.mem_singleton.1 hm))] at hle
      omega
  · intro d hd
    by_cases hdc : d = c
    · exact .inl ((hawaits d).2 (.inr hdc))
    · have hpos := List.count_pos_iff.2 hd
      have hle := hcount d
      rw [List.count_eq_zero.2 (fun hm => hdc (List.mem_singleton.1 hm))] at hle
      rcases h.placed d (List.count_pos_iff.1 (by omega)) with hw | hg'
      · exact .inl ((hawaits d).2 (.inl hw))
      · exact .inr (hgone ▸ hg')

theorem count_readers (d : Caller) : s.readers.count d =
    (s.carried.map (·.caller)).count d + (s.reads.contents.map (·.caller)).count d := by
  rw [readers, List.map_append, List.count_append]

theorem count_writers (d : Caller) : s.writers.count d =
    (s.inWrite.toList.map (·.caller)).count d + (s.writes.contents.map (·.caller)).count d := by
  rw [writers, List.map_append, List.count_append]

theorem count_askers (d : Caller) : s.askers.count d = s.coordinator.caller?.toList.count d +
    (controlCallers s.control).count d + (s.queries.map (·.caller)).count d := by
  simp only [askers, List.count_append]

theorem count_send {α : Type} {m : Mailbox α} {a : α} {f : α → Caller} (ha : f a = c)
    (d : Caller) :
    ((m.send a).contents.map f).count d = (m.contents.map f).count d + [c].count d := by
  rw [(Mailbox.perm_send.map f).count_eq, ← List.singleton_append, List.map_append,
    List.count_append, List.map_singleton, ha]
  exact Nat.add_comm _ _

/-! ### One line changes -/

section

variable {d : Caller} {n m : Nat}

theorem count_of_readers (hw : t.writers = s.writers) (ha : t.askers = s.askers)
    (hl : t.listeners = s.listeners) (h : t.readers.count d + n ≤ s.readers.count d + m) :
    t.places.count d + n ≤ s.places.count d + m := by
  rw [count_places, count_places, hw, ha, hl]
  omega

theorem count_of_writers (hr : t.readers = s.readers) (ha : t.askers = s.askers)
    (hl : t.listeners = s.listeners) (h : t.writers.count d + n ≤ s.writers.count d + m) :
    t.places.count d + n ≤ s.places.count d + m := by
  rw [count_places, count_places, hr, ha, hl]
  omega

theorem count_of_askers (hr : t.readers = s.readers) (hw : t.writers = s.writers)
    (hl : t.listeners = s.listeners) (h : t.askers.count d + n ≤ s.askers.count d + m) :
    t.places.count d + n ≤ s.places.count d + m := by
  rw [count_places, count_places, hr, hw, hl]
  omega

theorem count_of_listeners (hr : t.readers = s.readers) (hw : t.writers = s.writers)
    (ha : t.askers = s.askers) (h : t.listeners.count d + n ≤ s.listeners.count d + m) :
    t.places.count d + n ≤ s.places.count d + m := by
  rw [count_places, count_places, hr, hw, ha]
  omega

end

theorem Accounted.call (h : Accounted s) {op : Operation} (hs : s.call c op = some t) :
    Accounted t := by
  obtain ⟨⟨-, hc, hg⟩, ⟨size, -, rfl⟩ | ⟨packet, -, rfl⟩ | ⟨-, rfl⟩ | ⟨m, hm, -, rfl⟩ | rfl⟩ :=
    call_cases hs
  · refine h.enlist hc hg rfl rfl fun d => count_of_readers (n := 0) rfl rfl rfl ?_
    have hline : readers { s.enlist c with reads := s.reads.send ⟨c, size⟩ } =
        (s.carried ++ (s.reads.send ⟨c, size⟩).contents).map (·.caller) := rfl
    rw [hline, List.map_append, List.count_append, count_send (c := c) rfl, count_readers]
    omega
  · refine h.enlist hc hg rfl rfl fun d => count_of_writers (n := 0) rfl rfl rfl ?_
    have hline : writers { s.enlist c with writes := s.writes.send ⟨c, packet⟩ } =
        (s.inWrite.toList ++ (s.writes.send ⟨c, packet⟩).contents).map (·.caller) := rfl
    rw [hline, List.map_append, List.count_append, count_send (c := c) rfl, count_writers]
    omega
  · refine h.enlist hc hg rfl rfl fun d => count_of_listeners (n := 0) rfl rfl rfl ?_
    exact Nat.le_of_eq List.count_append
  · refine h.enlist hc hg rfl rfl fun d => count_of_askers (n := 0) rfl rfl rfl ?_
    have hline : askers { s.enlist c with control := s.control ++ [m] } =
        s.coordinator.caller?.toList ++ (controlCallers s.control ++ [c]) ++
          s.queries.map (·.caller) := by
      simp [askers, controlCallers, State.enlist, caller?_controlOf hm]
    rw [hline, List.count_append, List.count_append, List.count_append, count_askers]
    omega
  · have hlisted : Accounted (s.enlist c) :=
      h.enlist hc hg rfl rfl fun d => Nat.le_add_right _ _
    refine hlisted.of_le (by simp) (by simp) ?_ ?_
    · intro d
      exact Nat.le_of_eq (by rw [places_refuse])
    · intro d hd hw
      rw [places_refuse] at hd
      refine awaits_refuse.2 ⟨hw, fun he => h.not_mem_places hc hg ?_⟩
      rw [← List.mem_singleton.1 he]
      exact hd

theorem Accounted.enter (h : Accounted s) (hs : s.enter c = some t) : Accounted t := by
  rcases enter_cases hs with ⟨reads, hr, rfl⟩ | ⟨writes, hw, rfl⟩
  · refine h.move rfl rfl fun d => count_of_readers (n := 0) (m := 0) rfl rfl rfl ?_
    have hline : readers { s with reads } =
        (s.carried ++ reads.contents).map (·.caller) := rfl
    exact Nat.le_of_eq (by rw [hline, List.map_append, List.count_append,
      ((Mailbox.perm_enter hr).map _).count_eq, count_readers])
  · refine h.move rfl rfl fun d => count_of_writers (n := 0) (m := 0) rfl rfl rfl ?_
    have hline : writers { s with writes } =
        (s.inWrite.toList ++ writes.contents).map (·.caller) := rfl
    exact Nat.le_of_eq (by rw [hline, List.map_append, List.count_append,
      ((Mailbox.perm_enter hw).map _).count_eq, count_writers])

@[simp] theorem places_releaseEvents : s.releaseEvents.places = s.places := by
  unfold releaseEvents
  split <;> rfl

@[simp] theorem calls_releaseEvents : s.releaseEvents.calls = s.calls := by
  unfold releaseEvents
  split <;> rfl

@[simp] theorem gone_releaseEvents : s.releaseEvents.gone = s.gone := by
  unfold releaseEvents
  split <;> rfl

theorem Accounted.releaseEvents (h : Accounted s) : Accounted s.releaseEvents :=
  h.move (by simp) (by simp) (by simp)

theorem Accounted.leave (h : Accounted s) (hs : s.leave c = some t) : Accounted t := by
  obtain ⟨a, ha, rfl⟩ := leave_cases hs
  have hleft : Accounted { s with calls := s.calls.filter (·.caller != c) } := by
    refine h.of_le (List.filter_sublist.map _) rfl (fun d => Nat.le_refl _) ?_
    intro d hd hw
    have hne : d ≠ c := by
      rintro rfl
      rw [answer?_eq_none_of_awaits h.callers hw] at ha
      cases ha
    obtain ⟨k, hk, he, hn⟩ := awaits_iff.1 hw
    exact awaits_iff.2 ⟨k, List.mem_filter.2 ⟨hk, by simpa [he] using hne⟩, he, hn⟩
  exact hleft.releaseEvents

theorem Accounted.cancel (h : Accounted s) (hs : s.cancel c = some t) : Accounted t := by
  obtain ⟨hc, rfl⟩ := cancel_cases hs
  have hreaders : (s.quit c).readers.Sublist s.readers :=
    ((List.Sublist.refl s.carried).append Mailbox.sublist_withdraw).map _
  have hwriters : (s.quit c).writers.Sublist s.writers :=
    ((List.Sublist.refl s.inWrite.toList).append Mailbox.sublist_withdraw).map _
  have hplaces : (s.quit c).places.Sublist s.places :=
    ((hreaders.append hwriters).append (.refl _)).append List.filter_sublist
  have hcallers : (s.quit c).callers.Sublist s.callers := List.filter_sublist.map _
  have hquit : Accounted (s.quit c) := by
    refine ⟨h.callers.sublist hcallers, ?_, h.once.sublist hplaces, ?_⟩
    · intro d hd hm
      rcases List.mem_append.1 hd with hd | hd
      · exact h.gone d hd (hcallers.subset hm)
      · obtain ⟨k, hk, he⟩ := List.mem_map.1 hm
        have hne := (List.mem_filter.1 hk).2
        simp [he, List.mem_singleton.1 hd] at hne
    · intro d hd
      by_cases hdc : d = c
      · exact .inr (List.mem_append_right _ (List.mem_singleton.2 hdc))
      · rcases h.placed d (hplaces.subset hd) with hw | hg
        · obtain ⟨k, hk, he, hn⟩ := awaits_iff.1 hw
          exact .inl (awaits_iff.2 ⟨k, List.mem_filter.2 ⟨hk, by simpa [he] using hdc⟩, he, hn⟩)
        · exact .inr (List.mem_append_left _ hg)
  exact hquit.releaseEvents

theorem Accounted.release (h : Accounted s) (hs : s.release = some t) : Accounted t := by
  unfold State.release at hs
  split at hs
  · obtain rfl := Option.some.inj hs
    have hfree : Accounted { s with held := false } := h.move rfl rfl fun d => Nat.le_refl _
    exact hfree.releaseEvents
  · cases hs

theorem Accounted.add (h : Accounted s) (device : DeviceRef) : Accounted (s.add device).2 := by
  unfold State.add
  simp only []
  split
  · exact h.move rfl rfl fun d => Nat.le_refl _
  · refine h.move rfl rfl fun d => count_of_askers (n := 0) (m := 0) rfl rfl rfl ?_
    simp [askers, controlCallers, Control.caller?]

/-! ## Reading -/

theorem refuse_append {cs' : List Caller} : (s.refuse cs).refuse cs' = s.refuse (cs ++ cs') := by
  simp only [State.refuse, List.foldl_append]

/-- A stopped pump keeps what its exit carries. -/
theorem callers_exit (exit : ReadExit) :
    (ReadStage.stopped exit).request?.toList.map (·.caller) = exit.callers := by
  cases exit <;> rfl

theorem count_carried (d : Caller) : (s.carried.map (·.caller)).count d =
    (s.inRead.toList.map (·.caller)).count d + (s.parked.toList.map (·.caller)).count d := by
  rw [carried, List.map_append, List.count_append]

/-- A pump stops with what it had or less. -/
theorem Accounted.stopReader (h : Accounted s) {pump : ReadPump} {exit : ReadExit}
    (hexit : ∀ d, exit.callers.count d ≤ (s.inRead.toList.map (·.caller)).count d) :
    Accounted (s.stopReader pump exit) := by
  unfold State.stopReader
  split
  · rw [shutReads, refuse_append]
    refine h.refuse rfl rfl fun d => count_of_readers (m := 0) rfl rfl rfl ?_
    have hline : readers { s with reader := none, reads := s.reads.shut } =
        s.parked.toList.map (·.caller) := by
      simp [readers, carried, inRead]
    have hle := hexit d
    rw [hline, List.count_append, count_readers, count_carried]
    show _ + ((s.reads.contents.map (·.caller)).count d + _) ≤ _
    omega
  · refine h.move rfl rfl fun d => count_of_readers (n := 0) (m := 0) rfl rfl rfl ?_
    have hline : readers { s with reader := some { pump with stage := .stopped exit } } =
        exit.callers ++ s.parked.toList.map (·.caller) ++ s.reads.contents.map (·.caller) := by
      simp [readers, carried, inRead, ← callers_exit]
    have hle := hexit d
    rw [hline, List.count_append, List.count_append, count_readers, count_carried]
    omega

/-- A request is taken or skipped. -/
theorem Accounted.takeRead (h : Accounted s) {pump : ReadPump} {r : ReadRequest}
    (reads : Mailbox ReadRequest) (hcount : ∀ d, [r.caller].count d +
      (reads.contents.map (·.caller)).count d ≤
        (s.inRead.toList.map (·.caller)).count d + (s.reads.contents.map (·.caller)).count d) :
    Accounted ({ s with reads }.takeRead pump r) := by
  refine h.move rfl rfl fun d => count_of_readers (n := 0) (m := 0) rfl rfl rfl ?_
  have hle := hcount d
  rw [count_readers, count_carried, count_readers, count_carried]
  show ((if s.awaits r.caller then ReadStage.reading r else .ready none).request?.toList.map
    (·.caller)).count d + (s.parked.toList.map (·.caller)).count d +
    (reads.contents.map (·.caller)).count d ≤ _
  split
  · show [r.caller].count d + _ + _ ≤ _
    omega
  · show 0 + _ + _ ≤ _
    omega

theorem Accounted.pollReader (h : Accounted s) (hs : s.pollReader = some t) : Accounted t := by
  obtain ⟨pump, hp, ⟨r, hr, rfl⟩ | ⟨-, -, rfl⟩ | ⟨r, reads, -, -, hr, rfl⟩ | ⟨-, -, -, rfl⟩⟩ :=
    pollReader_cases hs
  · refine h.takeRead s.reads ?_
    intro d
    exact Nat.le_of_eq (by rw [inRead_of_reader hp, hr]; rfl)
  · exact h.stopReader fun d => Nat.zero_le _
  · refine h.takeRead _ ?_
    intro d
    have hcons : (r :: reads.contents).map (·.caller) = [r.caller] ++ reads.contents.map (·.caller) :=
      rfl
    rw [Mailbox.contents_receive hr, hcons, List.count_append]
    exact Nat.le_add_left _ _
  · exact h.stopReader fun d => Nat.zero_le _

/-- The caller of the read under way is answered, and the pump has nothing with it. -/
theorem Accounted.answerRead (h : Accounted s) {pump : ReadPump} {r : ReadRequest}
    {stage : ReadStage} (hp : s.reader = some pump) (hstage : pump.stage = .reading r)
    (hn : stage.request? = none) (a : Answer) :
    Accounted ({ s with reader := some { pump with stage } }.answer r.caller a) := by
  have hin : s.inRead.toList.map (·.caller) = [r.caller] := by
    rw [inRead_of_reader hp, hstage]
    rfl
  refine h.answer rfl rfl fun d => count_of_readers (m := 0) rfl rfl rfl ?_
  have hline : readers { s with reader := some { pump with stage } } =
      s.parked.toList.map (·.caller) ++ s.reads.contents.map (·.caller) := by
    simp [readers, carried, inRead, hn]
  rw [hline, List.count_append, count_readers, count_carried, hin]
  omega

theorem Accounted.readReturned (h : Accounted s) {out : Outcome Packet}
    (hs : s.readReturned out = some t) : Accounted t := by
  obtain ⟨pump, r, hp, hstage, hcases⟩ := readReturned_cases hs
  have hin : s.inRead.toList.map (·.caller) = [r.caller] := by
    rw [inRead_of_reader hp, hstage]
    rfl
  rcases hcases with ⟨p, -, rfl⟩ | ⟨e, -, -, rfl⟩ | ⟨e, -, -, rfl⟩ | ⟨-, rfl⟩
  · exact h.answerRead hp hstage rfl _
  · refine h.stopReader ?_
    intro d
    exact Nat.le_of_eq (by rw [hin]; rfl)
  · -- the pump may as well have stopped before its caller is told
    have hstopped : Accounted (State.stopReader ({ s with
        reader := some { pump with stage := .stopped .failed } }.answer r.caller (.failed e)) pump
          .failed) :=
      (h.answerRead hp hstage rfl _).stopReader fun d => Nat.zero_le _
    exact hstopped
  · show Accounted (State.refuse { s with
        reader := if s.isOver then none else some { pump with stage := .crashed }
        reads := s.reads.shut } (r.caller :: s.reads.contents.map (·.caller)))
    refine h.refuse rfl rfl fun d => count_of_readers (m := 0) rfl rfl rfl ?_
    have hcrashed : ∀ b : Bool, inRead { s with
        reader := if b then none else some { pump with stage := .crashed }
        reads := s.reads.shut } = none := fun b => by cases b <;> rfl
    rw [count_readers, count_readers, count_carried, count_carried, hcrashed, hin,
      ← List.singleton_append, List.count_append]
    show 0 + (s.parked.toList.map (·.caller)).count d + 0 + _ ≤ _
    omega

/-! ## Writing -/

/-- A write pump stops with nothing in hand. -/
theorem Accounted.stopWriter (h : Accounted s) {pump : WritePump} {exit : WriteExit} :
    Accounted (s.stopWriter pump exit) := by
  unfold State.stopWriter
  simp only []
  split
  · refine h.refuse rfl rfl fun d => count_of_writers (m := 0) rfl rfl rfl ?_
    rw [count_writers, count_writers]
    show 0 + 0 + (s.writes.contents.map (·.caller)).count d ≤ _
    omega
  · refine h.move rfl rfl fun d => count_of_writers (n := 0) (m := 0) rfl rfl rfl ?_
    rw [count_writers, count_writers]
    show 0 + (s.writes.contents.map (·.caller)).count d ≤ _
    omega

theorem Accounted.pollWriter (h : Accounted s) (hs : s.pollWriter = some t) : Accounted t := by
  obtain ⟨pump, hp, ⟨-, -, rfl⟩ | ⟨-, rfl⟩ | ⟨r, writes, -, -, hr, rfl⟩ | ⟨-, -, -, rfl⟩⟩ :=
    pollWriter_cases hs
  · exact h.stopWriter
  · refine h.move rfl rfl fun d => count_of_writers (n := 0) (m := 0) rfl rfl rfl ?_
    rw [count_writers, count_writers]
    show 0 + (s.writes.contents.map (·.caller)).count d ≤ _
    omega
  · refine h.move rfl rfl fun d => count_of_writers (n := 0) (m := 0) rfl rfl rfl ?_
    have hcons : (r :: writes.contents).map (·.caller) =
        [r.caller] ++ writes.contents.map (·.caller) := rfl
    rw [count_writers, count_writers, Mailbox.contents_receive hr, hcons, List.count_append]
    show ((if s.awaits r.caller then WriteStage.writing r else .ready).request?.toList.map
      (·.caller)).count d + (writes.contents.map (·.caller)).count d ≤ _
    split
    · exact Nat.le_add_left _ _
    · show 0 + _ ≤ _
      omega
  · exact h.stopWriter

theorem Accounted.writeReturned (h : Accounted s) {out : Outcome Nat}
    (hs : s.writeReturned out = some t) : Accounted t := by
  obtain ⟨pump, r, hp, hstage, hcases⟩ := writeReturned_cases hs
  have hin : s.inWrite.toList.map (·.caller) = [r.caller] := by
    rw [inWrite_of_writer hp, hstage]
    rfl
  rcases hcases with ⟨a, -, rfl⟩ | ⟨-, rfl⟩
  · refine h.answer rfl rfl fun d => count_of_writers (m := 0) rfl rfl rfl ?_
    rw [count_writers, count_writers, hin]
    show 0 + (s.writes.contents.map (·.caller)).count d + _ ≤ _
    omega
  · show Accounted (State.refuse { s with
        writer := if s.isOver then none else some { pump with stage := .crashed }
        writes := s.writes.shut } (r.caller :: s.writes.contents.map (·.caller)))
    refine h.refuse rfl rfl fun d => count_of_writers (m := 0) rfl rfl rfl ?_
    have hcrashed : ∀ b : Bool, inWrite { s with
        writer := if b then none else some { pump with stage := .crashed }
        writes := s.writes.shut } = none := fun b => by cases b <;> rfl
    rw [count_writers, count_writers, hcrashed, hin, ← List.singleton_append, List.count_append]
    show 0 + 0 + _ ≤ _
    omega

/-! ## Events, closes and questions -/

theorem Accounted.eventReturned (h : Accounted s) {out : Outcome (Option Event)}
    (hs : s.eventReturned out = some t) : Accounted t := by
  obtain ⟨_, _, rfl⟩ := eventReturned_eq hs
  exact h.move rfl rfl fun d => Nat.le_refl _

theorem Accounted.pollForwarder (h : Accounted s) (hs : s.pollForwarder = some t) :
    Accounted t := by
  obtain ⟨_, _, rfl⟩ := pollForwarder_eq hs
  exact h.move rfl rfl fun d => Nat.le_refl _

theorem Accounted.takeEvent (h : Accounted s) (hs : s.takeEvent = some t) : Accounted t := by
  obtain ⟨c, rest, a, events, hl, rfl⟩ := takeEvent_eq hs
  refine h.answer rfl rfl fun d => count_of_listeners (m := 0) rfl rfl rfl ?_
  have hcons : c :: rest = [c] ++ rest := rfl
  rw [hl, hcons, List.count_append]
  show rest.count d + _ ≤ _
  omega

theorem Accounted.closeReturned (h : Accounted s) {out : Outcome Unit}
    (hs : s.closeReturned id out = some t) : Accounted t := by
  obtain ⟨-, rfl⟩ := closeReturned_cases hs
  exact h.move rfl rfl fun d => Nat.le_refl _

theorem Accounted.lateCloseReturned (h : Accounted s) (hs : s.lateCloseReturned id = some t) :
    Accounted t := by
  obtain rfl := lateCloseReturned_cases hs
  exact h.move rfl rfl fun d => Nat.le_refl _

theorem Accounted.answered (h : Accounted s) {ticket : Nat} {out : Outcome Answer}
    (hs : s.answered ticket out = some t) : Accounted t := by
  obtain ⟨q, a, hq, rfl⟩ := answered_cases hs
  obtain ⟨hticket, before, after, hqueries, -⟩ := List.find?_eq_some_iff_append.1 hq
  have hsub : (s.queries.filter (·.ticket != ticket)).Sublist (before ++ after) := by
    have : q.ticket = ticket := by simpa using hticket
    rw [hqueries, List.filter_append, List.filter_cons_of_neg (by simp [this])]
    exact List.filter_sublist.append List.filter_sublist
  refine h.answer rfl rfl fun d => count_of_askers (m := 0) rfl rfl rfl ?_
  have hcount : ((s.queries.filter (·.ticket != ticket)).map (·.caller)).count d + [q.caller].count d ≤
      (s.queries.map (·.caller)).count d := by
    have hle := (hsub.map (·.caller)).count_le d
    have hcons : (before ++ q :: after).map (·.caller) =
        before.map (·.caller) ++ ([q.caller] ++ after.map (·.caller)) := by simp
    rw [List.map_append, List.count_append] at hle
    rw [hqueries, hcons, ← hqueries, List.count_append, List.count_append]
    omega
  rw [count_askers, count_askers]
  show (s.coordinator.caller?.toList).count d + (controlCallers s.control).count d +
    ((s.queries.filter (·.ticket != ticket)).map (·.caller)).count d + _ ≤ _
  omega

/-! ## The coordinator -/

theorem Handled.places (hh : Handled s t) : t.places = s.places := by
  obtain ⟨_, _, _, _, _, _, _, _, he⟩ := hh.eq
  have hreaders : t.readers = s.readers := by
    rw [readers, readers, hh.carried, he]
  have hwriters : t.writers = s.writers := by
    rw [writers, writers, hh.inWrite, he]
  rw [State.places, State.places, hreaders, hwriters, he]
  rfl

theorem Accounted.handled (h : Accounted s) (hh : Handled s t) : Accounted t := by
  have hplaces := hh.places
  obtain ⟨_, _, _, _, _, _, _, _, he⟩ := hh.eq
  refine h.move (by rw [he]) (by rw [he]) ?_
  intro d
  exact Nat.le_of_eq (by rw [hplaces])

theorem Accounted.shutReads (h : Accounted s) : Accounted s.shutReads := by
  refine h.refuse rfl rfl fun d => count_of_readers (m := 0) rfl rfl rfl ?_
  rw [count_readers, count_readers]
  show (s.carried.map (·.caller)).count d + 0 + _ ≤ _
  omega

theorem Accounted.shutWrites (h : Accounted s) : Accounted s.shutWrites := by
  refine h.refuse rfl rfl fun d => count_of_writers (m := 0) rfl rfl rfl ?_
  rw [count_writers, count_writers]
  show (s.inWrite.toList.map (·.caller)).count d + 0 + _ ≤ _
  omega

theorem Accounted.endControl (h : Accounted s) : Accounted s.endControl := by
  refine h.refuse rfl rfl fun d => count_of_askers (m := 0) rfl rfl rfl ?_
  rw [count_askers, count_askers]
  show 0 + 0 + (s.queries.map (·.caller)).count d + _ ≤ _
  omega

theorem Accounted.dropReads (h : Accounted s) : Accounted s.dropReads := by
  unfold State.dropReads
  split
  · exact h.shutReads.move rfl rfl fun _ => Nat.le_refl _
  · exact h

theorem Accounted.dropWrites (h : Accounted s) : Accounted s.dropWrites := by
  unfold State.dropWrites
  split
  · exact h.shutWrites.move rfl rfl fun _ => Nat.le_refl _
  · exact h

theorem Accounted.finish (h : Accounted s) : Accounted s.finish :=
  h.endControl.dropReads.dropWrites

theorem Accounted.releaseParked (h : Accounted s) : Accounted s.releaseParked := by
  unfold State.releaseParked
  split
  · rename_i r hp
    have hparked : s.parked.toList.map (·.caller) = [r.caller] := by
      rw [hp]
      rfl
    show Accounted (State.answer { s with parked := none, closeError := none } r.caller (.packet []))
    refine h.answer rfl rfl fun d => count_of_readers (m := 0) rfl rfl rfl ?_
    rw [count_readers, count_readers, count_carried, count_carried, hparked]
    show (s.inRead.toList.map (·.caller)).count d + 0 + (s.reads.contents.map (·.caller)).count d +
      _ ≤ _
    omega
  · refine h.move rfl rfl fun d => count_of_readers (n := 0) (m := 0) rfl rfl rfl ?_
    rw [count_readers, count_readers, count_carried, count_carried]
    show (s.inRead.toList.map (·.caller)).count d + 0 + (s.reads.contents.map (·.caller)).count d ≤ _
    omega

/-- The caller that waits for a teardown learns its result. -/
theorem Accounted.endShutdown (h : Accounted s) (hc : s.coordinator.caller? = some c) :
    Accounted (s.endTeardown (.shutdown c)) := by
  obtain ⟨calls, hr⟩ := releaseParked_eq s
  refine h.releaseParked.answer rfl rfl fun d => count_of_askers (m := 0) rfl rfl rfl ?_
  have hcaller : s.releaseParked.coordinator.caller?.toList = [c] := by
    rw [hr]
    show s.coordinator.caller?.toList = [c]
    rw [hc]
    rfl
  rw [count_askers, count_askers, hcaller]
  show 0 + (controlCallers s.releaseParked.control).count d +
    (s.releaseParked.queries.map (·.caller)).count d + _ ≤ _
  omega

theorem Accounted.settleTeardown (h : Accounted s) : Accounted s.settleTeardown := by
  rcases settleTeardown_cases s with ⟨he, -⟩ | ⟨cause, hc, -, he⟩
  · rwa [he]
  · rw [he]
    cases cause with
    | shutdown c => exact h.endShutdown (by rw [hc]; rfl)
    | close c =>
      rw [endClose_eq]
      exact (h.endShutdown (by rw [hc]; rfl)).finish
    | released => exact h.releaseParked.finish

theorem Accounted.dropControl (h : Accounted s) : Accounted s.dropControl := by
  refine h.refuse rfl rfl ?_
  intro d
  rw [List.count_append, List.count_append, count_places, count_places, count_readers,
    count_readers, count_carried, count_carried, count_askers, count_askers]
  show (s.inRead.toList.map (·.caller)).count d + 0 + (s.reads.contents.map (·.caller)).count d +
    s.writers.count d + (0 + 0 + (s.queries.map (·.caller)).count d) + s.listeners.count d +
    (s.coordinator.caller?.toList.count d + (controlCallers s.control).count d +
      (s.parked.toList.map (·.caller)).count d) ≤ _
  omega

theorem Accounted.dropReader (h : Accounted s) : Accounted s.dropReader := by
  unfold State.dropReader
  split
  · exact h
  · rename_i pump hp
    split
    · rename_i exit hs
      have hin : s.inRead.toList.map (·.caller) = exit.callers := by
        rw [inRead_of_reader hp, hs]
        exact callers_exit exit
      rw [State.shutReads, refuse_append]
      refine h.refuse rfl rfl fun d => count_of_readers (m := 0) rfl rfl rfl ?_
      rw [count_readers, count_readers, count_carried, count_carried, hin, List.count_append]
      show 0 + (s.parked.toList.map (·.caller)).count d + 0 +
        ((s.reads.contents.map (·.caller)).count d + _) ≤ _
      omega
    · refine h.move rfl rfl fun d => count_of_readers (n := 0) (m := 0) rfl rfl rfl ?_
      rw [count_readers, count_readers, count_carried, count_carried]
      show 0 + (s.parked.toList.map (·.caller)).count d +
        (s.reads.contents.map (·.caller)).count d ≤ _
      omega
    · exact h
    · exact h

theorem Accounted.dropWriter (h : Accounted s) : Accounted s.dropWriter := by
  have hfree : Accounted { s with writer := none } := by
    refine h.move rfl rfl fun d => count_of_writers (n := 0) (m := 0) rfl rfl rfl ?_
    rw [count_writers, count_writers]
    show 0 + (s.writes.contents.map (·.caller)).count d ≤ _
    omega
  unfold State.dropWriter
  repeat' split
  · exact h
  · exact hfree.shutWrites
  · exact hfree
  · exact h
  · exact h
  · exact h

theorem Accounted.crash (h : Accounted s) : Accounted s.crash := by
  rw [crash_eq]
  exact h.dropControl.dropReads.dropReader.dropWrites.dropWriter

/-- What the coordinator works for passes from the messages to its own hands. -/
theorem Accounted.handing (h : Accounted s) {control : List Control} {coordinator : Coordinator}
    (hc : coordinator.caller?.toList ++ controlCallers control =
      s.coordinator.caller?.toList ++ controlCallers s.control) :
    Accounted { s with control, coordinator } := by
  refine h.move rfl rfl fun d => count_of_askers (n := 0) (m := 0) rfl rfl rfl ?_
  have hline : askers { s with control, coordinator } = s.askers := by
    rw [askers, askers, ← hc]
  exact Nat.le_of_eq (by rw [hline])

/-- The caller of a message is answered, waits for a device, or for the coordinator. -/
theorem Accounted.act (h : Accounted s) (ha : Act s t) : Accounted t := by
  cases ha with
  | @answer c rest a hc =>
    refine h.answer rfl rfl fun d => count_of_askers (m := 0) rfl rfl rfl ?_
    rw [count_askers, count_askers, hc, List.count_append]
    show s.coordinator.caller?.toList.count d + (controlCallers rest).count d +
      (s.queries.map (·.caller)).count d + _ ≤ _
    omega
  | @ask q rest hq hc =>
    refine h.move rfl rfl fun d => count_of_askers (n := 0) (m := 0) rfl rfl rfl ?_
    rw [count_askers, count_askers, hc, List.count_append, List.map_append, List.count_append]
    show s.coordinator.caller?.toList.count d + (controlCallers rest).count d +
      ((s.queries.map (·.caller)).count d + [q.caller].count d) ≤ _
    omega
  | fail closers =>
    have hbase : Accounted { s with closers } := h.move rfl rfl fun d => Nat.le_refl _
    exact hbase.crash
  | handle hc hh => exact ((h.handing hc).handled hh).settleTeardown

/-! ## All moves -/

theorem Accounted.step (h : Accounted s) (hset : s.isOver = false → Settled s) {m : Move}
    (hs : s.step m = some t) : Accounted t := by
  cases m with
  | call c op => exact h.call hs
  | enter c => exact h.enter hs
  | leave c => exact h.leave hs
  | cancel c => exact h.cancel hs
  | add device =>
    obtain rfl := step_add hs
    exact h.add device
  | release => exact h.release hs
  | control => exact h.act ((hset (isOver_of_isWork rfl hs)).act rfl hs)
  | joinReader => exact h.act ((hset (isOver_of_isWork rfl hs)).act rfl hs)
  | joinWriter => exact h.act ((hset (isOver_of_isWork rfl hs)).act rfl hs)
  | joinCloser id => exact h.act ((hset (isOver_of_isWork rfl hs)).act rfl hs)
  | pollReader => exact h.pollReader hs
  | pollWriter => exact h.pollWriter hs
  | pollForwarder => exact h.pollForwarder hs
  | takeEvent => exact h.takeEvent hs
  | readReturned out => exact h.readReturned hs
  | writeReturned out => exact h.writeReturned hs
  | eventReturned out => exact h.eventReturned hs
  | closeReturned id out => exact h.closeReturned hs
  | lateCloseReturned id => exact h.lateCloseReturned hs
  | answered ticket out => exact h.answered hs

theorem accounted_of_run {settings : MultiplexerSettings} {ms : List Move}
    (h : Run (.init settings) ms s) : Accounted s := by
  refine h.snocRec (p := fun _ s => Accounted s) ?_ fun ms t m u ht h hm =>
    h.step (fun ho => settled_of_run ht ho) hm
  exact ⟨.nil, fun _ hc => (by cases hc), .nil, fun _ hc => (by cases hc)⟩

end

end State

end SeamlessTunnel.Multiplexer
