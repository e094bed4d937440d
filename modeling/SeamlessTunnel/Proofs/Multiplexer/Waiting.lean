import SeamlessTunnel.Proofs.Multiplexer.Answering
import SeamlessTunnel.Proofs.Multiplexer.Serving
/-
  SeamlessTunnel.Proofs.Multiplexer.Waiting — nobody waits for nothing.

  Whatever is kept for a caller is given up only with an answer to that caller (`Retains`).
  So for each caller that waits something is kept: its request, its message, its question, or
  its turn among the listeners (`placed_of_awaits`). Together with `Accounted` this makes the
  callers that wait and the places where something is kept for them the same.
-/

namespace SeamlessTunnel.Multiplexer

namespace State

/-- Between two states nothing is given up that is kept for one who goes on waiting. -/
def Retains (s t : State) : Prop :=
  ∀ c, t.awaits c = true → s.awaits c = true ∧ (c ∈ s.places → c ∈ t.places)

section

variable {s t u : State} {c : Caller} {cs : List Caller} {m : Move}

/-! ## Places -/

theorem mem_places : c ∈ s.places ↔
    c ∈ s.readers ∨ c ∈ s.writers ∨ c ∈ s.askers ∨ c ∈ s.listeners := by
  simp [places]

theorem mem_readers : c ∈ s.readers ↔ c ∈ callersOf s.inRead ∨ c ∈ callersOf s.parked ∨
    c ∈ s.reads.contents.map (·.caller) := by
  simp only [readers, carried, callersOf, List.map_append, List.mem_append, or_assoc]

theorem mem_writers : c ∈ s.writers ↔ c ∈ s.inWrite.toList.map (·.caller) ∨
    c ∈ s.writes.contents.map (·.caller) := by
  simp only [writers, List.map_append, List.mem_append]

theorem mem_askers : c ∈ s.askers ↔ c ∈ s.coordinator.caller?.toList ∨
    c ∈ controlCallers s.control ∨ c ∈ s.queries.map (·.caller) := by
  simp only [askers, List.mem_append, or_assoc]

/-! ### One line changes -/

theorem places_of_readers (hw : t.writers = s.writers) (ha : t.askers = s.askers)
    (hl : t.listeners = s.listeners) (h : ∀ c ∈ s.readers, c ∈ cs ∨ c ∈ t.readers) :
    ∀ c ∈ s.places, c ∈ cs ∨ c ∈ t.places := by
  intro c hc
  rw [mem_places, hw, ha, hl]
  rcases mem_places.1 hc with hc | hc
  · exact (h c hc).imp_right .inl
  · exact .inr (.inr hc)

theorem places_of_writers (hr : t.readers = s.readers) (ha : t.askers = s.askers)
    (hl : t.listeners = s.listeners) (h : ∀ c ∈ s.writers, c ∈ cs ∨ c ∈ t.writers) :
    ∀ c ∈ s.places, c ∈ cs ∨ c ∈ t.places := by
  intro c hc
  rw [mem_places, hr, ha, hl]
  rcases mem_places.1 hc with hc | hc | hc
  · exact .inr (.inl hc)
  · exact (h c hc).imp_right fun hc => .inr (.inl hc)
  · exact .inr (.inr (.inr hc))

theorem places_of_askers (hr : t.readers = s.readers) (hw : t.writers = s.writers)
    (hl : t.listeners = s.listeners) (h : ∀ c ∈ s.askers, c ∈ cs ∨ c ∈ t.askers) :
    ∀ c ∈ s.places, c ∈ cs ∨ c ∈ t.places := by
  intro c hc
  rw [mem_places, hr, hw, hl]
  rcases mem_places.1 hc with hc | hc | hc | hc
  · exact .inr (.inl hc)
  · exact .inr (.inr (.inl hc))
  · exact (h c hc).imp_right fun hc => .inr (.inr (.inl hc))
  · exact .inr (.inr (.inr (.inr hc)))

namespace Retains

/-! ## Parts of moves -/

theorem refl : Retains s s := fun _ hw =>
  ⟨hw, id⟩

theorem trans (h : Retains s t) (h' : Retains t u) : Retains s u := fun c hw =>
  ⟨(h c (h' c hw).1).1, fun hc => (h' c hw).2 ((h c (h' c hw).1).2 hc)⟩

/-- Nobody is answered. -/
theorem move (hcalls : t.calls = s.calls) (hp : ∀ c ∈ s.places, c ∈ [] ∨ c ∈ t.places) :
    Retains s t := fun c hw =>
  ⟨by rwa [awaits_congr hcalls] at hw, fun hc => (hp c hc).resolve_left List.not_mem_nil⟩

theorem of_eq (hcalls : t.calls = s.calls) (hplaces : t.places = s.places) : Retains s t :=
  move hcalls fun _ hc => .inr (hplaces ▸ hc)

/-- Some callers are refused, and something is given up for no others. -/
theorem refuse (hcalls : t.calls = s.calls) (hp : ∀ c ∈ s.places, c ∈ cs ∨ c ∈ t.places) :
    Retains s (t.refuse cs) := fun c hw => by
  obtain ⟨hw, hn⟩ := awaits_refuse.1 hw
  rw [places_refuse]
  exact ⟨by rwa [awaits_congr hcalls] at hw, fun hc => (hp c hc).resolve_left hn⟩

/-- One caller is answered. -/
theorem answer {a : Answer} (hcalls : t.calls = s.calls)
    (hp : ∀ d ∈ s.places, d ∈ [c] ∨ d ∈ t.places) : Retains s (t.answer c a) := fun d hw => by
  obtain ⟨hw, hn⟩ := awaits_answer.1 hw
  refine ⟨by rwa [awaits_congr hcalls] at hw, fun hd => ?_⟩
  exact (hp d hd).resolve_left fun he => hn (List.mem_singleton.1 he)

theorem shutReads : Retains s s.shutReads := by
  refine refuse rfl (places_of_readers rfl rfl rfl fun c hc => ?_)
  rcases mem_readers.1 hc with hc | hc | hc
  · exact .inr (mem_readers.2 (.inl hc))
  · exact .inr (mem_readers.2 (.inr (.inl hc)))
  · exact .inl hc

theorem shutWrites : Retains s s.shutWrites := by
  refine refuse rfl (places_of_writers rfl rfl rfl fun c hc => ?_)
  exact (mem_writers.1 hc).symm.imp_right fun hc => mem_writers.2 (.inl hc)

theorem dropReads : Retains s s.dropReads := by
  unfold State.dropReads
  split
  · exact shutReads.trans (move rfl fun _ hc => .inr hc)
  · exact refl

theorem dropWrites : Retains s s.dropWrites := by
  unfold State.dropWrites
  split
  · exact shutWrites.trans (move rfl fun _ hc => .inr hc)
  · exact refl

/-- A coordinator that ends has told who waited for it. -/
theorem finish (hc : s.coordinator.caller? = none) : Retains s s.finish := by
  have hcontrol : Retains s s.endControl := by
    refine refuse rfl (places_of_askers rfl rfl rfl fun c hask => ?_)
    rcases mem_askers.1 hask with hask | hask | hask
    · rw [hc] at hask
      cases hask
    · exact .inl hask
    · exact .inr (mem_askers.2 (.inr (.inr hask)))
  exact hcontrol.trans (dropReads.trans dropWrites)

theorem releaseParked : Retains s s.releaseParked := by
  have hplaces : ∀ c ∈ s.places, c ∈ callersOf s.parked ∨
      c ∈ places { s with parked := none, closeError := none } :=
    places_of_readers rfl rfl rfl fun c hc => by
      rcases mem_readers.1 hc with hc | hc | hc
      · exact .inr (mem_readers.2 (.inl hc))
      · exact .inl hc
      · exact .inr (mem_readers.2 (.inr (.inr hc)))
  unfold State.releaseParked
  split
  · rename_i r hp
    rw [hp] at hplaces
    exact answer (t := { s with parked := none, closeError := none }) rfl hplaces
  · rename_i hp
    rw [hp] at hplaces
    exact move rfl hplaces

theorem endShutdown (hc : s.coordinator.caller? = some c) :
    Retains s (s.endTeardown (.shutdown c)) := by
  obtain ⟨_, hr⟩ := releaseParked_eq s
  refine releaseParked.trans (answer (t := { s.releaseParked with coordinator := .serving }) rfl
    (places_of_askers rfl rfl rfl fun d hd => ?_))
  rcases mem_askers.1 hd with hd | hd
  · rw [show s.releaseParked.coordinator = s.coordinator by rw [hr], hc] at hd
    exact .inl hd
  · exact .inr (mem_askers.2 (.inr hd))

theorem settleTeardown : Retains s s.settleTeardown := by
  rcases settleTeardown_cases s with ⟨he, -⟩ | ⟨cause, hc, -, he⟩
  · rw [he]
    exact refl
  · rw [he]
    cases cause with
    | shutdown c => exact endShutdown (by rw [hc]; rfl)
    | close c => exact (endShutdown (by rw [hc]; rfl)).trans (finish rfl)
    | released =>
      obtain ⟨_, hr⟩ := releaseParked_eq s
      exact releaseParked.trans (finish (by rw [hr, hc]; rfl))

theorem dropControl : Retains s s.dropControl := by
  refine refuse rfl fun c hc => ?_
  simp only [List.mem_append]
  rcases mem_places.1 hc with hc | hc | hc | hc
  · rcases mem_readers.1 hc with hc | hc | hc
    · exact .inr (mem_places.2 (.inl (mem_readers.2 (.inl hc))))
    · exact .inl (.inr hc)
    · exact .inr (mem_places.2 (.inl (mem_readers.2 (.inr (.inr hc)))))
  · exact .inr (mem_places.2 (.inr (.inl hc)))
  · rcases mem_askers.1 hc with hc | hc | hc
    · exact .inl (.inl (.inl hc))
    · exact .inl (.inl (.inr hc))
    · exact .inr (mem_places.2 (.inr (.inr (.inl (mem_askers.2 (.inr (.inr hc)))))))
  · exact .inr (mem_places.2 (.inr (.inr (.inr hc))))

/-- A read pump that has stopped drops what it kept, and that is refused. -/
theorem dropReader : Retains s s.dropReader := by
  unfold State.dropReader
  split
  · exact refl
  · rename_i pump hp
    split
    · rename_i exit hs
      rw [State.shutReads, refuse_append]
      refine refuse rfl (places_of_readers rfl rfl rfl fun c hc => ?_)
      rcases mem_readers.1 hc with hc | hc | hc
      · rw [inRead_of_reader hp, hs, callersOf, callers_exit] at hc
        exact .inl (List.mem_append_right _ hc)
      · exact .inr (mem_readers.2 (.inr (.inl hc)))
      · exact .inl (List.mem_append_left _ hc)
    · rename_i hs
      refine move rfl (places_of_readers rfl rfl rfl fun c hc => ?_)
      rcases mem_readers.1 hc with hc | hc
      · rw [inRead_of_reader hp, hs] at hc
        cases hc
      · exact .inr (mem_readers.2 (.inr hc))
    · exact refl
    · exact refl

/-- A write pump that has no request takes nothing with it. -/
theorem freeWriter {pump : WritePump} (hp : s.writer = some pump)
    (hn : pump.stage.request? = none) : Retains s { s with writer := none } := by
  refine move rfl (places_of_writers rfl rfl rfl fun c hc => ?_)
  rcases mem_writers.1 hc with hc | hc
  · rw [inWrite_of_writer hp, hn] at hc
    cases hc
  · exact .inr (mem_writers.2 (.inr hc))

theorem dropWriter : Retains s s.dropWriter := by
  unfold State.dropWriter
  split
  · exact refl
  · rename_i pump hp
    split
    · rename_i hs
      exact (freeWriter hp (by rw [hs]; rfl)).trans shutWrites
    · rename_i hs
      exact freeWriter hp (by rw [hs]; rfl)
    · exact refl
    · exact refl
    · exact refl

theorem crash : Retains s s.crash := by
  rw [crash_eq]
  exact dropControl.trans (dropReads.trans (dropReader.trans (dropWrites.trans dropWriter)))

theorem act (h : Act s t) : Retains s t := by
  cases h with
  | @answer c rest a hc =>
    refine answer rfl (places_of_askers rfl rfl rfl fun d hd => ?_)
    rcases mem_askers.1 hd with hd | hd | hd
    · exact .inr (mem_askers.2 (.inl hd))
    · rw [hc] at hd
      exact (List.mem_append.1 hd).imp_right fun hd => mem_askers.2 (.inr (.inl hd))
    · exact .inr (mem_askers.2 (.inr (.inr hd)))
  | @ask q rest hq hc =>
    refine move rfl (places_of_askers rfl rfl rfl fun d hd => ?_)
    refine .inr (mem_askers.2 ?_)
    rcases mem_askers.1 hd with hd | hd | hd
    · exact .inl hd
    · rw [hc] at hd
      rcases List.mem_append.1 hd with hd | hd
      · exact .inr (.inr (by simp [List.mem_singleton.1 hd]))
      · exact .inr (.inl hd)
    · obtain ⟨q', hq', he⟩ := List.mem_map.1 hd
      exact .inr (.inr (List.mem_map.2 ⟨q', List.mem_append_left _ hq', he⟩))
  | fail closers => exact trans (t := { s with closers }) (of_eq rfl rfl) crash
  | @handle control coordinator u hc hh =>
    have hbegun : Retains s { s with control, coordinator } :=
      move rfl (places_of_askers rfl rfl rfl fun d hd => by
        rw [askers, ← hc] at hd
        exact .inr hd)
    have hhandled : Retains { s with control, coordinator } u := by
      have hplaces := hh.places
      obtain ⟨_, _, _, _, _, _, _, _, he⟩ := hh.eq
      exact of_eq (by rw [he]) hplaces
    exact hbegun.trans (hhandled.trans settleTeardown)

/-! ## Pumps -/

/-- A pump that stops hands over what it had, or tells its caller. -/
theorem stopReader {pump : ReadPump} {exit : ReadExit}
    (hexit : ∀ c ∈ callersOf s.inRead, c ∈ exit.callers) : Retains s (s.stopReader pump exit) := by
  unfold State.stopReader
  split
  · rw [State.shutReads, refuse_append]
    refine refuse rfl (places_of_readers rfl rfl rfl fun c hc => ?_)
    rcases mem_readers.1 hc with hc | hc | hc
    · exact .inl (List.mem_append_right _ (hexit c hc))
    · exact .inr (mem_readers.2 (.inr (.inl hc)))
    · exact .inl (List.mem_append_left _ hc)
  · refine move rfl (places_of_readers rfl rfl rfl fun c hc => ?_)
    rcases mem_readers.1 hc with hc | hc
    · refine .inr (mem_readers.2 (.inl ?_))
      have hread : State.inRead { s with reader := some { pump with stage := .stopped exit } } =
          (ReadStage.stopped exit).request? := rfl
      rw [hread, callersOf, callers_exit]
      exact hexit c hc
    · exact .inr (mem_readers.2 (.inr hc))

/-- A request that is taken is served if its caller waits. -/
theorem takeRead {pump : ReadPump} {r : ReadRequest} (reads : Mailbox ReadRequest)
    (hp : ∀ c ∈ callersOf s.inRead ++ s.reads.contents.map (·.caller),
      c = r.caller ∨ c ∈ reads.contents.map (·.caller)) :
    Retains s ({ s with reads }.takeRead pump r) := fun c hw => by
  refine ⟨hw, fun hc => ?_⟩
  rcases mem_places.1 hc with hc | hc
  · refine mem_places.2 (.inl (mem_readers.2 ?_))
    have hmine : c = r.caller → c ∈ callersOf ({ s with reads }.takeRead pump r).inRead := by
      rintro rfl
      have hin : ({ s with reads }.takeRead pump r).inRead = some r := by
        have hw : s.awaits r.caller = true := hw
        show (if s.awaits r.caller then ReadStage.reading r else .ready none).request? = some r
        rw [if_pos hw]
        rfl
      rw [hin]
      exact List.mem_singleton_self _
    rcases mem_readers.1 hc with hc | hc | hc
    · exact (hp c (List.mem_append_left _ hc)).imp hmine .inr
    · exact .inr (.inl hc)
    · exact (hp c (List.mem_append_right _ hc)).imp hmine .inr
  · exact mem_places.2 (.inr hc)

theorem pollReader (hs : s.pollReader = some t) : Retains s t := by
  obtain ⟨pump, hp, ⟨r, hr, rfl⟩ | ⟨hr, -, rfl⟩ | ⟨r, reads, hr, -, hreceive, rfl⟩ | ⟨hr, -, -, rfl⟩⟩ :=
    pollReader_cases hs
  · refine takeRead s.reads fun c hc => ?_
    rw [inRead_of_reader hp, hr] at hc
    simpa [callersOf, ReadStage.request?] using hc
  · exact stopReader fun c hc => by
      rw [inRead_of_reader hp, hr] at hc
      cases hc
  · refine takeRead reads fun c hc => ?_
    rw [inRead_of_reader hp, hr, Mailbox.contents_receive hreceive] at hc
    simpa [callersOf, ReadStage.request?] using hc
  · exact stopReader fun c hc => by
      rw [inRead_of_reader hp, hr] at hc
      cases hc

theorem readReturned {out : Outcome Packet} (hs : s.readReturned out = some t) : Retains s t := by
  obtain ⟨pump, r, hp, hstage, hcases⟩ := readReturned_cases hs
  have hin : callersOf s.inRead = [r.caller] := by
    rw [inRead_of_reader hp, hstage]
    rfl
  have hplaces : ∀ u : State, u.writers = s.writers → u.askers = s.askers →
      u.listeners = s.listeners → callersOf u.parked = callersOf s.parked →
      u.reads.contents = s.reads.contents → ∀ c ∈ s.places, c ∈ [r.caller] ∨ c ∈ u.places :=
    fun u hw ha hl hparked hreads => places_of_readers hw ha hl fun c hc => by
      rcases mem_readers.1 hc with hc | hc
      · exact .inl (hin ▸ hc)
      · exact .inr (mem_readers.2 (.inr (by rwa [hparked, hreads])))
  rcases hcases with ⟨p, -, rfl⟩ | ⟨e, -, -, rfl⟩ | ⟨e, -, -, rfl⟩ | ⟨-, rfl⟩
  · exact answer (t := { s with reader := some { pump with stage := .ready none } }) rfl
      (hplaces _ rfl rfl rfl rfl rfl)
  · exact stopReader fun c hc => by rwa [hin] at hc
  · -- the pump may as well have stopped before its caller is told
    have hstopped : Retains ({ s with
        reader := some { pump with stage := .stopped .failed } }.answer r.caller (.failed e))
        ((s.answer r.caller (.failed e)).stopReader pump .failed) :=
      stopReader (s := { s with
        reader := some { pump with stage := .stopped .failed } }.answer r.caller (.failed e))
          fun c hc => by cases hc
    refine trans (answer (t := { s with reader := some { pump with stage := .stopped .failed } }) rfl
      (hplaces _ rfl rfl rfl rfl rfl)) hstopped
  · exact (refuse (s := s) (t := { s with
      reader := if s.isOver then none else some { pump with stage := .crashed } }) rfl
      (hplaces _ rfl rfl rfl rfl rfl)).trans shutReads

theorem stopWriter {pump : WritePump} {exit : WriteExit} (hn : s.inWrite = none) :
    Retains s (s.stopWriter pump exit) := by
  unfold State.stopWriter
  simp only []
  split
  · refine refuse rfl (places_of_writers rfl rfl rfl fun c hc => ?_)
    rcases mem_writers.1 hc with hc | hc
    · rw [hn] at hc
      cases hc
    · exact .inl hc
  · refine move rfl (places_of_writers rfl rfl rfl fun c hc => ?_)
    rcases mem_writers.1 hc with hc | hc
    · rw [hn] at hc
      cases hc
    · exact .inr (mem_writers.2 (.inr hc))

theorem pollWriter (hs : s.pollWriter = some t) : Retains s t := by
  obtain ⟨pump, hp, hcases⟩ := pollWriter_cases hs
  have hnone : pump.stage = .starting ∨ pump.stage = .ready → s.inWrite = none := fun hstage => by
    rw [inWrite_of_writer hp]
    rcases hstage with he | he <;> rw [he] <;> rfl
  rcases hcases with ⟨hstage, -, rfl⟩ | ⟨hstage, rfl⟩ | ⟨r, writes, hstage, -, hr, rfl⟩ |
    ⟨hstage, -, -, rfl⟩
  · exact stopWriter (hnone hstage)
  · refine move rfl (places_of_writers rfl rfl rfl fun c hc => ?_)
    rcases mem_writers.1 hc with hc | hc
    · rw [hnone (.inl hstage)] at hc
      cases hc
    · exact .inr (mem_writers.2 (.inr hc))
  · -- a request that is taken is served if its caller waits
    refine fun c hw => ⟨hw, fun hc => ?_⟩
    rcases mem_places.1 hc with hc | hc | hc
    · exact mem_places.2 (.inl hc)
    · refine mem_places.2 (.inr (.inl (mem_writers.2 ?_)))
      rcases mem_writers.1 hc with hc | hc
      · rw [hnone (.inr hstage)] at hc
        cases hc
      · rw [Mailbox.contents_receive hr] at hc
        refine (List.mem_cons.1 hc).imp ?_ id
        rintro rfl
        have hw : s.awaits r.caller = true := hw
        show r.caller ∈ (if s.awaits r.caller then WriteStage.writing r else .ready).request?.toList.map
          (·.caller)
        rw [if_pos hw]
        exact List.mem_singleton_self _
    · exact mem_places.2 (.inr (.inr hc))
  · exact stopWriter (hnone (.inr hstage))

theorem writeReturned {out : Outcome Nat} (hs : s.writeReturned out = some t) : Retains s t := by
  obtain ⟨pump, r, hp, hstage, hcases⟩ := writeReturned_cases hs
  have hplaces : ∀ u : State, u.readers = s.readers → u.askers = s.askers →
      u.listeners = s.listeners → u.writes.contents = s.writes.contents →
      ∀ c ∈ s.places, c ∈ [r.caller] ∨ c ∈ u.places :=
    fun u hr ha hl hwrites => places_of_writers hr ha hl fun c hc => by
      rcases mem_writers.1 hc with hc | hc
      · rw [inWrite_of_writer hp, hstage] at hc
        exact .inl hc
      · exact .inr (mem_writers.2 (.inr (by rwa [hwrites])))
  rcases hcases with ⟨a, -, rfl⟩ | ⟨-, rfl⟩
  · exact answer (t := { s with writer := some { pump with stage := .ready } }) rfl
      (hplaces _ rfl rfl rfl rfl)
  · exact (refuse (s := s) (t := { s with
      writer := if s.isOver then none else some { pump with stage := .crashed } }) rfl
      (hplaces _ rfl rfl rfl rfl)).trans shutWrites

/-! ## Other moves -/

theorem takeEvent (hs : s.takeEvent = some t) : Retains s t := by
  obtain ⟨c, rest, a, events, hl, rfl⟩ := takeEvent_eq hs
  refine answer (t := { s with events, listeners := rest }) rfl fun d hd => ?_
  rcases mem_places.1 hd with hd | hd | hd | hd
  · exact .inr (mem_places.2 (.inl hd))
  · exact .inr (mem_places.2 (.inr (.inl hd)))
  · exact .inr (mem_places.2 (.inr (.inr (.inl hd))))
  · rw [hl] at hd
    rcases List.mem_cons.1 hd with rfl | hd
    · exact .inl (List.mem_singleton_self _)
    · exact .inr (mem_places.2 (.inr (.inr (.inr hd))))

/-- A question that is answered is answered to one caller, as tickets are given out once. -/
theorem answered (honce : (s.queries.map (·.ticket)).Nodup) {ticket : Nat} {out : Outcome Answer}
    (hs : s.answered ticket out = some t) : Retains s t := by
  obtain ⟨q, a, hq, rfl⟩ := answered_cases hs
  refine answer (t := { s with queries := s.queries.filter (·.ticket != ticket) }) rfl
    (places_of_askers rfl rfl rfl fun d hd => ?_)
  rcases mem_askers.1 hd with hd | hd | hd
  · exact .inr (mem_askers.2 (.inl hd))
  · exact .inr (mem_askers.2 (.inr (.inl hd)))
  · obtain ⟨q', hq', rfl⟩ := List.mem_map.1 hd
    have hticket : q.ticket = ticket := by simpa using List.find?_some hq
    by_cases he : q'.ticket = ticket
    · have hsame := List.inj_on_of_nodup_map honce hq' (List.mem_of_find?_eq_some hq)
        (he.trans hticket.symm)
      exact .inl (by rw [hsame]; exact List.mem_singleton_self _)
    · exact .inr (mem_askers.2 (.inr (.inr (List.mem_map_of_mem
        (List.mem_filter.2 ⟨hq', by simpa using he⟩)))))

theorem enter (hs : s.enter c = some t) : Retains s t := by
  rcases enter_cases hs with ⟨reads, hr, rfl⟩ | ⟨writes, hw, rfl⟩
  · refine move rfl (places_of_readers rfl rfl rfl fun d hd => .inr (mem_readers.2 ?_))
    rcases mem_readers.1 hd with hd | hd | hd
    · exact .inl hd
    · exact .inr (.inl hd)
    · exact .inr (.inr (((Mailbox.perm_enter hr).map _).mem_iff.2 hd))
  · refine move rfl (places_of_writers rfl rfl rfl fun d hd => .inr (mem_writers.2 ?_))
    exact (mem_writers.1 hd).imp_right ((Mailbox.perm_enter hw).map _).mem_iff.2

theorem releaseEvents : Retains s s.releaseEvents :=
  of_eq (by simp) (by simp)

theorem leave (hs : s.leave c = some t) : Retains s t := by
  obtain ⟨_, -, rfl⟩ := leave_cases hs
  refine trans (t := { s with calls := s.calls.filter (·.caller != c) }) (fun d hw => ⟨?_, id⟩)
    releaseEvents
  obtain ⟨k, hk, hd, hn⟩ := awaits_iff.1 hw
  exact awaits_iff.2 ⟨k, (List.mem_filter.1 hk).1, hd, hn⟩

theorem mem_withdraw {α : Type} {b : Mailbox α} {a : α} {p : α → Bool} (ha : a ∈ b.contents)
    (hp : p a = false) : a ∈ (b.withdraw p).contents := by
  rw [Mailbox.withdraw, Mailbox.contents_grant]
  simp only [Mailbox.contents, List.mem_append, List.mem_filter, hp] at ha ⊢
  simpa using ha

/-- One who gives up no longer waits, and all others keep their places. -/
theorem cancel (hs : s.cancel c = some t) : Retains s t := by
  obtain ⟨-, rfl⟩ := cancel_cases hs
  refine trans (t := s.quit c) (fun d hw => ?_) releaseEvents
  obtain ⟨k, hk, hd, hn⟩ := awaits_iff.1 hw
  obtain ⟨hk, hne⟩ := List.mem_filter.1 hk
  have hother : d ≠ c := by
    rw [← hd]
    simpa using hne
  refine ⟨awaits_iff.2 ⟨k, hk, hd, hn⟩, fun hplace => ?_⟩
  rcases mem_places.1 hplace with hr | hw | ha | hl
  · refine mem_places.2 (.inl (mem_readers.2 ?_))
    rcases mem_readers.1 hr with hr | hr | hr
    · exact .inl hr
    · exact .inr (.inl hr)
    · obtain ⟨r, hmem, rfl⟩ := List.mem_map.1 hr
      exact .inr (.inr (List.mem_map_of_mem (mem_withdraw hmem (by simpa using hother))))
  · refine mem_places.2 (.inr (.inl (mem_writers.2 ?_)))
    rcases mem_writers.1 hw with hw | hw
    · exact .inl hw
    · obtain ⟨r, hmem, rfl⟩ := List.mem_map.1 hw
      exact .inr (List.mem_map_of_mem (mem_withdraw hmem (by simpa using hother)))
  · exact mem_places.2 (.inr (.inr (.inl ha)))
  · exact mem_places.2 (.inr (.inr (.inr (List.mem_filter.2 ⟨hl, by simpa using hother⟩))))

end Retains

/-! ## Questions -/

/-- What a move makes of the questions that were passed on. -/
inductive QuestionTurn (s t : State) : Prop
  | kept (hq : t.queries.Sublist s.queries) (ht : t.tickets = s.tickets)
  | asked (q : Query) (hq : q.ticket = s.tickets) (he : t.queries = s.queries ++ [q])
      (ht : t.tickets = s.tickets + 1)

theorem QuestionTurn.of_eq (hq : t.queries = s.queries) (ht : t.tickets = s.tickets) :
    QuestionTurn s t :=
  .kept (hq ▸ .refl _) ht

/-- What only the coordinator touches, and devices that answer questions. -/
def ledger (s : State) :=
  (s.defaultMtu, s.queries, s.tickets, s.closeError)

theorem ledger_of_step (hm : m.isWork = false) (hn : ∀ ticket out, m ≠ .answered ticket out)
    (hs : s.step m = some t) : t.ledger = s.ledger := by
  cases m with
  | call c op =>
    obtain ⟨-, ⟨_, -, rfl⟩ | ⟨_, -, rfl⟩ | ⟨-, rfl⟩ | ⟨_, -, -, rfl⟩ | rfl⟩ := call_cases hs
    · rfl
    · rfl
    · rfl
    · rfl
    · obtain ⟨_, he⟩ := refuse_eq (s.enlist c) [c]
      rw [he]
      rfl
  | enter c =>
    obtain ⟨_, -, rfl⟩ | ⟨_, -, rfl⟩ := enter_cases hs
    · rfl
    · rfl
  | leave c =>
    obtain ⟨_, -, rfl⟩ := leave_cases hs
    obtain ⟨_, he⟩ := releaseEvents_eq { s with calls := s.calls.filter (·.caller != c) }
    rw [he]
    rfl
  | cancel c =>
    obtain ⟨-, rfl⟩ := cancel_cases hs
    obtain ⟨_, he⟩ := releaseEvents_eq (s.quit c)
    rw [he]
    rfl
  | add device =>
    obtain rfl := step_add hs
    obtain ⟨_, he⟩ := add_parts s device
    rw [he]
    rfl
  | release =>
    obtain ⟨_, rfl⟩ := release_cases hs
    rfl
  | control => cases hm
  | joinReader => cases hm
  | joinWriter => cases hm
  | joinCloser id => cases hm
  | pollReader =>
    obtain ⟨_, _, _, rfl⟩ := pollReader_eq hs
    rfl
  | pollWriter =>
    obtain ⟨_, _, _, _, _, rfl⟩ := pollWriter_eq hs
    rfl
  | pollForwarder =>
    obtain ⟨_, _, rfl⟩ := pollForwarder_eq hs
    rfl
  | takeEvent =>
    obtain ⟨_, _, _, _, -, rfl⟩ := takeEvent_eq hs
    rfl
  | readReturned out =>
    obtain ⟨_, _, _, rfl⟩ := readReturned_eq hs
    rfl
  | writeReturned out =>
    obtain ⟨_, _, _, rfl⟩ := writeReturned_eq hs
    rfl
  | eventReturned out =>
    obtain ⟨_, _, rfl⟩ := eventReturned_eq hs
    rfl
  | closeReturned id out =>
    obtain ⟨-, rfl⟩ := closeReturned_cases hs
    rfl
  | lateCloseReturned id =>
    obtain rfl := lateCloseReturned_cases hs
    rfl
  | answered ticket out => exact absurd rfl (hn ticket out)

/-- The coordinator passes a question on, or leaves all as they are. -/
theorem Act.queries (h : Act s t) : t.queries = s.queries ∧ t.tickets = s.tickets ∨
    ∃ q : Query, q.ticket = s.tickets ∧ t.queries = s.queries ++ [q] ∧ t.tickets = s.tickets + 1 := by
  cases h with
  | answer => exact .inl ⟨rfl, rfl⟩
  | ask hq => exact .inr ⟨_, hq, rfl, rfl⟩
  | fail closers =>
    obtain ⟨_, _, _, _, _, _, _, he, -⟩ := crash_parts { s with closers }
    rw [he]
    exact .inl ⟨rfl, rfl⟩
  | @handle control coordinator u _ hh =>
    obtain ⟨_, _, _, _, _, _, _, _, hu⟩ := hh.eq
    obtain ⟨_, _, _, _, _, _, _, _, _, _, he⟩ := settleTeardown_parts u
    rw [he, hu]
    exact .inl ⟨rfl, rfl⟩

theorem questions_of_step (hset : s.isOver = false → Settled s) (hs : s.step m = some t) :
    QuestionTurn s t := by
  cases hm : m.isWork with
  | true =>
    rcases ((hset (isOver_of_isWork hm hs)).act hm hs).queries with ⟨hq, ht⟩ | ⟨q, hq, he, ht⟩
    · exact .of_eq hq ht
    · exact .asked q hq he ht
  | false =>
    by_cases hn : ∃ ticket out, m = .answered ticket out
    · obtain ⟨ticket, out, rfl⟩ := hn
      obtain ⟨_, _, -, rfl⟩ := answered_cases hs
      exact .kept List.filter_sublist rfl
    · have hledger := ledger_of_step hm (fun ticket out he => hn ⟨ticket, out, he⟩) hs
      simp only [ledger, Prod.mk.injEq] at hledger
      exact .of_eq hledger.2.1 hledger.2.2.1

/-- A question stays until its device answers it. -/
theorem query_of_step (hset : s.isOver = false → Settled s) (hs : s.step m = some t) {q : Query}
    (hq : q ∈ s.queries) : q ∈ t.queries ∨ ∃ out, m = .answered q.ticket out := by
  cases hm : m.isWork with
  | true =>
    rcases ((hset (isOver_of_isWork hm hs)).act hm hs).queries with ⟨he, -⟩ | ⟨_, -, he, -⟩
    · exact .inl (he ▸ hq)
    · exact .inl (he ▸ List.mem_append_left _ hq)
  | false =>
    by_cases hn : ∃ ticket out, m = .answered ticket out
    · obtain ⟨ticket, out, rfl⟩ := hn
      obtain ⟨_, _, -, rfl⟩ := answered_cases hs
      by_cases ht : q.ticket = ticket
      · exact .inr ⟨out, by rw [ht]⟩
      · exact .inl (List.mem_filter.2 ⟨hq, by simpa using ht⟩)
    · have hledger := ledger_of_step hm (fun ticket out he => hn ⟨ticket, out, he⟩) hs
      simp only [ledger, Prod.mk.injEq] at hledger
      exact .inl (hledger.2.1 ▸ hq)

/-- No ticket is given out twice. -/
theorem tickets_of_run {settings : MultiplexerSettings} {ms : List Move}
    (h : Run (.init settings) ms s) : (s.queries.map (·.ticket)).Nodup := by
  suffices hall : (s.queries.map (·.ticket)).Nodup ∧ ∀ q ∈ s.queries, q.ticket < s.tickets from hall.1
  refine h.snocRec (p := fun (_ : List Move) (s : State) => (s.queries.map (·.ticket)).Nodup ∧
    ∀ q ∈ s.queries, q.ticket < s.tickets) ?_ ?_
  · exact ⟨List.nodup_nil, fun _ hq => absurd hq List.not_mem_nil⟩
  intro ms s m t hrun ⟨honce, hlt⟩ hm
  cases questions_of_step (settled_of_run hrun) hm with
  | kept hq ht => exact ⟨honce.sublist (hq.map _), fun q hq' => ht ▸ hlt q (hq.subset hq')⟩
  | asked q hq he ht =>
    rw [he, ht]
    refine ⟨?_, fun q' hq' => ?_⟩
    · rw [List.map_append, List.nodup_append]
      refine ⟨honce, List.nodup_singleton _, fun n hn n' hn' => ?_⟩
      obtain ⟨q', hq', rfl⟩ := List.mem_map.1 hn
      have he : n' = q.ticket := by simpa using hn'
      rw [he, hq]
      exact Nat.ne_of_lt (hlt q' hq')
    · rcases List.mem_append.1 hq' with hq' | hq'
      · exact Nat.lt_succ_of_lt (hlt q' hq')
      · rw [List.mem_singleton.1 hq', hq]
        exact Nat.lt_succ_self _

/-- What a caller is told of what a device made of its question. -/
def relayed : Outcome Answer → Answer
  | .value a => a
  | .failure e => .failed e
  | .crash => .failed .closed

/-- A device that returns answers the question with that ticket. -/
theorem answered_eq (honce : (s.queries.map (·.ticket)).Nodup) {q : Query} (hq : q ∈ s.queries)
    (out : Outcome Answer) : s.answered q.ticket out = some
      (State.answer { s with queries := s.queries.filter (·.ticket != q.ticket) } q.caller
        (relayed out)) := by
  have hfound : s.queries.find? (·.ticket = q.ticket) = some q := by
    cases hf : s.queries.find? (·.ticket = q.ticket) with
    | none => simpa using List.find?_eq_none.1 hf q hq
    | some q' =>
      have he : q'.ticket = q.ticket := by simpa using List.find?_some hf
      rw [List.inj_on_of_nodup_map honce (List.mem_of_find?_eq_some hf) hq he]
  rw [State.answered, hfound]
  cases out <;> rfl

/-! ## All moves -/

/-- Moves but calls keep something for those who go on waiting. -/
theorem retains_of_step (hset : s.isOver = false → Settled s)
    (honce : (s.queries.map (·.ticket)).Nodup) (hs : s.step m = some t)
    (hm : ∀ c op, m ≠ .call c op) : Retains s t := by
  have hwork : m.isWork = true → Retains s t := fun hm =>
    .act ((hset (isOver_of_isWork hm hs)).act hm hs)
  cases m with
  | call c op => exact absurd rfl (hm c op)
  | enter c => exact .enter hs
  | leave c => exact .leave hs
  | cancel c => exact .cancel hs
  | add device =>
    obtain rfl := step_add hs
    unfold State.add
    simp only []
    split
    · exact .of_eq rfl rfl
    · refine .of_eq rfl ?_
      simp [places, readers, carried, inRead, writers, inWrite, askers, controlCallers,
        Control.caller?]
  | release =>
    obtain ⟨_, rfl⟩ := release_cases hs
    exact .of_eq rfl rfl
  | control => exact hwork rfl
  | joinReader => exact hwork rfl
  | joinWriter => exact hwork rfl
  | joinCloser id => exact hwork rfl
  | pollReader => exact .pollReader hs
  | pollWriter => exact .pollWriter hs
  | pollForwarder =>
    obtain ⟨_, _, rfl⟩ := pollForwarder_eq hs
    exact .of_eq rfl rfl
  | takeEvent => exact .takeEvent hs
  | readReturned out => exact .readReturned hs
  | writeReturned out => exact .writeReturned hs
  | eventReturned out =>
    obtain ⟨_, _, rfl⟩ := eventReturned_eq hs
    exact .of_eq rfl rfl
  | closeReturned id out =>
    obtain ⟨-, rfl⟩ := closeReturned_cases hs
    exact .of_eq rfl rfl
  | lateCloseReturned id =>
    obtain rfl := lateCloseReturned_cases hs
    exact .of_eq rfl rfl
  | answered ticket out => exact .answered honce hs

/-- A call is made, and something is kept for its caller. -/
theorem placed_of_enlist (hcalls : t.calls = (s.enlist c).calls)
    (hp : ∀ d ∈ s.places, d ∈ [] ∨ d ∈ t.places) (hc : c ∈ t.places)
    (h : ∀ d, s.awaits d = true → d ∈ s.places) : ∀ d, t.awaits d = true → d ∈ t.places := by
  intro d hw
  rw [awaits_congr hcalls] at hw
  rcases awaits_enlist.1 hw with hw | rfl
  · exact (hp d (h d hw)).resolve_left List.not_mem_nil
  · exact hc

theorem placed_of_read {size : Nat} (h : ∀ d, s.awaits d = true → d ∈ s.places)
    (ht : t = { s.enlist c with reads := s.reads.send ⟨c, size⟩ }) :
    ∀ d, t.awaits d = true → d ∈ t.places := by
  have hmem : ∀ e, e ∈ t.reads.contents.map (·.caller) ↔
      e = c ∨ e ∈ s.reads.contents.map (·.caller) := fun e => by
    rw [ht, (Mailbox.perm_send.map _).mem_iff]
    simp
  have hkept : ∀ e ∈ s.readers, e ∈ [] ∨ e ∈ t.readers := fun e he => by
    refine .inr (mem_readers.2 ?_)
    rw [hmem, ht]
    exact (mem_readers.1 he).imp_right (.imp_right .inr)
  have hnew : c ∈ t.places := mem_places.2 (.inl (mem_readers.2 (.inr (.inr ((hmem c).2 (.inl rfl))))))
  exact placed_of_enlist (by rw [ht]) (places_of_readers (by rw [ht]; rfl) (by rw [ht]; rfl)
    (by rw [ht]; rfl) hkept) hnew h

theorem placed_of_write {packet : Packet} (h : ∀ d, s.awaits d = true → d ∈ s.places)
    (ht : t = { s.enlist c with writes := s.writes.send ⟨c, packet⟩ }) :
    ∀ d, t.awaits d = true → d ∈ t.places := by
  have hmem : ∀ e, e ∈ t.writes.contents.map (·.caller) ↔
      e = c ∨ e ∈ s.writes.contents.map (·.caller) := fun e => by
    rw [ht, (Mailbox.perm_send.map _).mem_iff]
    simp
  have hkept : ∀ e ∈ s.writers, e ∈ [] ∨ e ∈ t.writers := fun e he => by
    refine .inr (mem_writers.2 ?_)
    rw [hmem, ht]
    exact (mem_writers.1 he).imp_right .inr
  have hnew : c ∈ t.places := mem_places.2 (.inr (.inl (mem_writers.2 (.inr ((hmem c).2 (.inl rfl))))))
  exact placed_of_enlist (by rw [ht]) (places_of_writers (by rw [ht]; rfl) (by rw [ht]; rfl)
    (by rw [ht]; rfl) hkept) hnew h

theorem placed_of_listen (h : ∀ d, s.awaits d = true → d ∈ s.places)
    (ht : t = { s.enlist c with listeners := s.listeners ++ [c] }) :
    ∀ d, t.awaits d = true → d ∈ t.places := by
  have hkept : ∀ e ∈ s.places, e ∈ [] ∨ e ∈ t.places := fun e he => by
    rw [ht]
    refine .inr (mem_places.2 ((mem_places.1 he).imp_right (.imp_right (.imp_right fun he => ?_))))
    exact List.mem_append_left _ he
  have hnew : c ∈ t.places := by
    rw [ht]
    exact mem_places.2 (.inr (.inr (.inr (List.mem_append_right _ (List.mem_singleton_self _)))))
  exact placed_of_enlist (by rw [ht]) hkept hnew h

theorem placed_of_ask {k : Control} (hk : k.caller? = some c)
    (h : ∀ d, s.awaits d = true → d ∈ s.places)
    (ht : t = { s.enlist c with control := s.control ++ [k] }) :
    ∀ d, t.awaits d = true → d ∈ t.places := by
  have hcallers : controlCallers t.control = controlCallers s.control ++ [c] := by
    rw [ht]
    simp [controlCallers, hk]
  have hkept : ∀ e ∈ s.askers, e ∈ [] ∨ e ∈ t.askers := fun e he => by
    refine .inr (mem_askers.2 ?_)
    rw [hcallers, ht]
    exact (mem_askers.1 he).imp_right (.imp_left (List.mem_append_left _))
  have hnew : c ∈ t.places := by
    refine mem_places.2 (.inr (.inr (.inl (mem_askers.2 (.inr (.inl ?_))))))
    exact hcallers ▸ List.mem_append_right _ (List.mem_singleton_self _)
  exact placed_of_enlist (by rw [ht]) (places_of_askers (by rw [ht]; rfl) (by rw [ht]; rfl)
    (by rw [ht]; rfl) hkept) hnew h

theorem placed_of_call {op : Operation} (hs : s.call c op = some t)
    (h : ∀ d, s.awaits d = true → d ∈ s.places) : ∀ d, t.awaits d = true → d ∈ t.places := by
  obtain ⟨-, ⟨size, -, ht⟩ | ⟨packet, -, ht⟩ | ⟨-, ht⟩ | ⟨k, hk, -, ht⟩ | rfl⟩ := call_cases hs
  · exact placed_of_read h ht
  · exact placed_of_write h ht
  · exact placed_of_listen h ht
  · exact placed_of_ask (caller?_controlOf hk) h ht
  · intro d hw
    obtain ⟨hw, hn⟩ := awaits_refuse.1 hw
    rw [places_refuse]
    exact h d ((awaits_enlist.1 hw).resolve_right fun he => hn (List.mem_singleton.2 he))

/-- For each caller that waits something is kept. -/
theorem placed_of_awaits {settings : MultiplexerSettings} {ms : List Move}
    (h : Run (.init settings) ms s) : ∀ c, s.awaits c = true → c ∈ s.places := by
  refine h.snocRec (p := fun (_ : List Move) (s : State) => ∀ c, s.awaits c = true → c ∈ s.places)
    ?_ ?_
  · intro c hw
    cases hw
  intro ms s m t hrun ih hm c hw
  by_cases hcall : ∃ d op, m = .call d op
  · obtain ⟨d, op, rfl⟩ := hcall
    exact placed_of_call hm ih c hw
  · obtain ⟨hw, hp⟩ := retains_of_step (settled_of_run hrun) (tickets_of_run hrun) hm
      (fun d op he => hcall ⟨d, op, he⟩) c hw
    exact hp (ih c hw)

end

end State

end SeamlessTunnel.Multiplexer
