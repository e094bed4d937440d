import SeamlessTunnel.Proofs.Multiplexer.Endings
import SeamlessTunnel.Proofs.Multiplexer.Reads
import SeamlessTunnel.Proofs.Multiplexer.Sequence
/-
  SeamlessTunnel.Proofs.Multiplexer.Keeping — requests that a draining device left unserved.

  Such a request waits with its pump until the coordinator takes the queue back, and then
  until the end of the teardown if no device is left (`Stranded`), or is handed to the pump
  of the next device (`Handed`). One lemma says all that can become of it in each case
  (`Stranded.step`, `Handed.step`). Every request that is kept while no device is asked to
  serve it was left so (`kept_of_run`), and the coordinator ends no other read with an empty
  packet (`emptied_of_work`).
-/

namespace SeamlessTunnel.Multiplexer.State

/-- Whether a request waits for a device: with a pump that has stopped, or while all devices
    are being closed. -/
inductive Stranded (s : State) (r : ReadRequest) : Prop
  | stopped {pump : ReadPump} (hp : s.reader = some pump)
      (hs : pump.stage = .stopped (.drained (some r)))
  | parked {cause : Teardown} (hp : s.parked = some r) (hc : s.coordinator = .tearingDown cause)

/-- Whether the pump of a device has a request that it serves before all others. -/
def Handed (s : State) (id : DeviceId) (r : ReadRequest) : Prop :=
  ∃ device, s.reader = some ⟨id, device, .ready (some r)⟩

/-- The oldest device that is not closed and has had no read pump. -/
structure FirstUnread (s : State) (k : Slot) : Prop where
  listed : k ∈ s.slots
  unread : Unread k
  oldest : ∀ l ∈ s.slots, Unread l → l ≠ k → k.id.number < l.id.number

/-- Why a request that was kept is done with, although no device was asked to serve it. -/
inductive Unserved (s t : State) (r : ReadRequest) : Prop
  | cancelled (hg : r.caller ∈ s.gone)
  /-- A teardown has ended that no device has survived. -/
  | emptied {cause : Teardown} (hc : s.coordinator = .tearingDown cause) (hr : cause ≠ .released)
      (ht : t.coordinator = cause.outcome) (hn : t.slots = [])
      (ha : t.answer? r.caller = some (.packet []))
  /-- A device has crashed, and the coordinator with it. -/
  | refused (ht : t.coordinator = .crashed) (ha : t.answer? r.caller = some (.failed .closed))

/-- Whether a read of a request failed on a device that was no longer active. -/
def Suppressed (s₀ : State) (ms : List Move) (r : ReadRequest) : Prop :=
  ∃ ms₁ e ms₂ u v k, ms = ms₁ ++ .readReturned (.failure e) :: ms₂ ∧ Run s₀ ms₁ u ∧
    u.step (.readReturned (.failure e)) = some v ∧ u.inFlight = some (k.id, r) ∧
    k ∈ u.slots ∧ k.phase ≠ .active

section

variable {s₀ s t u : State} {m : Move} {id : DeviceId} {r : ReadRequest} {ms ns : List Move}

theorem Suppressed.append (h : Suppressed s₀ ms r) : Suppressed s₀ (ms ++ ns) r := by
  obtain ⟨ms₁, e, ms₂, u, v, k, rfl, hrest⟩ := h
  exact ⟨ms₁, e, ms₂ ++ ns, u, v, k, by simp, hrest⟩

/-! ## Where a request is kept -/

theorem issuedReads_eq_nil (h : t.inFlight = none) : issuedReads s m t = [] := by
  cases m with
  | pollReader => simp [issuedReads, h]
  | _ => rfl

theorem Keeps.mem_pendingReads (h : s.Keeps r) : r ∈ s.pendingReads := by
  rw [pendingReads, h.1]
  exact List.mem_cons_self

theorem Stranded.keeps (h : s.Stranded r) (hp : s.reader ≠ none → s.parked = none) :
    s.Keeps r := by
  cases h with
  | @stopped pump hr hs =>
    have hparked := hp (by simp [hr])
    exact ⟨by simp [carried, inRead_of_reader hr, hs, hparked, ReadStage.request?],
      by simp [inFlight_of_reader hr, hs, ReadStage.reading?]⟩
  | parked hparked =>
    have hr : s.reader = none := by
      by_contra hn
      rw [hp hn] at hparked
      cases hparked
    exact ⟨by simp [carried, inRead_eq_none hr, hparked], inFlight_eq_none hr⟩

theorem Handed.keeps (h : s.Handed id r) (hp : s.reader ≠ none → s.parked = none) :
    s.Keeps r := by
  obtain ⟨device, hr⟩ := h
  have hparked := hp (by simp [hr])
  exact ⟨by simp [carried, inRead_of_reader hr, hparked, ReadStage.request?],
    by simp [inFlight_of_reader hr, ReadStage.reading?]⟩

/-- A request that is kept no longer was answered if someone waits for it. -/
theorem Serves.kept {P : ReadRequest → Answer → Prop} (h : Serves P s t) (hs : s.carried = [r])
    (ht : t.carried = []) (hw : s.awaits r.caller = true) :
    ∃ a, t.answer? r.caller = some a ∧ P r a := by
  obtain ⟨front, hfront, hserved⟩ := h.pending
  rw [pendingReads, pendingReads, hs, ht] at hfront
  cases front with
  | nil =>
    have hlength := congrArg List.length hfront
    have hle := h.shorter
    simp at hlength
    omega
  | cons r' front =>
    obtain rfl : r = r' := (List.cons.inj hfront).1
    exact hserved r List.mem_cons_self hw

/-! ## The pump under the coordinator's moves -/

theorem reader_takeControl (hfree : s.holdsReads = true → s.reader = none) {pump : ReadPump}
    (hp : s.reader = some pump) (hs : s.takeControl = some t) : t.reader = some pump := by
  have hteardown : ∀ u : State, u.reader = s.reader → ∀ cause,
      (u.beginTeardown cause).reader = some pump := fun u hu cause => by
    obtain ⟨_, _, _, _, _, _, _, _, _, _, he⟩ := settleTeardown_parts (u.closeAll cause)
    obtain ⟨_, _, hc⟩ := closeAll_eq u cause
    rw [beginTeardown_eq, he, hc]
    exact hu.trans hp
  obtain ⟨-, ⟨k, rest, -, rfl⟩ | ⟨-, -, rfl⟩⟩ := takeControl_cases hs
  · cases k with
    | add id device =>
      obtain ⟨_, _, hsup⟩ := supersede_eq { s with control := rest }
      obtain ⟨_, _, _, hw⟩ := ensureWriter_eq { State.supersede { s with control := rest } with
        slots := (State.supersede { s with control := rest }).slots ++ [({ id, device } : Slot)] }
      have hbusy : s.holdsReads ≠ true := fun hq => by
        rw [hfree hq] at hp
        cases hp
      show (State.addSlot { s with control := rest } id device).reader = some pump
      rw [addSlot_eq, adopt]
      rcases ensureReader_cases (.inl (Eq.refl none)) with ⟨-, he⟩ | ⟨hq, -, -⟩ | ⟨k, hq, -, -⟩
      · rw [he, hw, hsup]
        exact hp
      · rw [hw, hsup] at hq
        exact absurd hq hbusy
      · rw [hw, hsup] at hq
        exact absurd hq hbusy
    | mtu c => exact reader_query.trans hp
    | name c => exact reader_query.trans hp
    | count c => exact hp
    | shutdown c => exact hteardown { s with control := rest } rfl (.shutdown c)
    | close c => exact hteardown { s with control := rest } rfl (.close c)
  · exact hteardown s rfl _

/-- Joining a write pump or a closer changes neither the read pump nor what is parked. -/
theorem join_parts (hm : m.isWork = true) (hc : m ≠ .control) (hr : m ≠ .joinReader)
    (hs : s.step m = some t) : t = s.crash ∨ ∃ slots closers writer holdsWrites closeError,
      t = State.settleTeardown { s with slots, closers, writer, holdsWrites, closeError } := by
  cases m with
  | control => exact absurd rfl hc
  | joinReader => exact absurd rfl hr
  | joinWriter =>
    obtain ⟨-, pump, -, ⟨exit, -, rfl⟩ | ⟨-, rfl⟩⟩ := joinWriter_cases hs
    · obtain ⟨_, closers, hcl⟩ := closeAfter_eq (s.freeWriter pump.id) pump.id exit
      obtain ⟨slots, writer, holdsWrites, hw⟩ :=
        ensureWriter_eq ((s.freeWriter pump.id).closeAfter pump.id exit)
      refine .inr ⟨slots.filter (!·.isRetired), closers, writer, holdsWrites, s.closeError, ?_⟩
      rw [onWriteExit_eq, hw, hcl]
      rfl
    · exact .inl rfl
  | joinCloser id =>
    obtain ⟨-, closer, -, ⟨error, -, rfl⟩ | ⟨-, rfl⟩⟩ := joinCloser_cases hs
    · refine .inr ⟨(s.markClosed id).prune.slots, s.closers.filter (·.id != id), s.writer,
        s.holdsWrites, error.or s.closeError, ?_⟩
      rw [onClosed_eq]
      rfl
    · exact .inl rfl
  | _ => cases hm

/-- Only joining it ends a read pump, or a crash. -/
theorem reader_of_work (hfree : s.holdsReads = true → s.reader = none) (hm : m.isWork = true)
    (hr : m ≠ .joinReader) {pump : ReadPump} (hp : s.reader = some pump) (hs : s.step m = some t) :
    t = s.crash ∨ t.reader = some pump := by
  by_cases hc : m = .control
  · subst hc
    exact .inr (reader_takeControl hfree hp hs)
  · refine (join_parts hm hc hr hs).imp_right ?_
    rintro ⟨slots, closers, writer, holdsWrites, closeError, rfl⟩
    obtain ⟨_, _, _, _, _, _, _, _, _, _, he⟩ :=
      settleTeardown_parts { s with slots, closers, writer, holdsWrites, closeError }
    rw [he]
    exact hp

/-! ## Crashes -/

/-- A pump that has stopped or crashed does not survive a crash. -/
theorem reader_crash : s.crash.reader = s.dropReader.reader := by
  obtain ⟨_, hc⟩ := dropControl_eq s
  obtain ⟨_, _, _, hq⟩ := dropReads_eq s.dropControl
  obtain ⟨_, _, _, hv⟩ := dropWrites_eq s.dropControl.dropReads.dropReader
  obtain ⟨_, _, _, hw⟩ := dropWriter_eq s.dropControl.dropReads.dropReader.dropWrites
  rw [crash_eq, hw, hv, hq, hc]
  unfold dropReader
  repeat' split
  all_goals simp_all [shutReads]

theorem parked_crash : s.crash.parked = none := by
  obtain ⟨_, _, _, _, _, _, _, he, -⟩ := crash_parts s
  rw [he]

/-- A pump that is about to serve a request survives a crash. -/
theorem Handed.crash (h : s.Handed id r) : s.crash.Handed id r := by
  obtain ⟨device, hp⟩ := h
  refine ⟨device, ?_⟩
  rw [reader_crash, dropReader]
  simp [hp]

theorem Stranded.carried_crash (h : s.Stranded r) (hp : s.reader ≠ none → s.parked = none) :
    s.crash.carried = [] := by
  have hreader : s.crash.reader = none := by
    rw [reader_crash, dropReader]
    cases h with
    | stopped hr hs => simp [hr, hs, shutReads]
    | parked hparked =>
      have hn : s.reader = none := by
        by_contra hn
        rw [hp hn] at hparked
        cases hparked
      simp [hn]
  rw [carried, inRead_eq_none hreader, parked_crash]
  rfl

/-! ## The end of a teardown -/

theorem parked_endTeardown (cause : Teardown) : (s.endTeardown cause).parked = none := by
  cases cause with
  | shutdown c =>
    obtain ⟨_, he⟩ := endShutdown_eq s c
    rw [he]
  | close c =>
    obtain ⟨_, he⟩ := endShutdown_eq s c
    obtain ⟨_, _, _, _, _, _, hf⟩ := finish_parts (s.endTeardown (.shutdown c))
    rw [endClose_eq, hf, he]
  | released =>
    obtain ⟨_, he⟩ := releaseParked_eq s
    obtain ⟨_, _, _, _, _, _, hf⟩ := finish_parts s.releaseParked
    rw [endTeardown, hf, he]

/-- The end of the coordinator takes no answer back. -/
theorem answer?_finish {c : Caller} {a : Answer} (h : s.answer? c = some a) :
    s.finish.answer? c = some a := by
  have hreads : ∀ u : State, u.answer? c = some a → u.dropReads.answer? c = some a :=
    fun u hu => by
      unfold dropReads
      split
      · exact answer?_refuse_of_some (s := { u with reads := u.reads.shut }) hu
      · exact hu
  have hwrites : ∀ u : State, u.answer? c = some a → u.dropWrites.answer? c = some a :=
    fun u hu => by
      unfold dropWrites
      split
      · exact answer?_refuse_of_some (s := { u with writes := u.writes.shut }) hu
      · exact hu
  rw [finish_eq]
  exact hwrites _ (hreads _ (answer?_refuse_of_some (s := { s with
    coordinator := .ended, control := [], lateCloses := s.lateCloses ++ lateDevices s.control }) h))

theorem answer?_stopReader {c : Caller} {a : Answer} {pump : ReadPump} {exit : ReadExit}
    (h : s.answer? c = some a) : (s.stopReader pump exit).answer? c = some a := by
  unfold stopReader
  split
  · exact answer?_refuse_of_some (answer?_refuse_of_some
      (s := { s with reader := none, reads := s.reads.shut }) h)
  · exact h

/-- A request that is parked to the end of a teardown ends with an empty packet. -/
theorem answer?_endTeardown (hu : s.callers.Nodup) (hp : s.parked = some r)
    (hw : s.awaits r.caller = true) (cause : Teardown) :
    (s.endTeardown cause).answer? r.caller = some (.packet []) := by
  have hreleased : s.releaseParked.answer? r.caller = some (.packet []) := by
    rw [releaseParked, hp]
    exact answer?_answer_self hu hw
  cases cause with
  | shutdown c =>
    exact answer?_answer_of_some (s := { s.releaseParked with coordinator := .serving }) hreleased
  | close c => exact answer?_finish (answer?_answer_of_some hreleased)
  | released => exact answer?_finish hreleased

/-- A request stays parked until the teardown ends, and then nothing is kept. -/
theorem stranded_or_unserved (hu : u.callers.Nodup) {cause : Teardown} (hcalls : u.calls = s.calls)
    (hr : u.reader = none) (hp : u.parked = some r) (hc : u.coordinator = .tearingDown cause)
    (hsame : u.coordinator = s.coordinator)
    (hplaced : s.awaits r.caller = true ∧ cause ≠ .released ∨ r.caller ∈ s.gone) :
    u.settleTeardown.Stranded r ∨
      u.settleTeardown.carried = [] ∧ Unserved s u.settleTeardown r := by
  obtain ⟨_, _, _, _, _, _, _, _, _, _, hparts⟩ := settleTeardown_parts u
  have hreader : u.settleTeardown.reader = none := by
    rw [hparts]
    exact hr
  rcases settleTeardown_cases u with ⟨he, -⟩ | ⟨cause', hc', hnil, he⟩
  · rw [he]
    exact .inl (.parked hp hc)
  · obtain rfl := Coordinator.tearingDown.inj (hc.symm.trans hc')
    refine .inr ⟨?_, ?_⟩
    · rw [carried, inRead_eq_none hreader, he, parked_endTeardown]
      rfl
    · rcases hplaced with ⟨hw, hcause⟩ | hg
      · have hw' : u.awaits r.caller = true := (awaits_congr hcalls).trans hw
        refine .emptied (hsame.symm.trans hc) hcause ?_ (slots_settleTeardown.trans hnil) ?_
        · rw [he, coordinator_endTeardown]
        · rw [he]
          exact answer?_endTeardown hu hp hw' cause
      · exact .cancelled hg

/-! ## Steps -/

/-- What starts after the end of a read pump starts on the oldest device that is left. -/
theorem FirstUnread.of_freeReader (hcoh : Coherent s) {pump : ReadPump}
    (hp : s.reader = some pump) {k : Slot} (hk : (s.freeReader pump.id).unread? = some k) :
    s.FirstUnread k := by
  have hread := readId_of_reader hp
  have hkept : ∀ l ∈ s.slots, Unread l → l ∈ (s.freeReader pump.id).slots := fun l hl hu => by
    refine mem_updateSlot_of_ne hl fun he => ?_
    have hrun := (hcoh.agrees l hl).reading.2 (he ▸ hread)
    rw [hu.2] at hrun
    cases hrun
  obtain ⟨hmem, hu, hfirst⟩ := unread?_eq_some (hcoh.freeReader hread) hk
  obtain ⟨l, hl, ⟨-, rfl⟩ | ⟨-, rfl⟩⟩ := mem_updateSlot hmem
  · cases hu.2
  · exact ⟨hl, hu, fun l' hl' hu' hne => hfirst l' (hkept l' hl' hu') hu' hne⟩

theorem not_unread_of_freeReader {pump : ReadPump} (hcoh : Coherent s)
    (hp : s.reader = some pump) (hn : (s.freeReader pump.id).unread? = none) :
    ∀ k ∈ s.slots, ¬ Unread k := fun k hk hu => by
  refine unread?_eq_none hn k (mem_updateSlot_of_ne hk fun he => ?_) hu
  have hrun := (hcoh.agrees k hk).reading.2 (he ▸ readId_of_reader hp)
  rw [hu.2] at hrun
  cases hrun

section

variable {settings : MultiplexerSettings}

/-- The caller of a request that is kept waits, so that somebody holds the multiplexer, or
    has given up. -/
theorem Keeps.placed (h : s.Keeps r) (hrun : Run (.init settings) ms s) {cause : Teardown}
    (hc : s.coordinator = .tearingDown cause) :
    s.awaits r.caller = true ∧ cause ≠ .released ∨ r.caller ∈ s.gone := by
  refine ((accounted_of_run hrun).awaits_pending h.mem_pendingReads).imp_left fun hw => ⟨hw, ?_⟩
  rintro rfl
  have hlive : s.hasHandle = false :=
    ((grounded_of_run hrun).1 (by simp [isOver, hc])).teardown .released hc
  have hcallers := List.ne_nil_of_mem (mem_callers_of_awaits hw)
  simp [hasHandle_eq, hcallers] at hlive

theorem Stranded.crash (h : s.Stranded r) (hrun : Run (.init settings) ms s)
    (ho : s.isOver = false) : s.crash.carried = [] ∧ Unserved s s.crash r := by
  have hparked := parked_of_run hrun
  have hacc := accounted_of_run hrun
  have hkeeps := h.keeps hparked
  have hcarried := h.carried_crash hparked
  refine ⟨hcarried, ?_⟩
  rcases hacc.awaits_pending hkeeps.mem_pendingReads with hw | hg
  · have hserves : Serves (fun _ a => a = .failed .closed) s s.crash :=
      .crash hacc (noReader_of_run hrun ho)
        (fun hp => ((settled_of_run hrun ho).tended.reads.parked hp).1) fun _ => rfl
    obtain ⟨a, ha, rfl⟩ := hserves.kept hkeeps.1 hcarried hw
    exact .refused (coordinator_crash s) ha
  · exact .cancelled hg

/-- When its pump has ended, a request goes to the oldest device that is left, or is parked
    until all are closed. -/
theorem Stranded.joinReader (h : s.Stranded r) (hrun : Run (.init settings) ms s)
    {pump : ReadPump} (hp : s.reader = some pump) (hst : pump.stage = .stopped (.drained (some r)))
    (hs : s.joinReader = some t) :
    t.Stranded r ∨ (∃ k, s.FirstUnread k ∧ t.Handed k.id r) ∨ t.carried = [] ∧ Unserved s t r := by
  obtain ⟨ho, pump', hp', ⟨exit, he, rfl⟩ | ⟨he, -⟩⟩ := joinReader_cases hs
  · obtain rfl := Option.some.inj (hp.symm.trans hp')
    obtain rfl : exit = .drained (some r) := ReadStage.stopped.inj (he.symm.trans hst)
    have hset := settled_of_run hrun ho
    have hcoh := hset.tended.coherent
    have hfree : some r = none ∨ (s.freeReader pump.id).holdsReads = true ∧
        (s.freeReader pump.id).parked = none := .inr ⟨rfl, hset.tended.reads.parked_eq_none hp⟩
    rw [onReadExit_eq, restart]
    rcases ensureReader_cases hfree with ⟨hn, -⟩ | ⟨-, hnone, hpark⟩ | ⟨k, -, hk, hstart⟩
    · cases hn
    · obtain ⟨cause, hc⟩ := (sequenced_of_run hrun ho).tearing hset ho hp hst
        (not_unread_of_freeReader hcoh hp hnone)
      rw [hpark]
      refine (stranded_or_unserved (s := s) (u := State.prune { s.freeReader pump.id with
        parked := some r }) (accounted_of_run hrun).callers rfl rfl rfl hc rfl
        ((h.keeps (parked_of_run hrun)).placed hrun hc)).imp_right .inr
    · refine .inr (.inl ⟨k, .of_freeReader hcoh hp hk, k.device, ?_⟩)
      rw [hstart]
      obtain ⟨_, _, _, _, _, _, _, _, _, _, hparts⟩ := settleTeardown_parts (State.prune
        { (s.freeReader pump.id).updateSlot k.id fun k => { k with reading := .running } with
          parked := none
          holdsReads := false
          reader := some ⟨k.id, k.device, .ready ((some r).or (s.freeReader pump.id).parked)⟩ })
      rw [hparts]
      rfl
  · obtain rfl := Option.some.inj (hp.symm.trans hp')
    rw [hst] at he
    cases he

/-- What the coordinator makes of a request that waits for a device. -/
theorem Stranded.work (h : s.Stranded r) (hrun : Run (.init settings) ms s)
    (ho : s.isOver = false) (hm : m.isWork = true) (hs : s.step m = some t) : t.Stranded r ∨
      (m = .joinReader ∧ ∃ k, s.FirstUnread k ∧ t.Handed k.id r) ∨
      t.carried = [] ∧ Unserved s t r := by
  have hcrash : t = s.crash → t.carried = [] ∧ Unserved s t r := by
    rintro rfl
    exact h.crash hrun ho
  have hstranded := h
  cases h with
  | stopped hp hst =>
    by_cases hj : m = .joinReader
    · subst hj
      exact (hstranded.joinReader hrun hp hst hs).imp_right (Or.imp_left fun hk => ⟨rfl, hk⟩)
    · rcases reader_of_work (noReader_of_run hrun ho) hm hj hp hs with he | hp'
      · exact .inr (.inr (hcrash he))
      · exact .inl (.stopped hp' hst)
  | parked hp hc =>
    have hreader := ((settled_of_run hrun ho).tended.reads.parked (by simp [hp])).1
    have hcontrol : m ≠ .control := by
      rintro rfl
      have hserving := (takeControl_cases hs).1
      rw [hc] at hserving
      cases hserving
    have hjoin : m ≠ .joinReader := by
      rintro rfl
      obtain ⟨-, pump, hp', -⟩ := joinReader_cases hs
      rw [hreader] at hp'
      cases hp'
    rcases join_parts hm hcontrol hjoin hs with
      he | ⟨slots, closers, writer, holdsWrites, closeError, rfl⟩
    · exact .inr (.inr (hcrash he))
    · exact (stranded_or_unserved (s := s)
        (u := { s with slots, closers, writer, holdsWrites, closeError })
        (accounted_of_run hrun).callers rfl hreader hp hc rfl
        ((hstranded.keeps (parked_of_run hrun)).placed hrun hc)).imp_right .inr

/-- Nobody but the coordinator touches a request that waits for a device. -/
theorem Stranded.aside (h : s.Stranded r) (q : Aside s m t) (hs : s.step m = some t) :
    t.Stranded r := by
  cases h with
  | parked hp hc => exact .parked (q.parked.trans hp) (q.coordinator.trans hc)
  | stopped hp hst =>
    rcases q.reads with ⟨hr, -⟩ | rfl | ⟨out, rfl⟩
    · exact .stopped (hr.trans hp) hst
    · obtain ⟨pump', hp', hcases⟩ := pollReader_cases hs
      obtain rfl := Option.some.inj (hp.symm.trans hp')
      simp [hst] at hcases
    · obtain ⟨pump', _, hp', hst', -⟩ := readReturned_cases hs
      obtain rfl := Option.some.inj (hp.symm.trans hp')
      cases hst.symm.trans hst'

/-- What can become of a request that waits for a device. -/
theorem Stranded.step (h : s.Stranded r) (hrun : Run (.init settings) ms s)
    (hs : s.step m = some t) : t.Stranded r ∨
      (m = .joinReader ∧ ∃ k, s.FirstUnread k ∧ t.Handed k.id r) ∨
      t.carried = [] ∧ Unserved s t r := by
  rcases step_kinds hs with ⟨hwork, ho⟩ | ⟨device, -, rfl⟩ | q
  · exact h.work hrun ho hwork hs
  · obtain ⟨_, he⟩ := add_parts s device
    rw [he]
    cases h with
    | stopped hp hst => exact .inl (.stopped hp hst)
    | parked hp hc => exact .inl (.parked hp hc)
  · exact .inl (h.aside q hs)

/-- What can become of a request that was handed to the pump of a device: the device is asked
    to serve it, unless its caller has given up. -/
theorem Handed.step (h : s.Handed id r) (hrun : Run (.init settings) ms s)
    (hs : s.step m = some t) : t.Handed id r ∨ m = .pollReader ∧
      (t.inFlight = some (id, r) ∨ t.carried = [] ∧ Unserved s t r) := by
  have hhanded := h
  obtain ⟨device, hp⟩ := h
  rcases step_kinds hs with ⟨hwork, ho⟩ | ⟨device', -, rfl⟩ | q
  · have hjoin : m ≠ .joinReader := by
      rintro rfl
      obtain ⟨-, pump, hp', ⟨_, he, -⟩ | ⟨he, -⟩⟩ := joinReader_cases hs
      all_goals
        obtain rfl := Option.some.inj (hp.symm.trans hp')
        cases he
    rcases reader_of_work (noReader_of_run hrun ho) hwork hjoin hp hs with rfl | hp'
    · exact .inl hhanded.crash
    · exact .inl ⟨device, hp'⟩
  · obtain ⟨_, he⟩ := add_parts s device'
    rw [he]
    exact .inl hhanded
  · rcases q.reads with ⟨hr, -⟩ | rfl | ⟨out, rfl⟩
    · exact .inl ⟨device, hr.trans hp⟩
    · have hparked := parked_of_run hrun (by simp [hp])
      refine .inr ⟨rfl, ?_⟩
      obtain ⟨pump', hp', ⟨r', hst, rfl⟩ | ⟨hst, -⟩ | ⟨_, _, hst, -⟩ | ⟨hst, -⟩⟩ :=
        pollReader_cases hs
      all_goals
        obtain rfl := Option.some.inj (hp.symm.trans hp')
        cases hst
      rcases (accounted_of_run hrun).awaits_pending
        (hhanded.keeps (parked_of_run hrun)).mem_pendingReads with hw | hg
      · exact .inl (by simp [takeRead, inFlight, hw, ReadStage.reading?])
      · have hw : s.awaits r.caller = false := by
          by_contra hw
          exact (accounted_of_run hrun).gone _ hg (mem_callers_of_awaits (by simpa using hw))
        exact .inr ⟨by simp [takeRead, carried, inRead, hw, hparked, ReadStage.request?],
          .cancelled hg⟩
    · obtain ⟨pump', _, hp', hst, -⟩ := readReturned_cases hs
      obtain rfl := Option.some.inj (hp.symm.trans hp')
      cases hst

/-! ## How a request comes to be kept -/

theorem exists_of_isDraining (h : s.isDraining id = true) :
    ∃ k ∈ s.slots, k.id = id ∧ k.phase ≠ .active := by
  cases hk : s.slot? id with
  | none => simp [isDraining, hk] at h
  | some k =>
    obtain ⟨hmem, he⟩ := mem_of_slot? hk
    exact ⟨k, hmem, he, by simpa [isDraining, hk] using h⟩

/-- A read pump that stops keeps what its exit carries, as long as the coordinator works. -/
theorem carried_stopReader {pump : ReadPump} {exit : ReadExit} (hp : s.parked = none) :
    (s.stopReader pump exit).carried =
      if s.isOver then [] else (ReadStage.stopped exit).request?.toList := by
  cases ho : s.isOver <;> simp [stopReader, ho, carried, inRead, shutReads, hp]

theorem not_keeps_takeRead {pump : ReadPump} {r' : ReadRequest} (hp : s.parked = none) :
    ¬ (s.takeRead pump r').Keeps r := by
  rintro ⟨hc, hf⟩
  cases hw : s.awaits r'.caller with
  | true => simp [takeRead, inFlight, hw, ReadStage.reading?] at hf
  | false => simp [takeRead, carried, inRead, hw, hp, ReadStage.request?] at hc

/-- The read pump takes requests to have them served. -/
theorem not_keeps_pollReader (hparked : s.reader ≠ none → s.parked = none)
    (hs : s.pollReader = some t) : ¬ t.Keeps r := by
  obtain ⟨pump, hp, hcases⟩ := pollReader_cases hs
  have hn := hparked (by simp [hp])
  have hstop : ∀ exit, (ReadStage.stopped exit).request? = none →
      ¬ (s.stopReader pump exit).Keeps r := fun exit he hk => by
    have hc := hk.1
    rw [carried_stopReader hn, he] at hc
    simp at hc
  rcases hcases with ⟨_, -, rfl⟩ | ⟨-, -, rfl⟩ | ⟨_, reads, -, -, -, rfl⟩ | ⟨-, -, -, rfl⟩
  · exact not_keeps_takeRead hn
  · exact hstop _ rfl
  · exact not_keeps_takeRead (s := { s with reads }) hn
  · exact hstop _ rfl

/-- A read that returns leaves a request unserved only if it failed while its device
    drained. -/
theorem Keeps.of_readReturned (h : t.Keeps r) (hparked : s.reader ≠ none → s.parked = none)
    {out : Outcome Packet} (hs : s.readReturned out = some t) : ∃ e id,
      out = .failure e ∧ s.inFlight = some (id, r) ∧ s.isDraining id = true ∧ t.Stranded r := by
  obtain ⟨pump, r', hp, hstage, hcases⟩ := readReturned_cases hs
  have hn := hparked (by simp [hp])
  have hc := h.1
  rcases hcases with ⟨p, -, rfl⟩ | ⟨e, rfl, hd, rfl⟩ | ⟨e, -, -, rfl⟩ | ⟨-, rfl⟩
  · simp [carried, inRead, State.answer, hn, ReadStage.request?] at hc
  · rw [carried_stopReader hn] at hc
    cases ho : s.isOver with
    | true => simp [ho] at hc
    | false =>
      obtain rfl : r' = r := by simpa [ho, ReadStage.request?] using hc
      refine ⟨e, pump.id, rfl, ?_, hd, .stopped (reader_stopReader ho) rfl⟩
      rw [inFlight_of_reader hp, hstage]
      rfl
  · rw [carried_stopReader (s := s.answer r'.caller (.failed e)) hn] at hc
    simp [ReadStage.request?] at hc
  · cases ho : s.isOver <;>
      simp [carried, inRead, shutReads, hn, ho, ReadStage.request?] at hc

/-- The coordinator leaves no request unserved that was not. -/
theorem Keeps.of_act (h : t.Keeps r) (hact : Act s t) (hf : t.inFlight = s.inFlight)
    (hparked : s.reader ≠ none → s.parked = none) : s.Keeps r := by
  refine ⟨?_, hf.symm.trans h.2⟩
  cases hact with
  | answer => exact h.1
  | ask => exact h.1
  | fail closers =>
    obtain ⟨_, _, _, reader, _, _, _, he, hreader⟩ := crash_parts { s with closers }
    have hcarried : (reader.bind (·.stage.request?)).toList = [r] := by
      have hc := h.1
      rw [he] at hc
      simpa [carried, inRead] using hc
    rcases hreader with rfl | ⟨rfl, -⟩
    · have hr : s.reader ≠ none := by
        rintro hr
        simp [hr] at hcarried
      rw [carried, hparked hr, inRead]
      simpa using hcarried
    · cases hcarried
  | @handle _ _ u _ hu ht =>
    have hsame : s.carried = u.carried := hu.carried.symm
    rw [hsame]
    rcases settleTeardown_cases u with ⟨he, -⟩ | ⟨cause, -, hnil, he⟩
    · rw [← he]
      exact h.1
    · -- a teardown ends without pumps, so that it leaves no request
      have hreader : u.reader = none := by
        by_contra hr
        obtain ⟨pump, hp⟩ := Option.ne_none_iff_exists'.1 hr
        obtain ⟨k, hk, -⟩ := ht.coherent.reader pump.id (readId_of_reader hp)
        rw [hnil] at hk
        cases hk
      obtain ⟨_, _, _, _, _, _, _, _, _, _, hparts⟩ := settleTeardown_parts u
      have hr : u.settleTeardown.reader = none := by
        rw [hparts]
        exact hreader
      have hc := h.1
      rw [carried, inRead_eq_none hr, he, parked_endTeardown] at hc
      cases hc

/-- The read pump leaves a request unserved when a read of a draining device fails. -/
theorem Keeps.of_step (h : t.Keeps r) (hrun : Run (.init settings) ms s)
    (hs : s.step m = some t) : s.Keeps r ∨ ∃ e id, m = .readReturned (.failure e) ∧
      s.inFlight = some (id, r) ∧ s.isDraining id = true ∧ t.Stranded r := by
  have hparked := parked_of_run hrun
  rcases step_kinds hs with ⟨hwork, ho⟩ | ⟨device, -, rfl⟩ | q
  · have hf : t.inFlight = s.inFlight := inFlight_of_step (settled_of_run hrun) hs
      (by rintro rfl; cases hwork) (by rintro out rfl; cases hwork)
    exact .inl (h.of_act ((settled_of_run hrun ho).act hwork hs) hf hparked)
  · obtain ⟨_, he⟩ := add_parts s device
    rw [he] at h
    exact .inl h
  · rcases q.reads with ⟨hr, -⟩ | rfl | ⟨out, rfl⟩
    · refine .inl ⟨(carried_congr hr q.parked).symm.trans h.1, ?_⟩
      rw [inFlight, ← hr]
      exact h.2
    · exact absurd h (not_keeps_pollReader hparked hs)
    · obtain ⟨e, id, rfl, hrest⟩ := h.of_readReturned hparked hs
      exact .inr ⟨e, id, rfl, hrest⟩

/-- What is kept was left unserved by a draining device. -/
theorem kept_of_run (h : Run (.init settings) ms s) (hk : s.Keeps r) :
    Suppressed (.init settings) ms r ∧ (s.Stranded r ∨ ∃ id, s.Handed id r) := by
  refine h.snocRec (p := fun ms s => s.Keeps r → Suppressed (.init settings) ms r ∧
    (s.Stranded r ∨ ∃ id, s.Handed id r)) (fun hk => by cases hk.1) ?_ hk
  intro ms s m t hrun ih hm hk
  have hgone : t.carried ≠ [] := by
    rw [hk.1]
    exact List.cons_ne_nil _ _
  rcases hk.of_step hrun hm with hs | ⟨e, id, rfl, hf, hd, ht⟩
  · obtain ⟨hsuppressed, hs | ⟨id, hs⟩⟩ := ih hs
    · refine ⟨hsuppressed.append, ?_⟩
      rcases hs.step hrun hm with ht | ⟨-, k, -, ht⟩ | ⟨hc, -⟩
      · exact .inl ht
      · exact .inr ⟨k.id, ht⟩
      · exact absurd hc hgone
    · refine ⟨hsuppressed.append, ?_⟩
      rcases hs.step hrun hm with ht | ⟨-, hf | ⟨hc, -⟩⟩
      · exact .inr ⟨id, ht⟩
      · rw [hk.2] at hf
        cases hf
      · exact absurd hc hgone
  · obtain ⟨k, hkm, rfl, hphase⟩ := exists_of_isDraining hd
    exact ⟨⟨ms, e, [], s, t, k, rfl, hrun, hm, hf, hkm, hphase⟩, .inl ht⟩

/-- A coordinator that serves keeps no request. -/
theorem parked_of_serving (h : Run (.init settings) ms s) (hc : s.coordinator = .serving) :
    s.parked = none := by
  cases hp : s.parked with
  | none => rfl
  | some r =>
    have ho : s.isOver = false := by simp [isOver, hc]
    have hreader := ((settled_of_run h ho).tended.reads.parked (by simp [hp])).1
    have hk : s.Keeps r :=
      ⟨by simp [carried, inRead_eq_none hreader, hp], inFlight_eq_none hreader⟩
    obtain ⟨-, hstranded | ⟨id, device, hr⟩⟩ := kept_of_run h hk
    · cases hstranded with
      | stopped hr => cases hreader.symm.trans hr
      | parked _ htearing => cases hc.symm.trans htearing
    · cases hreader.symm.trans hr

/-- One who has given up is told nothing. -/
theorem not_told_of_gone (h : Run (.init settings) ms s) (hm : s.step m = some t) {c : Caller}
    (hg : c ∈ s.gone) : t.answer? c = none := by
  have hgone : c ∈ t.gone := by
    rcases gone_of_step (settled_of_run h) hm with he | ⟨_, -, he⟩
    · exact he ▸ hg
    · exact he ▸ List.mem_append_left _ hg
  exact answer?_eq_none_of_not_mem ((accounted_of_run (h.snoc hm)).gone c hgone)

/-- The coordinator ends a request with an empty packet only at the end of a teardown. -/
theorem emptied_of_work (h : Run (.init settings) ms s) (hm : m.isWork = true)
    (hs : s.step m = some t) (hk : s.Keeps r) (ha : t.answer? r.caller = some (.packet [])) :
    Suppressed (.init settings) ms r ∧ ∃ cause, s.coordinator = .tearingDown cause ∧
      cause ≠ .released ∧ t.coordinator = cause.outcome ∧ t.slots = [] := by
  have hafter := h.snoc hs
  have hkept : ¬ t.Keeps r := fun ht => by
    rw [(accounted_of_run hafter).not_answered ht.mem_pendingReads] at ha
    cases ha
  have hpoll : m ≠ .pollReader := by
    rintro rfl
    cases hm
  obtain ⟨hsuppressed, hstranded | ⟨id, hhanded⟩⟩ := kept_of_run h hk
  · refine ⟨hsuppressed, ?_⟩
    rcases hstranded.step h hs with ht | ⟨-, k, -, ht⟩ | ⟨-, hu⟩
    · exact absurd (ht.keeps (parked_of_run hafter)) hkept
    · exact absurd (ht.keeps (parked_of_run hafter)) hkept
    · cases hu with
      | cancelled hg =>
        rw [not_told_of_gone h hs hg] at ha
        cases ha
      | emptied hc hr hout hn => exact ⟨_, hc, hr, hout, hn⟩
      | refused _ hclosed =>
        rw [hclosed] at ha
        cases ha
  · rcases hhanded.step h hs with ht | ⟨hp, -⟩
    · exact absurd (ht.keeps (parked_of_run hafter)) hkept
    · exact absurd hp hpoll

end

end

end SeamlessTunnel.Multiplexer.State
