import SeamlessTunnel.Proofs.Multiplexer.Answering
import SeamlessTunnel.Proofs.Multiplexer.Books
/-
  SeamlessTunnel.Proofs.Multiplexer.Agenda — what the coordinator has yet to do.

  The message whose teardown goes on and those that wait, in order, are the agenda. A move
  leaves it as it is, puts a message at its end, or is done with the message at its front,
  unless the coordinator stops and drops all of it (`advance_of_step`). What has become of
  devices and callers once a message is done with is `Done`.
-/

namespace SeamlessTunnel.Multiplexer

/-- The message that asks for a teardown. -/
def Teardown.message? : Teardown → Option Control
  | shutdown c => some (.shutdown c)
  | close c => some (.close c)
  | released => none

/-- The message that the coordinator works on. -/
def Coordinator.message? : Coordinator → Option Control
  | tearingDown cause => cause.message?
  | serving | ended | crashed => none

namespace State

/-- The messages that the coordinator is not done with, in order. -/
def agenda (s : State) : List Control :=
  s.coordinator.message?.toList ++ s.control

/-- Whether a move sends a message. -/
def Sends (s : State) (m : Move) (k : Control) : Prop :=
  (∃ c op, m = .call c op ∧ controlOf c op = some k) ∨
    ∃ device, m = .add device ∧ k = .add s.nextId device

/-- What is the case once the coordinator is done with a message. -/
def Done (s : State) : Control → Prop
  | .add id device => ∃ k, s.slots.getLast? = some k ∧ k.id = id ∧ k.device = device
  | .shutdown c => s.slots = [] ∧ s.awaits c = false
  | .close _ => False
  | .mtu _ | .name _ | .count _ => True

/-- What a move does to the agenda. -/
inductive Advance (s : State) (m : Move) (t : State) : Prop
  | same (ho : t.isOver = s.isOver) (ha : t.agenda = s.agenda)
  | sent {k : Control} (hk : s.Sends m k) (ho : t.isOver = s.isOver)
      (ha : t.agenda = s.agenda ++ [k])
  | done {k : Control} {rest : List Control} (hs : s.agenda = k :: rest) (ha : t.agenda = rest)
      (hc : t.coordinator = .serving) (hd : t.Done k)
  /-- The coordinator stops, and whoever waits for it is told. -/
  | stopped (ha : t.agenda = []) (hc : t.coordinator = .crashed ∨
      t.coordinator = .ended ∧ ∃ c rest, s.agenda = .close c :: rest)
      (hn : ∀ k ∈ s.agenda, ∀ c, k.caller? = some c → t.awaits c = false)

section

variable {s t u : State} {m : Move} {id : DeviceId} {ms : List Move}

theorem agenda_of_message?_eq_none (h : s.coordinator.message? = none) : s.agenda = s.control := by
  rw [agenda, h]
  rfl

theorem Handled.agenda (h : Handled s t) : t.agenda = s.agenda := by
  obtain ⟨_, _, _, _, _, _, _, _, he⟩ := h.eq
  rw [he]
  rfl

/-! ## The newest device -/

/-- A device whose close was not started stays on the list. -/
theorem Deed.unclosed (d : Deed s m t) (h : Coherent s) {k : Slot} (hk : k ∈ s.slots)
    (hc : k.closing = false) : t.Unclosed k.id := by
  have hopen : s.Unclosed k.id := .inr ⟨k, hk, rfl, hc⟩
  cases d with
  | message hm hn work => exact work.unclosed _ hopen
  | device hm before work =>
    refine work.unclosed _ ((before.unclosed _ hopen).imp_right ?_)
    rintro ⟨l, hl, he⟩
    exact ⟨l, List.mem_append_left _ hl, he⟩
  | noHolder hm work => exact work.unclosed _ hopen
  | readerEnd hr hs work =>
    exact work.unclosed _ (Worked.unclosed_update (f := fun k => { k with reading := .done })
      (fun _ => rfl) (fun _ => rfl) hopen)
  | writerEnd work => exact work.unclosed _ hopen
  | @closerEnd closer t hcl hr work =>
    have hne : k.id ≠ closer.id := fun he => by
      have hclosing := ((h.agrees k hk).closers.1 (he ▸ List.mem_map_of_mem hcl)).1
      rw [hc] at hclosing
      cases hclosing
    exact work.unclosed _ (.inr ⟨k, mem_updateSlot_of_ne hk hne, rfl, hc⟩)

/-- The newest device is still the newest when nothing but later records of the same devices
    are listed and its own is among them. -/
theorem newest_of_after (ht : Tended t) (hserving : t.coordinator = .serving) (hs : Coherent s)
    (ha : ∀ k' ∈ t.slots, ∃ k ∈ s.slots, Slot.Later k k') {k : Slot}
    (hk : s.slots.getLast? = some k) (hu : t.Unclosed k.id) :
    ∃ k', t.slots.getLast? = some k' ∧ k'.id = k.id ∧ k'.device = k.device := by
  obtain ⟨l, hl, -⟩ : ∃ l ∈ t.slots, l.id = k.id :=
    hu.elim (ht.coherent.closers k.id) fun ⟨l, hl, he, _⟩ => ⟨l, hl, he⟩
  obtain ⟨k', hk', hactive⟩ := List.mem_map.1 (ht.serving hserving (List.ne_nil_of_mem hl))
  obtain ⟨k₀, hk₀, hlater⟩ := ha k' hk'
  have hlast := hs.last_of_active hk₀ (hlater.active hactive)
  obtain rfl := Option.some.inj (hlast.symm.trans hk)
  exact ⟨k', ht.coherent.last_of_active hk' hactive, hlater.id, hlater.device⟩

/-- The device that was taken in is the newest. -/
theorem Settled.done_addSlot (h : Settled s) {device : DeviceRef} {rest : List Control}
    (hm : s.control = .add id device :: rest) (hserving : s.coordinator = .serving) :
    Done (State.addSlot { s with control := rest } id device) (.add id device) := by
  have hcoh := (h.tended.toKept.superseded hm).2
  have work : Worked { State.supersede { s with control := rest } with
        slots := (State.supersede { s with control := rest }).slots ++ [({ id, device } : Slot)] }
      (State.addSlot { s with control := rest } id device) :=
    (Worked.ensureWriter hcoh).trans (.ensureReader hcoh.ensureWriter (.inl rfl))
  have hserving' : (State.addSlot { s with control := rest } id device).coordinator = .serving :=
    (coordinator_addSlot _ id device).trans hserving
  obtain ⟨k, hk, hid, hdevice⟩ := newest_of_after (h.tended.addSlot hm hserving) hserving' hcoh
    work.steady.after List.getLast?_concat
    (work.unclosed _ (.inr ⟨_, List.mem_append_right _ (List.mem_singleton_self _), rfl, rfl⟩))
  exact ⟨k, hk, hid, hdevice⟩

/-! ## Callers that are told -/

theorem mem_controlCallers {ks : List Control} {k : Control} {c : Caller} (hk : k ∈ ks)
    (hc : k.caller? = some c) : c ∈ controlCallers ks :=
  List.mem_filterMap.2 ⟨k, hk, hc⟩

theorem awaits_finish {c : Caller} (hc : c ∈ controlCallers s.control) :
    s.finish.awaits c = false := by
  by_contra hn
  have hw := Answering.dropQueues.awaits c (by simpa [finish_eq] using hn)
  exact (awaits_refuse.1 hw).2 hc

theorem awaits_endTeardown {cause : Teardown} {c : Caller} (hc : cause.caller? = some c) :
    (s.endTeardown cause).awaits c = false := by
  have hanswered : (s.endTeardown (.shutdown c)).awaits c = false := by
    by_contra hn
    exact (awaits_answer.1 (by simpa [endTeardown] using hn)).2 rfl
  cases cause with
  | shutdown c' =>
    obtain rfl := Option.some.inj hc
    exact hanswered
  | close c' =>
    obtain rfl := Option.some.inj hc
    by_contra hn
    rw [Answering.finish.awaits (s := s.endTeardown (.shutdown c')) c' (by simpa [endClose_eq] using hn)]
      at hanswered
    cases hanswered
  | released => cases hc

/-- Whoever has a message on the agenda waits for the coordinator. -/
theorem mem_askers_of_agenda {k : Control} {c : Caller} (hk : k ∈ s.agenda)
    (hc : k.caller? = some c) : c ∈ s.coordinator.caller?.toList ++ controlCallers s.control := by
  rcases List.mem_append.1 hk with hk | hk
  · refine List.mem_append_left _ ?_
    cases hs : s.coordinator with
    | tearingDown cause =>
      rw [hs] at hk
      cases cause <;> simp_all [Coordinator.message?, Teardown.message?, Coordinator.caller?,
        Teardown.caller?, Control.caller?]
    | _ => simp [hs, Coordinator.message?] at hk
  · exact List.mem_append_right _ (mem_controlCallers hk hc)

theorem awaits_crash {k : Control} {c : Caller} (hk : k ∈ s.agenda) (hc : k.caller? = some c) :
    s.crash.awaits c = false := by
  by_contra hn
  have hw := Answering.dropPumps.awaits c (by simpa [crash_eq] using hn)
  exact (awaits_refuse.1 hw).2 (List.mem_append_left _ (mem_askers_of_agenda hk hc))

/-! ## Moves -/

theorem advance_crash (hu : u.agenda = s.agenda) : Advance s m u.crash := by
  obtain ⟨_, _, _, _, _, _, _, he, -⟩ := crash_parts u
  refine .stopped (by rw [he]; rfl) (.inl (coordinator_crash u)) ?_
  intro k hk c hc
  exact awaits_crash (hu ▸ hk) hc

/-- A teardown that ends is done with the message that asked for it. -/
theorem advance_settleTeardown (hu : u.agenda = s.agenda) (ho : u.isOver = s.isOver)
    (hreleased : u.coordinator ≠ .tearingDown .released) : Advance s m u.settleTeardown := by
  rcases settleTeardown_cases u with ⟨he, -⟩ | ⟨cause, hc, hnil, he⟩
  · rw [he]
    exact .same ho hu
  · have hagenda : s.agenda = cause.message?.toList ++ u.control := by
      rw [← hu, agenda, hc]
      rfl
    rw [he]
    cases cause with
    | shutdown c =>
      have hawaits : (u.endTeardown (.shutdown c)).awaits c = false := awaits_endTeardown rfl
      obtain ⟨_, hend⟩ := endShutdown_eq u c
      rw [hend] at hawaits ⊢
      exact .done hagenda rfl rfl ⟨hnil, hawaits⟩
    | close c =>
      obtain ⟨_, hend⟩ := endShutdown_eq u c
      obtain ⟨_, _, _, _, _, _, hfin⟩ := finish_parts (u.endTeardown (.shutdown c))
      refine .stopped ?_ (.inr ⟨coordinator_finish _, c, _, hagenda⟩) ?_
      · rw [endClose_eq, hfin]
        rfl
      · intro k hk d hd
        rw [hagenda] at hk
        rcases List.mem_cons.1 hk with rfl | hk
        · exact awaits_endTeardown hd
        · rw [endClose_eq]
          refine awaits_finish ?_
          rw [hend]
          exact mem_controlCallers hk hd
    | released => exact absurd hc hreleased

theorem Settled.advance_control (h : Settled s) (hlive : s.hasHandle = true)
    (hs : s.takeControl = some t) : Advance s .control t := by
  obtain ⟨hserving, ⟨k, rest, hm, rfl⟩ | ⟨-, hdead, -⟩⟩ := takeControl_cases hs
  · have hagenda : s.agenda = k :: rest := by
      rw [agenda_of_message?_eq_none (by rw [hserving]; rfl), hm]
    have hdone : ∀ u : State, u.coordinator = .serving → u.control = rest → u.Done k →
        Advance s .control u := fun u hc hr hd =>
      .done hagenda (by rw [agenda_of_message?_eq_none (by rw [hc]; rfl), hr]) hc hd
    have hbegun : ∀ cause : Teardown, cause.message? = some k →
        Advance s .control (State.beginTeardown { s with control := rest } cause) := by
      intro cause hk
      obtain ⟨_, _, he⟩ := closeAll_eq { s with control := rest } cause
      rw [beginTeardown_eq]
      refine advance_settleTeardown ?_ ?_ ?_
      · rw [he, hagenda, agenda]
        simp [Coordinator.message?, hk]
      · rw [he, isOver, isOver, hserving]
        rfl
      · rw [he]
        rintro hc
        rw [Coordinator.tearingDown.inj hc] at hk
        cases hk
    cases k with
    | add id device =>
      refine hdone _ ((coordinator_addSlot _ id device).trans hserving) ?_
        (h.done_addSlot hm hserving)
      change (State.addSlot { s with control := rest } id device).control = rest
      have hh : Handled { s with control := rest } (State.addSlot { s with control := rest } id
        device) := .addSlot (h.tended.toKept.takeControl hm).coherent.holdsReads_iff.1 device
      obtain ⟨_, _, _, _, _, _, _, _, he⟩ := hh.eq
      rw [he]
    | mtu c => exact hdone _ (coordinator_query.trans hserving) Worked.query.control trivial
    | name c => exact hdone _ (coordinator_query.trans hserving) Worked.query.control trivial
    | count c => exact hdone _ hserving rfl trivial
    | shutdown c => exact hbegun (.shutdown c) rfl
    | close c => exact hbegun (.close c) rfl
  · rw [hlive] at hdead
    cases hdead

theorem Settled.advance_work (h : Settled s) (hlive : s.hasHandle = true)
    (hreleased : s.coordinator ≠ .tearingDown .released) (hm : m.isWork = true)
    (hs : s.step m = some t) : Advance s m t := by
  have hhandled : ∀ u : State, Handled s u → Advance s m u.settleTeardown := fun u hh => by
    obtain ⟨_, _, _, _, _, _, _, _, he⟩ := hh.eq
    refine advance_settleTeardown hh.agenda ?_ ?_
    · rw [he]
      rfl
    · rwa [he]
  cases m with
  | control => exact h.advance_control hlive hs
  | joinReader =>
    obtain ⟨-, pump, hp, ⟨exit, he, rfl⟩ | ⟨-, rfl⟩⟩ := joinReader_cases hs
    · exact hhandled _ (.onReadExit h.tended.reads hp he)
    · exact advance_crash rfl
  | joinWriter =>
    obtain ⟨-, pump, hp, ⟨exit, he, rfl⟩ | ⟨-, rfl⟩⟩ := joinWriter_cases hs
    · exact hhandled _ (.onWriteExit hp he)
    · exact advance_crash rfl
  | joinCloser id =>
    obtain ⟨-, closer, -, ⟨error, -, rfl⟩ | ⟨-, rfl⟩⟩ := joinCloser_cases hs
    · exact hhandled _ (.onClosed id error)
    · exact advance_crash rfl
  | _ => cases hm

theorem Aside.advance (q : Aside s m t) : Advance s m t := by
  have hagenda : t.agenda = s.coordinator.message?.toList ++ t.control := by
    rw [agenda, q.coordinator]
  rcases q.messages with he | ⟨c, op, k, rfl, hk, he⟩
  · exact .same q.isOver (by rw [hagenda, he]; rfl)
  · exact .sent (.inl ⟨c, op, rfl, hk⟩) q.isOver (by rw [hagenda, he, agenda, List.append_assoc])

/-- While somebody holds the multiplexer, the coordinator works off its agenda in order. -/
theorem advance_of_live {settings : MultiplexerSettings} (h : Run (.init settings) ms s)
    (hlive : s.hasHandle = true) (hs : s.step m = some t) : Advance s m t := by
  rcases step_kinds hs with ⟨hwork, ho⟩ | ⟨device, rfl, rfl⟩ | q
  · refine (settled_of_run h ho).advance_work hlive ?_ hwork hs
    intro hc
    have hdead : s.hasHandle = false := ((grounded_of_run h).1 ho).teardown _ hc
    rw [hlive] at hdead
    cases hdead
  · cases ho : s.isOver with
    | true => exact .same (isOver_add device) (by simp [State.add, ho, agenda])
    | false =>
      refine .sent (.inr ⟨device, rfl, rfl⟩) (isOver_add device) ?_
      rw [add_eq ho]
      simp [agenda]
  · exact q.advance

theorem advance_of_step {settings : MultiplexerSettings} (h : Run (.init settings) ms s)
    (hheld : s.held = true) (hs : s.step m = some t) : Advance s m t :=
  advance_of_live h (by simp [hasHandle, hheld]) hs

end

end State

end SeamlessTunnel.Multiplexer
