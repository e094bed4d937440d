import SeamlessTunnel.Proofs.Multiplexer.Events
import SeamlessTunnel.Proofs.Multiplexer.Finality
/-
  SeamlessTunnel.Proofs.Multiplexer.Leftover — events that are left when the multiplexer is
  closed.

  With the last device its forwarder ends, so once a close has its answer nothing is reported
  any more. But the queue outlives the coordinator: what it holds by then is still given to
  those who listen, one event after the other, and only then the stream ends
  (`leftover_of_run`, `event_after_close`).
-/

namespace SeamlessTunnel.Multiplexer

namespace State

/-- What listeners are given from a state on. -/
structure Drains (s : State) (ms : List Move) (t : State) : Prop where
  /-- Devices report nothing any more. -/
  silent : s.log reportedEvents ms = []
  /-- Listeners are given what the queue holds, in its order. -/
  given : s.log deliveredEvents ms <+: s.events.items
  /-- The next listener is given the next of these events, and learns that there will be none
      once they are used up. -/
  next : ∀ c rest, t.listeners = c :: rest → ∃ u, t.step .takeEvent = some u ∧
    u.answer? c = some (.event (s.events.items.drop (s.log deliveredEvents ms).length).head?)

/-- What is known of a queue into which no more events come. -/
structure Draining (items : List Event) (delivered : List Event) (t : State) : Prop where
  finished : t.isOver = true
  forwarder : t.forwarder = none
  given : delivered <+: items
  kept : t.hasHandle = true → delivered ++ t.events.items = items

section

variable {s t u : State} {m : Move} {ms ns : List Move} {items delivered : List Event}
variable {settings : MultiplexerSettings}

theorem live_of_listening (hlisten : ∀ c ∈ s.listeners, s.awaits c = true) {c : Caller}
    {rest : List Caller} (hl : s.listeners = c :: rest) : s.hasHandle = true := by
  have hw := hlisten c (hl ▸ List.mem_cons_self ..)
  have hcallers := List.ne_nil_of_mem (mem_callers_of_awaits hw)
  simp [hasHandle_eq, hcallers]

/-- Where nobody puts anything in, the queue only gives away what it holds. -/
theorem Draining.step (h : Draining items delivered s) (hacc : Accounted s)
    (hset : s.isOver = false → Settled s) (hlisten : ∀ c ∈ s.listeners, s.awaits c = true)
    (hs : s.step m = some t) : Draining items (delivered ++ deliveredEvents s m t) t := by
  have hover := isOver_of_step hs h.finished
  have hforwarder := forwarder_of_over hset h.finished h.forwarder hs
  have hlive : t.hasHandle = true → s.hasHandle = true := by
    rcases step_kinds hs with ⟨-, hopen⟩ | ⟨device, -, rfl⟩ | q
    · rw [h.finished] at hopen
      cases hopen
    · obtain ⟨_, he⟩ := add_parts s device
      rw [he]
      exact id
    · exact q.live
  have hsame : m ≠ .takeEvent → (t.hasHandle = true → t.events.items = s.events.items) →
      Draining items (delivered ++ deliveredEvents s m t) t := fun hm hitems => by
    rw [deliveredEvents_eq_nil hm, List.append_nil]
    exact ⟨hover, hforwarder, h.given, fun hh => hitems hh ▸ h.kept (hlive hh)⟩
  by_cases hm : m.isEventful = true
  · cases m with
    | pollWriter =>
      refine hsame nofun fun _ => ?_
      obtain ⟨pump, -, ⟨-, -, rfl⟩ | ⟨-, rfl⟩ | ⟨_, _, -, -, -, rfl⟩ | ⟨-, -, -, rfl⟩⟩ :=
        pollWriter_cases hs
      · rw [forwarder_stopWriter.2]
        rfl
      · rfl
      · rfl
      · rw [forwarder_stopWriter.2]
        rfl
    | pollForwarder =>
      obtain ⟨f, hf, -⟩ := pollForwarder_cases hs
      cases h.forwarder.symm.trans hf
    | eventReturned out =>
      obtain ⟨f, hf, -⟩ := eventReturned_cases hs
      cases h.forwarder.symm.trans hf
    | takeEvent =>
      obtain ⟨c, rest, hl, -⟩ := takeEvent_cases hs
      have hkept := h.kept (live_of_listening hlisten hl)
      rcases deliveredEvents_takeEvent hacc hlisten hs with ⟨e, events, hr, hev, -, hd⟩ | ⟨hev, -, hd⟩
      · rw [Mailbox.items_receive hr] at hkept
        have hafter : delivered ++ [e] ++ t.events.items = items := by rw [← hkept, hev]; simp
        rw [hd]
        exact ⟨hover, hforwarder, ⟨_, hafter⟩, fun _ => hafter⟩
      · rw [hd, List.append_nil]
        exact ⟨hover, hforwarder, h.given, fun _ => hev ▸ hkept⟩
    | _ => cases hm
  · refine hsame (fun he => hm (he ▸ rfl)) fun hh => ?_
    rcases (unheard_of_step hset hs (by simpa using hm)).events with he | ⟨-, hdead⟩
    · rw [he]
    · rw [hh] at hdead
      cases hdead

theorem reportedEvents_of_none (hf : s.forwarder = none) : reportedEvents s m t = [] := by
  unfold reportedEvents
  rw [hf]
  split <;> rfl

/-- From a state without a forwarder on, a coordinator that is over only lets the queue run
    empty. -/
theorem draining_of_moves (h : Run (.init settings) ms s) (ho : s.isOver = true)
    (hf : s.forwarder = none) (k : Run s ns t) : s.log reportedEvents ns = [] ∧
      Draining s.events.items (s.log deliveredEvents ns) t := by
  refine k.snocRec (p := fun ns t => s.log reportedEvents ns = [] ∧
    Draining s.events.items (s.log deliveredEvents ns) t)
    ⟨rfl, ho, hf, List.nil_prefix, fun _ => rfl⟩ ?_
  intro ns t m u k ih hm
  have hrun := h.append k
  rw [k.log_snoc hm, k.log_snoc hm, ih.1, reportedEvents_of_none ih.2.forwarder]
  exact ⟨rfl, ih.2.step (accounted_of_run hrun) (settled_of_run hrun) (listening_of_run hrun) hm⟩

/-- A listener is given the event at the head of the queue, or learns that there is none. -/
theorem takeEvent_of_over (hacc : Accounted s) (hlisten : ∀ c ∈ s.listeners, s.awaits c = true)
    (ho : s.isOver = true) (hf : s.forwarder = none) {c : Caller} {rest : List Caller}
    (hl : s.listeners = c :: rest) : ∃ t, s.step .takeEvent = some t ∧
      t.answer? c = some (.event s.events.items.head?) := by
  have hw := hlisten c (hl ▸ List.mem_cons_self ..)
  change ∃ t, s.takeEvent = some t ∧ _
  unfold takeEvent Mailbox.receive
  rw [hl]
  cases hi : s.events.items with
  | nil =>
    refine ⟨{ s with listeners := rest }.answer c (.event none), by simp [ho, hf], ?_⟩
    exact answer?_answer_self (s := { s with listeners := rest }) hacc.callers hw
  | cons e items =>
    refine ⟨_, rfl, ?_⟩
    exact answer?_answer_self (s := { s with listeners := rest, events := _ }) hacc.callers hw

/-- Once a close has its answer and no device has crashed, no event comes any more. Those who
    listen are given what was left in the queue, and then learn that there will be none. -/
theorem leftover_of_run (h : Run (.init settings) ms s) (hc : CloseReturned (.init settings) ms) :
    (s.forwarder = none ∨ Crashed ms) ∧
      (s.forwarder = none → ∀ ns t, Run s ns t → Drains s ns t) := by
  obtain ⟨ho, hwhy⟩ := closed_of_returned h hc
  refine ⟨hwhy.imp_left fun hclosed => (shut_of_run h (hclosed.ended h)).forwarder, ?_⟩
  intro hf ns t k
  obtain ⟨hsilent, hdraining⟩ := draining_of_moves h ho hf k
  refine ⟨hsilent, hdraining.given, fun c rest hl => ?_⟩
  have hrun := h.append k
  have hlisten := listening_of_run hrun
  have hkept := hdraining.kept (live_of_listening hlisten hl)
  have hleft : s.events.items.drop (s.log deliveredEvents ns).length = t.events.items := by
    rw [← hkept, List.drop_left]
  rw [hleft]
  exact takeEvent_of_over (accounted_of_run hrun) hlisten hdraining.finished hdraining.forwarder hl

/-- A device reports an event, and the multiplexer is closed. -/
def parting : List Move :=
  [.add 0, .control, .pollWriter, .eventReturned (.value (some .up)), .call 1 .close, .control,
    .pollWriter, .joinWriter, .closeReturned ⟨1⟩ (.value ()), .joinCloser ⟨1⟩, .pollReader,
    .joinReader]

def parted : State where
  defaultMtu := 1280
  reads := { capacity := 64, isOpen := false }
  writes := { capacity := 64, isOpen := false }
  events := { capacity := 64, items := [.up] }
  holdsReads := false
  holdsWrites := false
  coordinator := .ended
  added := 1
  calls := [⟨1, some .done⟩]

theorem leftover_parted : Run (.init {}) parting parted ∧ CloseReturned (.init {}) parting ∧
    (parted.forwarder = none ∨ Crashed parting) ∧
    (parted.forwarder = none → ∀ ns t, Run parted ns t → Drains parted ns t) := by
  have hrun : Run (.init {}) parting parted := .of_foldlM rfl
  have hreturned : CloseReturned (.init {}) parting :=
    ⟨parting.take 4, parting.drop 5, [], 1, parted, rfl, hrun, by simp [parting], rfl⟩
  exact ⟨hrun, hreturned, leftover_of_run hrun hreturned⟩

/-- One who asks for an event after a close has had its answer is given one. -/
theorem event_after_close : Run (.init {}) parting parted ∧ CloseReturned (.init {}) parting ∧
    ∃ t, Run parted [.call 2 .nextEvent, .takeEvent] t ∧ t.answer? 2 = some (.event (some .up)) := by
  have hrun : Run (.init {}) parting parted := .of_foldlM rfl
  exact ⟨hrun, ⟨parting.take 4, parting.drop 5, [], 1, parted, rfl, hrun, by simp [parting], rfl⟩,
    _, .of_foldlM rfl, rfl⟩

end

end State

end SeamlessTunnel.Multiplexer
