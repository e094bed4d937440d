import Mathlib.Data.List.Induction
import SeamlessTunnel.Proofs.Multiplexer.Reads
import SeamlessTunnel.Proofs.Multiplexer.Targets
/-
  SeamlessTunnel.Proofs.Multiplexer.Events — events keep their order over a change of devices.

  A forwarder has at most one event in hand, and is stopped before the next one starts. So
  what the queue has been given is, device by device in the order they came, the beginning of
  what each has reported (`streamed_of_run`), and so is what the listeners have been given
  (`events_of_run`). A device that had a successor before it became the target of writes
  reports nothing.
-/

namespace SeamlessTunnel.Multiplexer

/-- The event that a listener is given. -/
def Answer.event? : Answer → Option Event
  | event e => e
  | _ => none

/-- The events of one device. -/
def eventsOf (id : DeviceId) (reports : List (DeviceId × Event)) : List Event :=
  (reports.filter (·.1 = id)).map (·.2)

namespace State

/-- The event that a device reports with a move. -/
def reportedEvents (s : State) (m : Move) (_ : State) : List (DeviceId × Event) :=
  match m with
  | .eventReturned (.value (some e)) => s.forwarder.toList.map fun f => (f.id, e)
  | _ => []

/-- The event that the first listener is given with a move. -/
def deliveredEvents (s : State) (m : Move) (t : State) : List Event :=
  match m with
  | .takeEvent => ((s.listeners.head?.bind t.answer?).bind (·.event?)).toList
  | _ => []

/-- The devices that were handed in, in their order. -/
def handedIn (s : State) : List DeviceId :=
  (List.range s.added).map fun n => ⟨n + 1⟩

/-- What becomes of the events of a run. -/
structure EventsInOrder (s₀ : State) (ms : List Move) (s : State) : Prop where
  /-- Listeners are given the beginning of what each device reports, one device after the
      other. -/
  prefixes : ∃ part : DeviceId → List Event,
    (∀ id, part id <+: eventsOf id (s₀.log reportedEvents ms)) ∧
    s₀.log deliveredEvents ms = s.handedIn.flatMap part
  /-- A device that had a successor before it became the target of writes reports nothing. -/
  superseded : ∀ ms₁ ms₂ u, ms = ms₁ ++ ms₂ → Run s₀ ms₁ u → ∀ id newer,
    newer ∈ s₀.log acceptedDevices ms₁ → id.number < newer.number →
    id ∉ s₀.log targetedDevices ms₁ → eventsOf id (s₀.log reportedEvents ms) = []

/-- What is known of the events that devices have reported, of those that were passed on to
    the queue and of those that listeners were given. -/
structure Streamed (reported passed : List (DeviceId × Event)) (delivered : List Event)
    (s : State) : Prop where
  queue : passed.map (·.2) = delivered ++ s.events.items
  ordered : passed.Pairwise (·.1.number ≤ ·.1.number)
  leading : ∀ id, eventsOf id passed <+: eventsOf id reported
  /-- What a forwarder has not passed on is in its hand. -/
  inHand : ∀ f, s.forwarder = some f → s.events.isOpen = true →
    eventsOf f.id reported = eventsOf f.id passed ++ s.events.waiting
  single : s.events.waiting.length ≤ 1
  idle : (∀ f, s.forwarder = some f → f.asking = true) → s.events.waiting = []
  shut : s.events.isOpen = false → s.events.waiting = []

section

variable {s t u : State} {m : Move} {id : DeviceId} {ms : List Move}
variable {reported passed : List (DeviceId × Event)} {delivered : List Event}

/-! ## Events by device -/

theorem eventsOf_append (id : DeviceId) (l l' : List (DeviceId × Event)) :
    eventsOf id (l ++ l') = eventsOf id l ++ eventsOf id l' := by
  simp [eventsOf]

@[simp] theorem eventsOf_singleton_self (id : DeviceId) (e : Event) : eventsOf id [(id, e)] = [e] := by
  simp [eventsOf]

theorem eventsOf_eq_nil {l : List (DeviceId × Event)} (h : ∀ r ∈ l, r.1 ≠ id) :
    eventsOf id l = [] := by
  rw [eventsOf, List.filter_eq_nil_iff.2 fun r hr => by simpa using h r hr]
  rfl

/-- In a list that is ordered by device each device has one stretch. -/
theorem map_snd_eq_flatMap {l : List (DeviceId × Event)} {ids : List DeviceId}
    (hl : l.Pairwise (·.1.number ≤ ·.1.number)) (hids : ids.Pairwise (·.number < ·.number))
    (hmem : ∀ r ∈ l, r.1 ∈ ids) : l.map (·.2) = ids.flatMap (eventsOf · l) := by
  induction l using List.reverseRecOn with
  | nil => simp [eventsOf]
  | append_singleton l r ih =>
    obtain ⟨hl, -, hlast⟩ := List.pairwise_append.1 hl
    have ih := ih hl fun r' hr' => hmem r' (List.mem_append_left _ hr')
    obtain ⟨before, after, hsplit⟩ :=
      List.append_of_mem (hmem r (List.mem_append_right _ (List.mem_singleton_self r)))
    rw [hsplit] at ih hids ⊢
    obtain ⟨-, hafter, hbefore⟩ := List.pairwise_append.1 hids
    -- the devices before keep their events, and those after have none
    have hold : ∀ id ∈ before, eventsOf id (l ++ [r]) = eventsOf id l := fun id hid => by
      have hlt := hbefore id hid r.1 (List.mem_cons_self ..)
      rw [eventsOf_append, eventsOf_eq_nil (l := [r]), List.append_nil]
      intro r' hr' he
      rw [List.mem_singleton.1 hr'] at he
      rw [he] at hlt
      exact Nat.lt_irrefl _ hlt
    have hnone : ∀ id ∈ after, eventsOf id (l ++ [r]) = [] ∧ eventsOf id l = [] := fun id hid => by
      have hlt := (List.pairwise_cons.1 hafter).1 id hid
      have hnew : ∀ r' ∈ l ++ [r], r'.1 ≠ id := fun r' hr' he => by
        rcases List.mem_append.1 hr' with hr' | hr'
        · have hle := hlast r' hr' r (List.mem_singleton_self r)
          rw [he] at hle
          omega
        · rw [List.mem_singleton.1 hr'] at he
          rw [he] at hlt
          exact Nat.lt_irrefl _ hlt
      exact ⟨eventsOf_eq_nil hnew, eventsOf_eq_nil fun r' hr' => hnew r' (List.mem_append_left _ hr')⟩
    have hself : eventsOf r.1 (l ++ [r]) = eventsOf r.1 l ++ [r.2] := by
      rw [eventsOf_append]
      simp [eventsOf]
    simp only [List.flatMap_append, List.flatMap_cons] at ih ⊢
    rw [List.flatMap_congr hold, hself, List.flatMap_eq_nil_iff.2 fun id hid => (hnone id hid).1]
    rw [List.flatMap_eq_nil_iff.2 fun id hid => (hnone id hid).2] at ih
    simp [ih]

/-! ## Passing on -/

namespace Streamed

theorem nil {settings : MultiplexerSettings} : Streamed [] [] [] (.init settings) :=
  ⟨rfl, .nil, fun _ => List.prefix_rfl, fun _ hf => (by cases hf), Nat.zero_le _, fun _ => rfl,
    fun _ => rfl⟩

theorem congr (h : Streamed reported passed delivered s) (hf : t.forwarder = s.forwarder)
    (he : t.events = s.events) : Streamed reported passed delivered t := by
  refine ⟨he ▸ h.queue, h.ordered, h.leading, ?_, he ▸ h.single, ?_, he ▸ h.shut⟩
  · rw [hf, he]
    exact h.inHand
  · rw [hf, he]
    exact h.idle

/-- What nobody will listen to any more was not passed on. -/
theorem released (h : Streamed reported passed delivered s) (he : t.events = s.events.shut) :
    Streamed reported (passed.take delivered.length) delivered t := by
  have hclosed : t.events.isOpen = false := by rw [he]; rfl
  have hnone : t.events.waiting = [] := by rw [he]; rfl
  refine ⟨?_, h.ordered.sublist (List.take_sublist _ _), fun id => ?_, fun _ _ ho => ?_, ?_,
    fun _ => hnone, fun _ => hnone⟩
  · rw [List.map_take, h.queue, List.take_left, he]
    simp [Mailbox.shut]
  · exact (((List.take_prefix _ _).filter _).map _).trans (h.leading id)
  · rw [hclosed] at ho
    cases ho
  · rw [hnone]
    exact Nat.zero_le _

/-- The forwarder is gone, and what it had in its hand is lost. -/
theorem dropped (h : Streamed reported passed delivered s) (hf : t.forwarder = none)
    (hi : t.events.items = s.events.items) (hw : t.events.waiting = []) :
    Streamed reported passed delivered t := by
  refine ⟨hi ▸ h.queue, h.ordered, h.leading, fun f hf' => ?_, ?_, fun _ => hw, fun _ => hw⟩
  · cases hf.symm.trans hf'
  · rw [hw]
    exact Nat.zero_le _

theorem stopped (h : Streamed reported passed delivered s) {pump : WritePump} {exit : WriteExit} :
    Streamed reported passed delivered (s.stopWriter pump exit) := by
  have hstopped : (s.stopWriter pump exit).forwarder = none ∧ (s.stopWriter pump exit).events =
      s.events.withdraw fun _ => true := forwarder_stopWriter
  obtain ⟨hf, he⟩ := hstopped
  exact h.dropped hf (by rw [he]; rfl) (by rw [he]; exact Mailbox.waiting_withdraw_all _)

/-- A forwarder starts with nothing in its hand, on a device that has reported nothing. -/
theorem begun (h : Streamed reported passed delivered s) (hs : s.forwarder = none)
    {f : Forwarder} (hf : t.forwarder = some f) (he : t.events = s.events)
    (hnew : ∀ r ∈ reported, r.1 ≠ f.id) : Streamed reported passed delivered t := by
  have hnone : s.events.waiting = [] := h.idle fun f' hf' => by cases hs.symm.trans hf'
  refine ⟨he ▸ h.queue, h.ordered, h.leading, fun f' hf' _ => ?_, he ▸ h.single, fun _ => he ▸ hnone,
    he ▸ h.shut⟩
  obtain rfl := Option.some.inj (hf.symm.trans hf')
  have hreported := eventsOf_eq_nil hnew
  have hpassed := List.prefix_nil.1 (hreported ▸ h.leading f.id)
  rw [hreported, hpassed, he, hnone]
  rfl

/-- More is reported, of which nothing is passed on. -/
theorem lost (h : Streamed reported passed delivered s) (more : List (DeviceId × Event))
    (hf : s.forwarder = none) : Streamed (reported ++ more) passed delivered s := by
  refine ⟨h.queue, h.ordered, fun id => (h.leading id).trans ?_, fun f hf' => ?_, h.single, h.idle,
    h.shut⟩
  · rw [eventsOf_append]
    exact List.prefix_append _ _
  · cases hf.symm.trans hf'

/-- The next event of a device may be passed on. -/
theorem leading_append {f : Forwarder} {e : Event}
    (h : ∀ id, eventsOf id passed <+: eventsOf id reported)
    (hf : eventsOf f.id passed ++ [e] <+: eventsOf f.id reported) :
    ∀ id, eventsOf id (passed ++ [(f.id, e)]) <+: eventsOf id reported := by
  intro id
  rw [eventsOf_append]
  by_cases hid : f.id = id
  · subst hid
    simpa using hf
  · rw [eventsOf_eq_nil (l := [(f.id, e)]) fun r hr => by rwa [List.mem_singleton.1 hr],
      List.append_nil]
    exact h id

theorem ordered_append {f : Forwarder} (e : Event) (h : passed.Pairwise (·.1.number ≤ ·.1.number))
    (hf : ∀ r ∈ passed, r.1.number ≤ f.id.number) :
    (passed ++ [(f.id, e)]).Pairwise (·.1.number ≤ ·.1.number) :=
  List.pairwise_append.2 ⟨h, List.pairwise_singleton _ _, fun r hr r' hr' => by
    rw [List.mem_singleton.1 hr']
    exact hf r hr⟩

/-- A device reports an event, which finds room or stays in the hand of the forwarder. -/
theorem heard (h : Streamed reported passed delivered s) {f : Forwarder}
    (hf : s.forwarder = some f) (ha : f.asking = true) (ho : s.events.isOpen = true)
    (hnewest : ∀ r ∈ passed, r.1.number ≤ f.id.number) (e : Event)
    (ht : t = { s with
      events := s.events.send e
      forwarder := some { f with asking := (s.events.send e).blocked.isEmpty } }) :
    ∃ passed', Streamed (reported ++ [(f.id, e)]) passed' delivered t := by
  have hnone : s.events.waiting = [] := h.idle fun f' hf' => by
    obtain rfl := Option.some.inj (hf.symm.trans hf')
    exact ha
  have hall : eventsOf f.id reported = eventsOf f.id passed := by
    rw [h.inHand f hf ho, hnone, List.append_nil]
  have hreported : eventsOf f.id (reported ++ [(f.id, e)]) = eventsOf f.id passed ++ [e] := by
    rw [eventsOf_append, hall, eventsOf_singleton_self]
  have hleading : ∀ id, eventsOf id passed <+: eventsOf id (reported ++ [(f.id, e)]) := fun id => by
    rw [eventsOf_append]
    exact (h.leading id).trans (List.prefix_append _ _)
  have hopen : t.events.isOpen ≠ false := by
    rw [ht]
    simp [Mailbox.isOpen_send, ho]
  rcases Mailbox.send_cases (a := e) hnone with ⟨hb, hi, hw⟩ | ⟨hb, hi, hw⟩
  · refine ⟨passed ++ [(f.id, e)], ?_, ordered_append e h.ordered hnewest,
      leading_append hleading (hreported ▸ List.prefix_rfl), fun f' hf' _ => ?_, ?_, fun _ => ?_,
      fun hn => absurd hn hopen⟩
    · rw [ht, List.map_append, h.queue]
      simp [hi]
    · rw [ht] at hf' ⊢
      obtain rfl := Option.some.inj hf'
      show eventsOf f.id _ = eventsOf f.id _ ++ _
      rw [hreported, hw, eventsOf_append, eventsOf_singleton_self, List.append_nil]
    · rw [ht]
      simp [hw]
    · rw [ht]
      exact hw
  · refine ⟨passed, ?_, h.ordered, hleading, fun f' hf' _ => ?_, ?_, fun hasking => ?_,
      fun hn => absurd hn hopen⟩
    · rw [ht, h.queue]
      simp [hi]
    · rw [ht] at hf' ⊢
      obtain rfl := Option.some.inj hf'
      show eventsOf f.id _ = eventsOf f.id _ ++ _
      rw [hreported, hw]
    · rw [ht]
      simp [hw]
    · rw [ht] at hasking
      have hnot := hasking _ rfl
      simp [hb] at hnot

/-- The event in the hand of the forwarder finds room. -/
theorem entered (h : Streamed reported passed delivered s) {f : Forwarder}
    (hf : s.forwarder = some f) (ho : s.events.isOpen = true)
    (hnewest : ∀ r ∈ passed, r.1.number ≤ f.id.number) {events : Mailbox Event}
    (he : s.events.enter (fun _ => true) = some events)
    (ht : t = { s with events, forwarder := some { f with asking := true } }) :
    ∃ passed', Streamed reported passed' delivered t := by
  obtain ⟨e, hw, hi⟩ := Mailbox.enter_first he
  have hnone : events.waiting = [] := by
    have hsingle := h.single
    rw [hw] at hsingle
    exact List.eq_nil_of_length_eq_zero (by simpa using hsingle)
  have hreported : eventsOf f.id reported = eventsOf f.id passed ++ [e] := by
    rw [h.inHand f hf ho, hw, hnone]
  refine ⟨passed ++ [(f.id, e)], ?_, ordered_append e h.ordered hnewest,
    leading_append h.leading (hreported ▸ List.prefix_rfl), fun f' hf' _ => ?_, ?_, fun _ => ?_,
    fun _ => ?_⟩
  · rw [ht, List.map_append, h.queue]
    simp [hi]
  · rw [ht] at hf' ⊢
    obtain rfl := Option.some.inj hf'
    show eventsOf f.id _ = eventsOf f.id _ ++ _
    rw [hreported, hnone, eventsOf_append, eventsOf_singleton_self, List.append_nil]
  · rw [ht]
    simp [hnone]
  · rw [ht]
    exact hnone
  · rw [ht]
    exact hnone

/-- A listener is given the event at the head of the queue. -/
theorem taken (h : Streamed reported passed delivered s) {e : Event} {events : Mailbox Event}
    (he : s.events.receive = some (e, events)) (hf : t.forwarder = s.forwarder)
    (ht : t.events = events) : Streamed reported passed (delivered ++ [e]) t := by
  have hw : t.events.waiting = s.events.waiting := by rw [ht, Mailbox.waiting_receive he]
  have ho : t.events.isOpen = s.events.isOpen := by rw [ht, Mailbox.isOpen_receive he]
  refine ⟨?_, h.ordered, h.leading, ?_, hw ▸ h.single, ?_, ?_⟩
  · rw [h.queue, Mailbox.items_receive he, ht]
    simp
  · rw [hf, hw, ho]
    exact h.inHand
  · rw [hf, hw]
    exact h.idle
  · rw [hw, ho]
    exact h.shut

/-- What was passed on had been reported. -/
theorem reported_of_passed (h : Streamed reported passed delivered s) {r : DeviceId × Event}
    (hr : r ∈ passed) : ∃ r' ∈ reported, r'.1 = r.1 := by
  have hmem : r.2 ∈ eventsOf r.1 passed :=
    List.mem_map_of_mem (List.mem_filter.2 ⟨hr, by simp⟩)
  obtain ⟨r', hr', -⟩ := List.mem_map.1 ((h.leading r.1).subset hmem)
  obtain ⟨hmem', he⟩ := List.mem_filter.1 hr'
  exact ⟨r', hmem', by simpa using he⟩

end Streamed

/-! ## Listening -/

/-- Callers come to listen by a call of their own. -/
theorem listeners_of_step (hset : s.isOver = false → Settled s) (hs : s.step m = some t)
    {c : Caller} (hc : c ∈ t.listeners) :
    c ∈ s.listeners ∧ m ≠ .cancel c ∨ m = .call c .nextEvent := by
  by_cases he : m.isEventful = true
  · cases m with
    | pollWriter =>
      obtain ⟨_, _, _, _, _, rfl⟩ := pollWriter_eq hs
      exact .inl ⟨hc, nofun⟩
    | pollForwarder =>
      obtain ⟨_, _, rfl⟩ := pollForwarder_eq hs
      exact .inl ⟨hc, nofun⟩
    | eventReturned out =>
      obtain ⟨_, _, rfl⟩ := eventReturned_eq hs
      exact .inl ⟨hc, nofun⟩
    | takeEvent =>
      obtain ⟨_, rest, _, _, hl, rfl⟩ := takeEvent_eq hs
      exact .inl ⟨hl ▸ List.mem_cons_of_mem _ hc, nofun⟩
    | _ => cases he
  · exact (unheard_of_step hset hs (by simpa using he)).listeners c hc

/-- A caller that listens waits for its answer. -/
theorem listening_of_run {settings : MultiplexerSettings} (h : Run (.init settings) ms s) :
    ∀ c ∈ s.listeners, s.awaits c = true := by
  have hgone : ∀ c ∈ s.listeners, c ∉ s.gone := by
    refine h.snocRec (p := fun _ s => ∀ c ∈ s.listeners, c ∉ s.gone) (fun _ hc => by cases hc) ?_
    intro ms s m t hrun ih hm c hc hg
    have hset := settled_of_run hrun
    have hold : c ∉ s.gone := by
      rcases listeners_of_step hset hm hc with ⟨hc, -⟩ | rfl
      · exact ih c hc
      · have hcall : s.call c .nextEvent = some t := hm
        exact (call_cases hcall).1.2.2
    rcases gone_of_step hset hm with he | ⟨d, rfl, he⟩
    · exact hold (he ▸ hg)
    · rw [he] at hg
      rcases List.mem_append.1 hg with hg | hg
      · exact hold hg
      · obtain rfl := List.mem_singleton.1 hg
        rcases listeners_of_step hset hm hc with ⟨-, hne⟩ | he
        · exact hne rfl
        · cases he
  intro c hc
  exact ((accounted_of_run h).placed c (List.mem_append_right _ hc)).resolve_right (hgone c hc)

theorem reportedEvents_eq_nil (hm : ∀ e, m ≠ .eventReturned (.value (some e))) :
    reportedEvents s m t = [] := by
  unfold reportedEvents
  split
  · exact absurd rfl (hm _)
  · rfl

theorem deliveredEvents_eq_nil (hm : m ≠ .takeEvent) : deliveredEvents s m t = [] := by
  cases m with
  | takeEvent => exact absurd rfl hm
  | _ => rfl

/-- What a listener is given with a move. -/
theorem deliveredEvents_takeEvent (h : Accounted s) (hl : ∀ c ∈ s.listeners, s.awaits c = true)
    (hs : s.takeEvent = some t) :
    (∃ e events, s.events.receive = some (e, events) ∧ t.events = events ∧
      t.forwarder = s.forwarder ∧ deliveredEvents s .takeEvent t = [e]) ∨
    t.events = s.events ∧ t.forwarder = s.forwarder ∧ deliveredEvents s .takeEvent t = [] := by
  obtain ⟨c, rest, hlist, hcases⟩ := takeEvent_cases hs
  have hawaits := hl c (hlist ▸ List.mem_cons_self ..)
  rcases hcases with ⟨e, events, hr, rfl⟩ | ⟨-, -, -, rfl⟩
  · refine .inl ⟨e, events, hr, rfl, rfl, ?_⟩
    have htold := answer?_answer_self (s := { s with events, listeners := rest })
      (a := .event (some e)) h.callers hawaits
    rw [deliveredEvents, hlist, List.head?_cons, Option.bind_some, htold]
    rfl
  · refine .inr ⟨rfl, rfl, ?_⟩
    have htold := answer?_answer_self (s := { s with listeners := rest })
      (a := .event none) h.callers hawaits
    rw [deliveredEvents, hlist, List.head?_cons, Option.bind_some, htold]
    rfl

/-! ## Over a run -/

/-- Devices report while their forwarders run, which are those of targets. -/
structure Heard (reported : List (DeviceId × Event)) (targets : List DeviceId) (s : State) :
    Prop where
  targeted : ∀ r ∈ reported, r.1 ∈ targets
  unbegun : ∀ pump, s.writer = some pump → pump.stage = .starting → ∀ r ∈ reported, r.1 ≠ pump.id

theorem mem_reportedEvents {r : DeviceId × Event} (hr : r ∈ reportedEvents s m t) :
    ∃ f, s.forwarder = some f ∧ r.1 = f.id := by
  unfold reportedEvents at hr
  split at hr
  · obtain ⟨f, hf, rfl⟩ := List.mem_map.1 hr
    exact ⟨f, Option.mem_toList.1 hf, rfl⟩
  · cases hr

theorem heard_of_run {settings : MultiplexerSettings} (h : Run (.init settings) ms s) :
    Heard ((State.init settings).log reportedEvents ms) ((State.init settings).log targetedDevices ms)
      s := by
  refine h.snocRec (p := fun ms s => Heard ((State.init settings).log reportedEvents ms)
    ((State.init settings).log targetedDevices ms) s)
    ⟨fun _ hr => (by cases hr), fun _ _ _ _ hr => (by cases hr)⟩ ?_
  intro ms s m t hrun ih hm
  have htargets := targets_of_run hrun
  have htaken := taken_of_run hrun
  have hset := settled_of_run hrun
  have hnew : ∀ r ∈ reportedEvents s m t, r.1 ∈ (State.init settings).log targetedDevices ms :=
    fun r hr => by
      obtain ⟨f, hf, he⟩ := mem_reportedEvents hr
      rw [he]
      exact List.mem_of_getLast? (htargets.forwarder f hf)
  rw [hrun.log_snoc hm, hrun.log_snoc hm]
  refine ⟨?_, ?_⟩
  · intro r hr
    exact List.mem_append_left _ ((List.mem_append.1 hr).elim (ih.targeted r) (hnew r))
  · intro pump hp hstage r hr
    rcases starting_of_step hset hm hp hstage with hp | ⟨ho, hmay⟩
    · rcases List.mem_append.1 hr with hr | hr
      · exact ih.unbegun pump hp hstage r hr
      · obtain ⟨f, hf, -⟩ := mem_reportedEvents hr
        rcases htargets.follows (by simp [hf]) with ⟨-, hn⟩ | ⟨pump', hp', hbegun, -⟩
        · cases hn.symm.trans hp
        · obtain rfl := Option.some.inj (hp.symm.trans hp')
          exact absurd hstage hbegun
    · have hmem := (List.mem_append.1 hr).elim (ih.targeted r) (hnew r)
      have hlt := htargets.lt_of_mayBeWritten htaken (accepted_of_targeted hrun) ho hmay r.1 hmem
      exact fun he => Nat.lt_irrefl _ (he ▸ hlt)

/-- What has been passed on came from no device newer than that of the forwarder. -/
theorem Streamed.newest {targets : List DeviceId} (h : Streamed reported passed delivered s)
    (hr : Heard reported targets s) (ht : Targets targets s) {f : Forwarder}
    (hf : s.forwarder = some f) : ∀ r ∈ passed, r.1.number ≤ f.id.number := by
  intro r hmem
  obtain ⟨r', hr', he⟩ := h.reported_of_passed hmem
  obtain ⟨init, hlast⟩ := List.getLast?_eq_some_iff.1 (ht.forwarder f hf)
  have htarget := hr.targeted r' hr'
  have hasc := ht.ascending
  rw [← he]
  rw [hlast] at htarget hasc
  rcases List.mem_append.1 htarget with hi | hi
  · exact Nat.le_of_lt ((List.pairwise_append.1 hasc).2.2 _ hi _ (List.mem_singleton_self _))
  · exact Nat.le_of_eq (congrArg _ (List.mem_singleton.1 hi))

/-- A write pump starts its forwarder, or stops it. -/
theorem Streamed.pollWriter {targets : List DeviceId} (h : Streamed reported passed delivered s)
    (hheard : Heard reported targets s) (ht : Targets targets s) (hs : s.pollWriter = some t) :
    Streamed reported passed delivered t := by
  obtain ⟨pump, hp, ⟨-, -, rfl⟩ | ⟨hstage, rfl⟩ | ⟨_, _, -, -, -, rfl⟩ | ⟨-, -, -, rfl⟩⟩ :=
    pollWriter_cases hs
  · exact h.stopped
  · have hnone : s.forwarder = none := by
      by_contra hf
      rcases ht.follows hf with ⟨-, hn⟩ | ⟨pump', hp', hbegun, -⟩
      · cases hn.symm.trans hp
      · obtain rfl := Option.some.inj (hp.symm.trans hp')
        exact hbegun hstage
    exact h.begun hnone rfl rfl (hheard.unbegun pump hp hstage)
  · exact h.congr rfl rfl
  · exact h.stopped

theorem Streamed.pollForwarder {targets : List DeviceId}
    (h : Streamed reported passed delivered s) (hheard : Heard reported targets s)
    (ht : Targets targets s) (hs : s.pollForwarder = some t) :
    ∃ passed', Streamed reported passed' delivered t := by
  obtain ⟨f, hf, -, ⟨ho, rfl⟩ | ⟨events, ho, hin, rfl⟩⟩ := pollForwarder_cases hs
  · exact ⟨passed, h.dropped rfl rfl (h.shut ho)⟩
  · exact h.entered hf ho (h.newest hheard ht hf) hin rfl

/-- A device reports an event, or the forwarder ends. -/
theorem Streamed.eventReturned {targets : List DeviceId} (h : Streamed reported passed delivered s)
    (hheard : Heard reported targets s) (ht : Targets targets s) {out : Outcome (Option Event)}
    (hs : s.eventReturned out = some t) : ∃ passed',
      Streamed (reported ++ reportedEvents s (.eventReturned out) t) passed' delivered t := by
  obtain ⟨f, hf, ha, ⟨e, rfl, ho, rfl⟩ | ⟨-, rfl⟩⟩ := eventReturned_cases hs
  · have hr : ∀ t, reportedEvents s (.eventReturned (.value (some e))) t = [(f.id, e)] := fun t => by
      rw [reportedEvents, hf]
      rfl
    rw [hr]
    exact h.heard hf ha ho (h.newest hheard ht hf) e rfl
  · have hnone : s.events.waiting = [] := h.idle fun f' hf' => by
      obtain rfl := Option.some.inj (hf.symm.trans hf')
      exact ha
    exact ⟨passed, (h.dropped (t := { s with forwarder := none }) rfl rfl hnone).lost _ rfl⟩

theorem Streamed.silent (h : Streamed reported passed delivered t)
    (hr : reportedEvents s m t = []) (hd : deliveredEvents s m t = []) :
    Streamed (reported ++ reportedEvents s m t) passed (delivered ++ deliveredEvents s m t) t := by
  rw [hr, hd, List.append_nil, List.append_nil]
  exact h

theorem Streamed.step {targets : List DeviceId} (h : Streamed reported passed delivered s)
    (hheard : Heard reported targets s) (ht : Targets targets s) (hacc : Accounted s)
    (hset : s.isOver = false → Settled s) (hlisten : ∀ c ∈ s.listeners, s.awaits c = true)
    (hs : s.step m = some t) : ∃ passed', Streamed (reported ++ reportedEvents s m t) passed'
      (delivered ++ deliveredEvents s m t) t := by
  by_cases he : m.isEventful = true
  · cases m with
    | pollWriter => exact ⟨passed, (h.pollWriter hheard ht hs).silent rfl rfl⟩
    | pollForwarder =>
      obtain ⟨passed', h'⟩ := h.pollForwarder hheard ht hs
      exact ⟨passed', h'.silent rfl rfl⟩
    | eventReturned out =>
      obtain ⟨passed', h'⟩ := h.eventReturned hheard ht hs
      exact ⟨passed', (List.append_nil delivered).symm ▸ h'⟩
    | takeEvent =>
      rw [show reportedEvents s .takeEvent t = [] from rfl, List.append_nil]
      rcases deliveredEvents_takeEvent hacc hlisten hs with
        ⟨e, events, hr, hev, hf, hd⟩ | ⟨hev, hf, hd⟩
      · rw [hd]
        exact ⟨passed, h.taken hr hf hev⟩
      · rw [hd, List.append_nil]
        exact ⟨passed, h.congr hf hev⟩
    | _ => cases he
  · have q := unheard_of_step hset hs (by simpa using he)
    have hr : reportedEvents s m t = [] := reportedEvents_eq_nil fun e hm => he (hm ▸ rfl)
    have hd : deliveredEvents s m t = [] := deliveredEvents_eq_nil fun hm => he (hm ▸ rfl)
    rcases q.events with hev | ⟨hev, -⟩
    · exact ⟨passed, (h.congr q.forwarder hev).silent hr hd⟩
    · exact ⟨_, (h.released hev).silent hr hd⟩

/-- Over any run the queue is given what the devices report in the order they came. -/
theorem streamed_of_run {settings : MultiplexerSettings} (h : Run (.init settings) ms s) :
    ∃ passed, Streamed ((State.init settings).log reportedEvents ms) passed
      ((State.init settings).log deliveredEvents ms) s := by
  refine h.snocRec (p := fun ms s => ∃ passed, Streamed
    ((State.init settings).log reportedEvents ms) passed
      ((State.init settings).log deliveredEvents ms) s) ⟨[], .nil⟩ ?_
  intro ms s m t hrun ih hm
  obtain ⟨passed, ih⟩ := ih
  rw [hrun.log_snoc hm, hrun.log_snoc hm]
  exact ih.step (heard_of_run hrun) (targets_of_run hrun) (accounted_of_run hrun)
    (settled_of_run hrun) (listening_of_run hrun) hm

/-! ## In all -/

theorem pairwise_handedIn (s : State) : s.handedIn.Pairwise (·.number < ·.number) := by
  rw [handedIn, List.pairwise_map]
  exact List.pairwise_lt_range.imp fun hlt => Nat.succ_lt_succ hlt

theorem mem_handedIn (hpos : 0 < id.number) (hle : id.number ≤ s.added) : id ∈ s.handedIn := by
  refine List.mem_map.2 ⟨id.number - 1, List.mem_range.2 (by omega), ?_⟩
  exact congrArg DeviceId.mk (Nat.sub_add_cancel hpos)

/-- Over any run events keep their order, also where one device follows another. -/
theorem events_of_run {settings : MultiplexerSettings} (h : Run (.init settings) ms s) :
    EventsInOrder (.init settings) ms s where
  prefixes := by
    obtain ⟨passed, hstream⟩ := streamed_of_run h
    have htaken := taken_of_run h
    -- what is still in the queue comes after all that listeners were given
    refine ⟨fun id => eventsOf id
      (passed.take ((State.init settings).log deliveredEvents ms).length), fun id => ?_, ?_⟩
    · exact (((List.take_prefix _ _).filter _).map _).trans (hstream.leading id)
    · rw [← map_snd_eq_flatMap (hstream.ordered.sublist (List.take_sublist _ _))
        (pairwise_handedIn s) fun r hr => ?_, List.map_take, hstream.queue, List.take_left]
      obtain ⟨r', hr', he⟩ := hstream.reported_of_passed ((List.take_sublist _ _).subset hr)
      have haccepted := accepted_of_targeted h ((heard_of_run h).targeted r' hr')
      rw [← he]
      exact mem_handedIn (htaken.positive _ haccepted) (htaken.passed _ haccepted).added
  superseded := by
    rintro ms₁ ms₂ u rfl hu id newer hnew hlt hid
    obtain ⟨u', hu', hrest⟩ := h.append_inv
    obtain rfl := hu.unique hu'
    have hnever := not_targeted_of_superseded hu hrest hnew hlt hid
    refine eventsOf_eq_nil fun r hr he => hnever ?_
    exact he ▸ (heard_of_run h).targeted r hr

/-- Three devices come. The queue has one place, so the second event of the first device is
    still in the hand of its forwarder when that is stopped. The second device has a successor
    before its turn. -/
def streaming : List Move :=
  [.add 0, .control, .pollWriter, .eventReturned (.value (some .up)),
    .eventReturned (.value (some .down)), .add 1, .control, .add 2, .control, .pollWriter,
    .joinWriter, .pollWriter, .eventReturned (.value (some (.mtu 1280))), .call 7 .nextEvent,
    .takeEvent, .pollForwarder, .call 8 .nextEvent, .takeEvent]

def streamed : State where
  defaultMtu := 1280
  slots := [
    { id := ⟨1⟩, device := 0, phase := .draining, reading := .running, writing := .done,
      closing := true },
    { id := ⟨2⟩, device := 1, phase := .draining, closing := true },
    { id := ⟨3⟩, device := 2, writing := .running }]
  reads := { capacity := 1 }
  writes := { capacity := 1 }
  events := { capacity := 1 }
  holdsReads := false
  holdsWrites := false
  reader := some ⟨⟨1⟩, 0, .ready none⟩
  writer := some ⟨⟨3⟩, 2, .ready⟩
  forwarder := some { id := ⟨3⟩, device := 2 }
  closers := [{ id := ⟨2⟩, device := 1 }, { id := ⟨1⟩, device := 0 }]
  added := 3
  calls := [⟨7, some (.event (some .up))⟩, ⟨8, some (.event (some (.mtu 1280)))⟩]

theorem events_streamed : Run (.init { queueDepth := 1 }) streaming streamed ∧
    (State.init { queueDepth := 1 }).log reportedEvents streaming =
      [(⟨1⟩, .up), (⟨1⟩, .down), (⟨3⟩, .mtu 1280)] ∧
    (State.init { queueDepth := 1 }).log deliveredEvents streaming = [.up, .mtu 1280] ∧
    EventsInOrder (.init { queueDepth := 1 }) streaming streamed := by
  have hrun : Run (.init { queueDepth := 1 }) streaming streamed := .of_foldlM rfl
  exact ⟨hrun, rfl, rfl, events_of_run hrun⟩

end

end State

end SeamlessTunnel.Multiplexer
