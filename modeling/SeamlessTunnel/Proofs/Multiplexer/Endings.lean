import SeamlessTunnel.Proofs.Multiplexer.Requests
import SeamlessTunnel.Proofs.Multiplexer.Work
/-
  SeamlessTunnel.Proofs.Multiplexer.Endings — why the coordinator stops for good.

  Each move of the coordinator leaves it at what it did, begins a teardown that was asked
  for, ends one, or fails with a task that has crashed (`turn_of_work`). So it stops only
  when somebody has closed the multiplexer, nobody holds it any more, or a device has
  crashed (`ending_of_run`).
-/

namespace SeamlessTunnel.Multiplexer

/-- Whether a device crashes the task that waits for it. -/
def Move.isCrash : Move → Bool
  | .readReturned .crash | .writeReturned .crash | .closeReturned _ .crash => true
  | _ => false

/-- Where a teardown leads. -/
def Teardown.outcome : Teardown → Coordinator
  | .shutdown _ => .serving
  | .close _ | .released => .ended

namespace State

/-- Whether a teardown is asked for. -/
def Asks (s : State) : Teardown → Prop
  | .shutdown c => .shutdown c ∈ s.control
  | .close c => .close c ∈ s.control
  | .released => s.hasHandle = false

/-- Whether a task has crashed that the coordinator waits for. -/
def Crashing (s : State) : Prop :=
  (∃ pump, s.reader = some pump ∧ pump.stage = .crashed) ∨
  (∃ pump, s.writer = some pump ∧ pump.stage = .crashed) ∨
  ∃ k ∈ s.closers, k.result = some .crash

/-- What the coordinator may turn to. -/
inductive Turn (s : State) : Coordinator → Prop
  | same : Turn s s.coordinator
  | begun {cause : Teardown} (ha : s.Asks cause) : Turn s (.tearingDown cause)
  | done {cause : Teardown} (hc : s.coordinator = .tearingDown cause ∨ s.Asks cause) :
      Turn s cause.outcome
  | crashed (hc : s.Crashing) : Turn s .crashed

/-- Why a coordinator has stopped for good. -/
inductive Ending (ms : List Move) (s : State) : Prop
  | closed {c : Caller} (hm : .call c .close ∈ ms)
  | released (hl : s.hasHandle = false)
  | crashed {m : Move} (hm : m ∈ ms) (hc : m.isCrash = true)

/-- Whether a teardown has its cause in the past of a state. -/
def Warranted (ms : List Move) (s : State) : Teardown → Prop
  | .shutdown _ => True
  | .close c => .call c .close ∈ ms
  | .released => s.hasHandle = false

/-- What is asked for and what has crashed has its cause in the past. -/
structure Grounded (ms : List Move) (s : State) : Prop where
  crashing : s.Crashing → ∃ m ∈ ms, m.isCrash = true
  control : ∀ c, .close c ∈ s.control → .call c .close ∈ ms
  teardown : ∀ cause, s.coordinator = .tearingDown cause → Warranted ms s cause

section

variable {s t : State} {m : Move} {ms : List Move}

/-! ## The turns of the coordinator -/

theorem coordinator_endTeardown (cause : Teardown) :
    (s.endTeardown cause).coordinator = cause.outcome := by
  cases cause with
  | shutdown c => rfl
  | close c => exact coordinator_finish _
  | released => exact coordinator_finish _

theorem coordinator_closeAll (cause : Teardown) :
    (s.closeAll cause).coordinator = .tearingDown cause := by
  obtain ⟨_, _, he⟩ := closeAll_eq s cause
  rw [he]

theorem coordinator_query {c : Caller} {question : Question} {default : Answer} :
    (s.query c question default).coordinator = s.coordinator := by
  unfold query
  split <;> rfl

/-- What a coordinator that is over has come to does not change. -/
theorem coordinator_of_over (ho : s.isOver = true) (hs : s.step m = some t) :
    t.coordinator = s.coordinator := by
  rcases step_kinds hs with ⟨-, hn⟩ | ⟨device, -, rfl⟩ | q
  · rw [hn] at ho
    cases ho
  · obtain ⟨_, he⟩ := add_parts s device
    rw [he]
  · exact q.coordinator

/-- The end of a teardown is no crash. -/
theorem coordinator_settleTeardown_ne (ho : s.isOver = false) :
    s.settleTeardown.coordinator ≠ .crashed := by
  intro hcrash
  rcases settleTeardown_cases s with ⟨he, -⟩ | ⟨cause, -, -, he⟩
  · rw [he] at hcrash
    simp [isOver, hcrash] at ho
  · rw [he, coordinator_endTeardown] at hcrash
    cases cause <;> cases hcrash

theorem turn_settleTeardown {u : State} (h : u.coordinator = s.coordinator ∨
    ∃ cause, u.coordinator = .tearingDown cause ∧ s.Asks cause) :
    Turn s u.settleTeardown.coordinator := by
  rcases settleTeardown_cases u with ⟨he, -⟩ | ⟨cause, hc, -, he⟩
  · rw [he]
    rcases h with h | ⟨cause, h, ha⟩
    · exact h ▸ .same
    · exact h ▸ .begun ha
  · rw [he, coordinator_endTeardown]
    rcases h with h | ⟨cause', h, ha⟩
    · exact .done (.inl (h.symm.trans hc))
    · obtain rfl := Coordinator.tearingDown.inj (h.symm.trans hc)
      exact .done (.inr ha)

theorem turn_of_handled {u : State} (hh : Handled s u) : Turn s u.settleTeardown.coordinator := by
  obtain ⟨_, _, _, _, _, _, _, _, he⟩ := hh.eq
  exact turn_settleTeardown (.inl (by rw [he]))

theorem turn_takeControl (hs : s.takeControl = some t) : Turn s t.coordinator := by
  obtain ⟨-, ⟨k, rest, hk, rfl⟩ | ⟨-, hl, rfl⟩⟩ := takeControl_cases hs
  · have hmem : k ∈ s.control := by simp [hk]
    have hsame : ∀ u : State, u.coordinator = s.coordinator → Turn s u.coordinator :=
      fun u he => he ▸ .same
    cases k with
    | add id device => exact hsame _ (coordinator_addSlot _ _ _)
    | mtu c => exact hsame _ coordinator_query
    | name c => exact hsame _ coordinator_query
    | count c => exact hsame _ rfl
    | shutdown c =>
      exact turn_settleTeardown (.inr ⟨.shutdown c, coordinator_closeAll _, hmem⟩)
    | close c => exact turn_settleTeardown (.inr ⟨.close c, coordinator_closeAll _, hmem⟩)
  · exact turn_settleTeardown (.inr ⟨.released, coordinator_closeAll _, hl⟩)

theorem turn_of_work (h : Settled s) (hm : m.isWork = true) (hs : s.step m = some t) :
    Turn s t.coordinator := by
  cases m with
  | control => exact turn_takeControl hs
  | joinReader =>
    obtain ⟨-, pump, hp, ⟨exit, he, rfl⟩ | ⟨he, rfl⟩⟩ := joinReader_cases hs
    · exact turn_of_handled (.onReadExit h.tended.reads hp he)
    · exact coordinator_crash s ▸ .crashed (.inl ⟨pump, hp, he⟩)
  | joinWriter =>
    obtain ⟨-, pump, hp, ⟨exit, he, rfl⟩ | ⟨he, rfl⟩⟩ := joinWriter_cases hs
    · exact turn_of_handled (.onWriteExit hp he)
    · exact coordinator_crash s ▸ .crashed (.inr (.inl ⟨pump, hp, he⟩))
  | joinCloser id =>
    obtain ⟨-, k, hf, ⟨error, -, rfl⟩ | ⟨he, rfl⟩⟩ := joinCloser_cases hs
    · exact turn_of_handled (.onClosed id error)
    · exact coordinator_crash _ ▸ .crashed (.inr (.inr ⟨k, List.mem_of_find?_eq_some hf, he⟩))
  | _ => cases hm

/-! ## Who holds the multiplexer -/

theorem hasHandle_releaseParked : s.releaseParked.hasHandle = s.hasHandle := by
  obtain ⟨calls, he⟩ := releaseParked_eq s
  have hcallers := callers_releaseParked s
  rw [he] at hcallers ⊢
  rw [hasHandle_eq, hasHandle_eq, ← hcallers]

theorem hasHandle_finish : s.finish.hasHandle = s.hasHandle := by
  have hreads : ∀ u : State, u.dropReads.hasHandle = u.hasHandle := fun u => by
    unfold dropReads
    split
    · exact hasHandle_refuse
    · rfl
  have hwrites : ∀ u : State, u.dropWrites.hasHandle = u.hasHandle := fun u => by
    unfold dropWrites
    split
    · exact hasHandle_refuse
    · rfl
  rw [finish_eq, hwrites, hreads]
  exact hasHandle_refuse

theorem hasHandle_settleTeardown : s.settleTeardown.hasHandle = s.hasHandle := by
  rcases settleTeardown_cases s with ⟨he, -⟩ | ⟨cause, -, -, he⟩
  · rw [he]
  · rw [he]
    cases cause with
    | shutdown c => exact hasHandle_endShutdown s c
    | close c => rw [endClose_eq, hasHandle_finish, hasHandle_endShutdown]
    | released => rw [endTeardown, hasHandle_finish, hasHandle_releaseParked]

/-- Unless it fails, the coordinator lets go of no caller. -/
theorem Act.hasHandle (h : Act s t) (hc : t.coordinator ≠ .crashed) :
    t.hasHandle = s.hasHandle := by
  cases h with
  | answer a => exact hasHandle_answer
  | ask => rfl
  | fail closers => exact absurd (coordinator_crash _) hc
  | handle _ hh =>
    obtain ⟨_, _, _, _, _, _, _, _, he⟩ := hh.eq
    rw [hasHandle_settleTeardown, he]
    rfl

/-- Once nobody holds the multiplexer, nobody ever will. -/
theorem Quiet.released (q : Quiet s t) (hl : s.hasHandle = false) : t.hasHandle = false := by
  cases ht : t.hasHandle with
  | false => rfl
  | true => exact (q.live ht).symm.trans hl

/-! ## Crashes -/

theorem stage_of_stopReader {pump pump' : ReadPump} {exit : ReadExit}
    (hp : (s.stopReader pump exit).reader = some pump') : pump'.stage = .stopped exit := by
  unfold stopReader at hp
  split at hp
  · simp [shutReads] at hp
  · rw [← Option.some.inj hp]

theorem stage_of_stopWriter {pump pump' : WritePump} {exit : WriteExit}
    (hp : (s.stopWriter pump exit).writer = some pump') : pump'.stage = .stopped exit := by
  unfold stopWriter at hp
  simp only [] at hp
  split at hp
  · simp [shutWrites] at hp
  · rw [← Option.some.inj hp]

theorem crashed_pollReader (hs : s.pollReader = some t) {pump : ReadPump}
    (hp : t.reader = some pump) : pump.stage ≠ .crashed := by
  intro hc
  obtain ⟨pump', -, ⟨r, -, rfl⟩ | ⟨-, -, rfl⟩ | ⟨r, reads, -, -, -, rfl⟩ | ⟨-, -, -, rfl⟩⟩ :=
    pollReader_cases hs
  · obtain rfl := Option.some.inj hp
    simp only [] at hc
    split at hc <;> cases hc
  · rw [stage_of_stopReader hp] at hc
    cases hc
  · obtain rfl := Option.some.inj hp
    simp only [] at hc
    split at hc <;> cases hc
  · rw [stage_of_stopReader hp] at hc
    cases hc

theorem crashed_readReturned {out : Outcome Packet} (hs : s.readReturned out = some t)
    {pump : ReadPump} (hp : t.reader = some pump) (hc : pump.stage = .crashed) : out = .crash := by
  obtain ⟨pump', r, -, -, ⟨p, -, rfl⟩ | ⟨e, -, -, rfl⟩ | ⟨e, -, -, rfl⟩ | ⟨rfl, -⟩⟩ :=
    readReturned_cases hs
  · obtain rfl := Option.some.inj hp
    cases hc
  · rw [stage_of_stopReader hp] at hc
    cases hc
  · rw [stage_of_stopReader hp] at hc
    cases hc
  · rfl

theorem crashed_pollWriter (hs : s.pollWriter = some t) {pump : WritePump}
    (hp : t.writer = some pump) : pump.stage ≠ .crashed := by
  intro hc
  obtain ⟨pump', -, ⟨-, -, rfl⟩ | ⟨-, rfl⟩ | ⟨r, writes, -, -, -, rfl⟩ | ⟨-, -, -, rfl⟩⟩ :=
    pollWriter_cases hs
  · rw [stage_of_stopWriter hp] at hc
    cases hc
  · obtain rfl := Option.some.inj hp
    cases hc
  · obtain rfl := Option.some.inj hp
    simp only [] at hc
    split at hc <;> cases hc
  · rw [stage_of_stopWriter hp] at hc
    cases hc

theorem crashed_writeReturned {out : Outcome Nat} (hs : s.writeReturned out = some t)
    {pump : WritePump} (hp : t.writer = some pump) (hc : pump.stage = .crashed) : out = .crash := by
  obtain ⟨pump', r, -, -, ⟨a, -, rfl⟩ | ⟨rfl, -⟩⟩ := writeReturned_cases hs
  · obtain rfl := Option.some.inj hp
    cases hc
  · rfl

theorem crashed_closeReturned {id : DeviceId} {out : Outcome Unit}
    (hs : s.closeReturned id out = some t) {k : Closer} (hk : k ∈ t.closers)
    (hc : k.result = some .crash) : k ∈ s.closers ∨ out = .crash := by
  obtain ⟨-, rfl⟩ := closeReturned_cases hs
  obtain ⟨l, hl, rfl⟩ := List.mem_map.1 hk
  split at hc
  · exact .inr (Option.some.inj hc)
  · rename_i hne
    rw [if_neg hne]
    exact .inl hl

/-- A task crashes only with the call it makes on a device. -/
theorem Aside.crashing (q : Aside s m t) (hs : s.step m = some t) (h : t.Crashing) :
    s.Crashing ∨ m.isCrash = true := by
  rcases h with ⟨pump, hp, hc⟩ | ⟨pump, hp, hc⟩ | ⟨k, hk, hc⟩
  · rcases q.reads with ⟨hr, -⟩ | rfl | ⟨out, rfl⟩
    · exact .inl (.inl ⟨pump, hr ▸ hp, hc⟩)
    · exact absurd hc (crashed_pollReader hs hp)
    · obtain rfl := crashed_readReturned hs hp hc
      exact .inr rfl
  · rcases q.writes with ⟨hw, -⟩ | rfl | ⟨out, rfl⟩
    · exact .inl (.inr (.inl ⟨pump, hw ▸ hp, hc⟩))
    · exact absurd hc (crashed_pollWriter hs hp)
    · obtain rfl := crashed_writeReturned hs hp hc
      exact .inr rfl
  · rcases q.tasks with hl | ⟨id, out, rfl⟩
    · exact .inl (.inr (.inr ⟨k, hl ▸ hk, hc⟩))
    · rcases crashed_closeReturned hs hk hc with hk | rfl
      · exact .inl (.inr (.inr ⟨k, hk, hc⟩))
      · exact .inr rfl

/-- What the coordinator starts has not crashed. -/
theorem Worked.crashing (w : Worked s t) (h : t.Crashing) : s.Crashing := by
  rcases h with ⟨pump, hp, hc⟩ | ⟨pump, hp, hc⟩ | ⟨k, hk, hc⟩
  · rcases w.started pump hp with hp | ⟨⟨carry, hs⟩, -⟩
    · exact .inl ⟨pump, hp, hc⟩
    · rw [hs] at hc
      cases hc
  · rcases w.begun pump hp with hp | hs
    · exact .inr (.inl ⟨pump, hp, hc⟩)
    · rw [hs] at hc
      cases hc
  · rcases w.fresh k hk with hk | hs
    · exact .inr (.inr ⟨k, hk, hc⟩)
    · rw [hs] at hc
      cases hc

theorem Deed.crashing (d : Deed s m t) (h : t.Crashing) : s.Crashing := by
  cases d with
  | message hm hn work => exact work.crashing h
  | device hm before work => exact before.crashing (s := { s with control := _ }) (work.crashing h)
  | noHolder hm work => exact work.crashing h
  | readerEnd hr hs work =>
    rcases work.crashing h with ⟨pump, hp, -⟩ | hw | hk
    · cases hp
    · exact .inr (.inl hw)
    · exact .inr (.inr hk)
  | writerEnd work => exact work.crashing h
  | closerEnd hc hr work =>
    rcases work.crashing h with hr | hw | ⟨k, hk, he⟩
    · exact .inl hr
    · exact .inr (.inl hw)
    · exact .inr (.inr ⟨k, (List.mem_filter.1 hk).1, he⟩)

/-- The coordinator sends itself no messages. -/
theorem Deed.control (d : Deed s m t) : ∀ k ∈ t.control, k ∈ s.control := by
  intro k hk
  cases d with
  | message hm hn work =>
    rw [work.control] at hk
    exact hm ▸ List.mem_cons_of_mem _ hk
  | device hm before work =>
    have hk : k ∈ _ := before.control ▸ (work.control ▸ hk)
    exact hm ▸ List.mem_cons_of_mem _ hk
  | noHolder hm work => exact work.control ▸ hk
  | readerEnd hr hs work => exact work.control ▸ hk
  | writerEnd work => exact work.control ▸ hk
  | closerEnd hc hr work => exact work.control ▸ hk

/-! ## Causes -/

theorem Warranted.mono {ms' : List Move} {cause : Teardown} (h : Warranted ms s cause)
    (hms : ∀ m ∈ ms, m ∈ ms') (hl : s.hasHandle = false → t.hasHandle = false) :
    Warranted ms' t cause := by
  cases cause with
  | shutdown c => trivial
  | close c => exact hms _ h
  | released => exact hl h

/-- What is asked for is warranted. -/
theorem Grounded.warranted (h : Grounded ms s) {cause : Teardown}
    (hc : s.coordinator = .tearingDown cause ∨ s.Asks cause) : Warranted ms s cause := by
  rcases hc with hc | ha
  · exact h.teardown cause hc
  · cases cause with
    | shutdown c => trivial
    | close c => exact h.control c ha
    | released => exact ha

theorem Grounded.mono {ms' : List Move} (h : Grounded ms s) (hms : ∀ m ∈ ms, m ∈ ms') :
    Grounded ms' s := by
  refine ⟨?_, fun c hc => hms _ (h.control c hc), fun cause hc =>
    (h.teardown cause hc).mono hms fun hl => hl⟩
  intro hc
  obtain ⟨m, hm, hc⟩ := h.crashing hc
  exact ⟨m, hms m hm, hc⟩

theorem Grounded.work (h : Grounded ms s) (hset : Settled s)
    (hm : m.isWork = true) (hs : s.step m = some t) (ho : t.isOver = false) : Grounded ms t := by
  have d := hset.deed hm hs ho
  have hlive : t.hasHandle = s.hasHandle :=
    (hset.act hm hs).hasHandle fun hc => by simp [isOver, hc] at ho
  refine ⟨fun hc => h.crashing (d.crashing hc), fun c hc => h.control c (d.control _ hc), ?_⟩
  intro cause hc
  have hturn := turn_of_work hset hm hs
  rw [hc] at hturn
  have hwarranted : Warranted ms s cause := by
    generalize hto : Coordinator.tearingDown cause = turned at hturn
    cases hturn with
    | same => exact h.warranted (.inl hto.symm)
    | begun ha =>
      obtain rfl := Coordinator.tearingDown.inj hto
      exact h.warranted (.inr ha)
    | @done cause' hc' => cases cause' <;> cases hto
    | crashed => cases hto
  exact hwarranted.mono (fun _ hm => hm) fun hl => hlive.trans hl

theorem Grounded.aside (h : Grounded ms s) (q : Aside s m t) (hs : s.step m = some t) :
    Grounded (ms ++ [m]) t := by
  have hg : Grounded (ms ++ [m]) s := h.mono fun _ hm => List.mem_append_left _ hm
  refine ⟨?_, ?_, ?_⟩
  · intro hc
    rcases q.crashing hs hc with hc | hm
    · exact hg.crashing hc
    · exact ⟨m, List.mem_append_right _ (List.mem_singleton_self _), hm⟩
  · intro c hc
    rcases q.messages with he | ⟨c', op, k, rfl, hk, he⟩
    · exact hg.control c (he ▸ hc)
    · rw [he] at hc
      rcases List.mem_append.1 hc with hc | hc
      · exact hg.control c hc
      · obtain rfl := List.mem_singleton.1 hc
        refine List.mem_append_right _ (List.mem_singleton.2 ?_)
        cases op <;> cases hk
        rfl
  · intro cause hc
    rw [q.coordinator] at hc
    exact (hg.teardown cause hc).mono (fun _ hm => hm) q.released

theorem Grounded.add (h : Grounded ms s) (ho : s.isOver = false) (device : DeviceRef) :
    Grounded (ms ++ [.add device]) (s.add device).2 := by
  have hg : Grounded (ms ++ [.add device]) s := h.mono fun _ hm => List.mem_append_left _ hm
  rw [add_eq ho]
  refine ⟨hg.crashing, ?_, hg.teardown⟩
  intro c hc
  rcases List.mem_append.1 hc with hc | hc
  · exact hg.control c hc
  · cases List.mem_singleton.1 hc

/-- A move after which the coordinator has stopped for good. -/
theorem Grounded.ending (h : Grounded ms s) (hset : Settled s) (hm : m.isWork = true)
    (hs : s.step m = some t) (hopen : s.isOver = false) (ho : t.isOver = true) : Ending ms t := by
  have hturn := turn_of_work hset hm hs
  generalize hto : t.coordinator = turned at hturn
  cases hturn with
  | same =>
    rw [isOver, hto] at ho
    exact absurd (hopen.symm.trans ho) (by simp)
  | begun ha => simp [isOver, hto] at ho
  | @done cause hc =>
    have hwarranted := h.warranted hc
    cases cause with
    | shutdown c => simp [isOver, hto, Teardown.outcome] at ho
    | close c => exact .closed hwarranted
    | released =>
      have hlive := (hset.act hm hs).hasHandle (by simp [hto, Teardown.outcome])
      exact .released (hlive.trans hwarranted)
  | crashed hc =>
    obtain ⟨m', hm', hc⟩ := h.crashing hc
    exact .crashed hm' hc

theorem Ending.snoc (h : Ending ms s) (hl : s.hasHandle = false → t.hasHandle = false) :
    Ending (ms ++ [m]) t := by
  cases h with
  | closed hm => exact .closed (List.mem_append_left _ hm)
  | released h => exact .released (hl h)
  | crashed hm hc => exact .crashed (List.mem_append_left _ hm) hc

/-- What is known of a coordinator while it works, and why it has stopped. -/
theorem grounded_of_run {settings : MultiplexerSettings} (h : Run (.init settings) ms s) :
    (s.isOver = false → Grounded ms s) ∧ (s.isOver = true → Ending ms s) := by
  refine h.snocRec (p := fun ms s => (s.isOver = false → Grounded ms s) ∧
    (s.isOver = true → Ending ms s)) ⟨?_, fun ho => by cases ho⟩ ?_
  · intro _
    refine ⟨?_, fun c hc => (by cases hc), fun cause hc => (by cases hc)⟩
    rintro (⟨_, hp, -⟩ | ⟨_, hp, -⟩ | ⟨_, hk, -⟩)
    · cases hp
    · cases hp
    · cases hk
  · intro ms s m t hrun ih hm
    have hset := settled_of_run hrun
    rcases step_kinds hm with ⟨hwork, hopen⟩ | ⟨device, rfl, rfl⟩ | q
    · have hg := ih.1 hopen
      refine ⟨?_, ?_⟩
      · intro ho
        exact (hg.work (hset hopen) hwork hm ho).mono fun _ hm => List.mem_append_left _ hm
      · intro ho
        exact (hg.ending (hset hopen) hwork hm hopen ho).snoc fun hl => hl
    · rw [isOver_add]
      refine ⟨fun ho => (ih.1 ho).add ho device, fun ho => (ih.2 ho).snoc ?_⟩
      intro hl
      obtain ⟨_, he⟩ := add_parts s device
      rw [he]
      exact hl
    · rw [q.isOver]
      exact ⟨fun ho => (ih.1 ho).aside q hm, fun ho => (ih.2 ho).snoc q.released⟩

/-- The coordinator stops for good only when somebody has closed the multiplexer, nobody
    holds it any more, or a device has crashed. -/
theorem ending_of_run {settings : MultiplexerSettings} (h : Run (.init settings) ms s)
    (ho : s.isOver = true) : Ending ms s :=
  (grounded_of_run h).2 ho

end

end State

end SeamlessTunnel.Multiplexer
