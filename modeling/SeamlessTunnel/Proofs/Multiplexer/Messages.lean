import SeamlessTunnel.Proofs.Multiplexer.Finality
import SeamlessTunnel.Proofs.Multiplexer.Joins
import SeamlessTunnel.Proofs.Multiplexer.Lasting
import SeamlessTunnel.Proofs.Multiplexer.Terminal
/-
  SeamlessTunnel.Proofs.Multiplexer.Messages — messages are taken up in the order they came.

  Until the coordinator is over, what was sent is what was taken up, followed by what still
  waits (`sent_of_run`). So a message waits until all that came before it were taken up, and
  then it is taken up itself, unless the coordinator stops first: then its caller is told
  that the multiplexer is closed (`course_of_run`).
-/

namespace SeamlessTunnel.Multiplexer

namespace State

/-- The messages that a move sends. -/
def sentMessages (s : State) (m : Move) (_ : State) : List Control :=
  if s.isOver then []
  else
    match m with
    | .call c op => (controlOf c op).toList
    | .add device => [.add s.nextId device]
    | _ => []

/-- The message that the coordinator takes up with a move. -/
def takenMessages (s : State) (m : Move) (_ : State) : List Control :=
  match m with
  | .control => s.control.head?.toList
  | _ => []

/-- A caller makes a call with one of the moves of a run, and does not let go of it. -/
structure Pursued (s₀ : State) (ms : List Move) (c : Caller) (op : Operation)
    (before : List Move) (u v : State) (after : List Move) : Prop where
  moves : ms = before ++ .call c op :: after
  run : Run s₀ before u
  step : u.step (.call c op) = some v
  leave : .leave c ∉ after
  cancel : .cancel c ∉ after

/-- Whether the coordinator has stopped while a message waited for its turn or for the end of
    its teardown: a device has crashed a task, or a close came first. -/
def Forestalled (s₀ : State) (ms : List Move) (k : Control) : Prop :=
  ∃ ms₁ m ms₂ s t, ms = ms₁ ++ m :: ms₂ ∧ Run s₀ ms₁ s ∧ s.step m = some t ∧ s.isOver = false ∧
    k ∈ s.agenda ∧ (t.coordinator = .crashed ∧ Crashed (ms₁ ++ [m]) ∨
      t.coordinator = .ended ∧ ∃ c rest, s.agenda = .close c :: rest ∧ k ∈ rest)

/-- What has become of a message of a caller, which was sent with the last of the moves
    `past`, after the moves `ns` that followed. The messages before it were `earlier`. -/
inductive Course (s₀ : State) (past : List Move) (earlier : List Control) (k : Control)
    (c : Caller) (t : State) (ns : List Move) (u : State) : Prop
  | waiting {before after : List Control} (ho : u.isOver = false)
      (hk : u.control = before ++ k :: after)
      (he : s₀.log takenMessages (past ++ ns) ++ before = earlier)
  | taken {ns₁ ns₂ : List Move} {x y : State} {rest : List Control}
      (hns : ns = ns₁ ++ .control :: ns₂) (hx : Run t ns₁ x) (hc : x.coordinator = .serving)
      (hk : x.control = k :: rest) (he : s₀.log takenMessages (past ++ ns₁) = earlier)
      (hy : x.step .control = some y) (hu : Run y ns₂ u)
  | dropped (hf : Forestalled s₀ (past ++ ns) k) (ha : u.answer? c = some (.failed .closed))

section

variable {s₀ s t u v : State} {m : Move} {c : Caller} {k : Control}
variable {past ms ns : List Move} {earlier : List Control} {settings : MultiplexerSettings}

theorem Forestalled.append (h : Forestalled s₀ ms k) : Forestalled s₀ (ms ++ ns) k := by
  obtain ⟨ms₁, m, ms₂, s, t, rfl, h⟩ := h
  exact ⟨ms₁, m, ms₂ ++ ns, s, t, by simp, h⟩

theorem Pursued.made {op : Operation} (r : Pursued s₀ ms c op past u v ns) :
    Run s₀ (past ++ [.call c op]) v :=
  r.run.snoc r.step

theorem Pursued.rest {op : Operation} (r : Pursued s₀ ms c op past u v ns) (h : Run s₀ ms s) :
    Run v ns s := by
  rw [r.moves] at h
  obtain ⟨u', v', hu, hv, hrest⟩ := h.split
  obtain rfl := r.run.unique hu
  obtain rfl := Option.some.inj (r.step.symm.trans hv)
  exact hrest

theorem Pursued.gone {op : Operation} (r : Pursued s₀ ms c op past u v ns) : c ∉ v.gone := by
  rw [(callers_call r.step).2.1]
  exact (call_cases r.step).1.2.2

/-! ## The queue of messages -/

theorem control_call {op : Operation} (ho : s.isOver = false) (hs : s.call c op = some t) :
    t.control = s.control ++ (controlOf c op).toList := by
  have hrefuse : ∀ u : State, u.control = s.control → (u.refuse [c]).control = s.control ++ [] :=
    fun u hu => by rw [control_refuse, hu, List.append_nil]
  unfold call at hs
  split at hs
  · cases hs
  · have hopen : (s.enlist c).isOver = false := ho
    rw [enlist] at hopen
    cases op with
    | read size =>
      simp only [] at hs
      split at hs
      · obtain rfl := Option.some.inj hs
        exact (List.append_nil _).symm
      · obtain rfl := Option.some.inj hs
        exact hrefuse _ rfl
    | write packet =>
      simp only [] at hs
      split at hs
      · obtain rfl := Option.some.inj hs
        exact (List.append_nil _).symm
      · obtain rfl := Option.some.inj hs
        exact hrefuse _ rfl
    | nextEvent =>
      obtain rfl := Option.some.inj hs
      exact (List.append_nil _).symm
    | _ =>
      simp only [hopen] at hs
      obtain rfl := Option.some.inj hs
      rfl

theorem sentMessages_eq_nil (hcall : ∀ c op, m ≠ .call c op) (hadd : ∀ device, m ≠ .add device) :
    sentMessages s m t = [] := by
  cases m with
  | call c op => exact absurd rfl (hcall c op)
  | add device => exact absurd rfl (hadd device)
  | _ => simp [sentMessages]

theorem takenMessages_eq_nil (h : m ≠ .control) : takenMessages s m t = [] := by
  cases m with
  | control => exact absurd rfl h
  | _ => rfl

/-- What waits at first and what comes is what is taken up and what waits in the end. -/
theorem queue_of_step (hset : s.isOver = false → Settled s) (hs : s.step m = some t)
    (ho : t.isOver = false) :
    takenMessages s m t ++ t.control = s.control ++ sentMessages s m t := by
  have hopen := isOver_eq_false_of_step hs ho
  cases hwork : m.isWork with
  | true =>
    have hsent : sentMessages s m t = [] :=
      sentMessages_eq_nil (by rintro c op rfl; cases hwork) (by rintro device rfl; cases hwork)
    rw [hsent, List.append_nil]
    cases (hset hopen).deed hwork hs ho with
    | message hm _ work => rw [work.control, takenMessages, hm]; rfl
    | device hm before work =>
      have hcontrol := work.control.trans before.control
      rw [hcontrol, takenMessages, hm]
      rfl
    | noHolder hm work => rw [work.control, takenMessages, hm]; rfl
    | readerEnd _ _ work => exact work.control
    | writerEnd work => exact work.control
    | closerEnd _ _ work => exact work.control
  | false =>
    rw [takenMessages_eq_nil (by rintro rfl; cases hwork), List.nil_append]
    by_cases hcall : ∃ c op, m = .call c op
    · obtain ⟨c, op, rfl⟩ := hcall
      rw [control_call hopen hs, sentMessages, hopen]
      rfl
    · rcases step_kinds hs with ⟨hw, -⟩ | ⟨device, rfl, rfl⟩ | q
      · exact absurd (hwork.symm.trans hw) Bool.false_ne_true
      · rw [add_eq hopen, sentMessages, hopen]
        rfl
      · rcases q.messages with he | ⟨c, op, k, rfl, -⟩
        · have hadd : ∀ device, m ≠ .add device := by
            rintro device rfl
            obtain rfl := step_add hs
            simp [add_eq hopen] at he
          rw [sentMessages_eq_nil (fun c op hm => hcall ⟨c, op, hm⟩) hadd, he, List.append_nil]
        · exact absurd ⟨c, op, rfl⟩ hcall

/-- What was sent is what was taken up and what still waits. -/
theorem sent_of_run (h : Run (.init settings) ms s) (ho : s.isOver = false) :
    (State.init settings).log sentMessages ms =
      (State.init settings).log takenMessages ms ++ s.control := by
  refine h.snocRec (p := fun ms s => s.isOver = false → (State.init settings).log sentMessages ms =
    (State.init settings).log takenMessages ms ++ s.control) (fun _ => rfl) ?_ ho
  intro ms s m t hrun ih hm ho
  rw [hrun.log_snoc hm, hrun.log_snoc hm, ih (isOver_eq_false_of_step hm ho), List.append_assoc,
    List.append_assoc, queue_of_step (settled_of_run hrun) hm ho]

/-! ## A coordinator that stops -/

/-- Without a message in hand, the coordinator waits for the next one. -/
theorem serving_of_message? (h : Run (.init settings) ms s) (hlive : s.hasHandle = true)
    (ho : s.isOver = false) (hn : s.coordinator.message? = none) : s.coordinator = .serving := by
  cases hc : s.coordinator with
  | serving => rfl
  | tearingDown cause =>
    cases cause with
    | shutdown c => simp [hc, Coordinator.message?, Teardown.message?] at hn
    | close c => simp [hc, Coordinator.message?, Teardown.message?] at hn
    | released =>
      have hdead : s.hasHandle = false := ((grounded_of_run h).1 ho).teardown _ hc
      exact absurd (hlive.symm.trans hdead) Bool.true_eq_false.mp
  | ended => simp [isOver, hc] at ho
  | crashed => simp [isOver, hc] at ho

/-- A join starts nothing and ends no more than a teardown that goes on. -/
theorem Settled.serving_of_join (h : Settled s) (hm : m.isWork = true) (hc : m ≠ .control)
    (hserving : s.coordinator = .serving) (hs : s.step m = some t) :
    t.coordinator = .crashed ∨ t.coordinator = .serving := by
  rcases h.joined hm hc hs with rfl | ⟨u, hj, rfl⟩
  · exact .inl (coordinator_crash s)
  · obtain ⟨_, _, _, _, _, _, _, _, he⟩ := hj.handled.eq
    have hu : u.coordinator = .serving := by
      rw [he]
      exact hserving
    exact .inr (by rw [State.settleTeardown, hu]; exact hu)

/-- Only the coordinator changes what it is about and its list of devices. -/
theorem records_of_step (hm : m.isWork = false) (hs : s.step m = some t) :
    t.coordinator = s.coordinator ∧ t.slots = s.slots := by
  rcases step_kinds hs with ⟨hw, -⟩ | ⟨device, -, rfl⟩ | q
  · cases hm.symm.trans hw
  · obtain ⟨_, he⟩ := add_parts s device
    rw [he]
    exact ⟨rfl, rfl⟩
  · exact ⟨q.coordinator, q.slots⟩

theorem isWork_of_ending (hs : s.step m = some t) (ho : s.isOver = false) (hover : t.isOver = true) :
    m.isWork = true := by
  by_contra hm
  have hc := (records_of_step (by simpa using hm) hs).1
  rw [isOver, hc, ← isOver, ho] at hover
  cases hover

/-- A crash tells all who wait for the coordinator. -/
theorem forestalled_of_crash (h : Run (.init settings) ms s) (hs : s.step m = some t)
    (ho : s.isOver = false) (hcrash : t.coordinator = .crashed) (hk : k ∈ s.agenda)
    (hc : k.caller? = some c) (hw : s.awaits c = true) :
    Forestalled (.init settings) (ms ++ [m]) k ∧ t.answer? c = some (.failed .closed) := by
  refine ⟨⟨ms, m, [], s, t, rfl, h, hs, ho, hk, .inl ⟨hcrash, crashed_of_run (h.snoc hs) hcrash⟩⟩, ?_⟩
  have hwork := isWork_of_ending hs ho (by simp [isOver, hcrash])
  rcases (settled_of_run h ho).before hwork hs with rfl | ⟨u, b⟩
  · rw [crash_eq]
    exact Lasting.dropPumps c _ (answer?_refuse_of_mem (accounted_of_run h).callers hw
      (List.mem_append_left _ (mem_askers_of_agenda hk hc)))
  · have hworking := b.working
    rw [b.eq] at hcrash
    rcases settleTeardown_cases u with ⟨he, -⟩ | ⟨cause, -, -, he⟩
    · rw [he] at hcrash
      simp [isOver, hcrash] at hworking
    · rw [he, coordinator_endTeardown] at hcrash
      cases cause <;> cases hcrash

/-- A coordinator that stops before a message had its turn tells its caller. -/
theorem forestalled_of_over (h : Run (.init settings) ms s) (hs : s.step m = some t)
    (ho : s.isOver = false) (hover : t.isOver = true) (hk : k ∈ s.control)
    (hc : k.caller? = some c) (hw : s.awaits c = true)
    (hturn : m = .control → ∃ k' rest, s.control = k' :: rest ∧ k ∈ rest) :
    Forestalled (.init settings) (ms ++ [m]) k ∧ t.answer? c = some (.failed .closed) := by
  have hagenda : k ∈ s.agenda := List.mem_append_right _ hk
  have hlive : s.hasHandle = true := by
    simp [hasHandle_eq, List.ne_nil_of_mem (mem_callers_of_awaits hw)]
  cases advance_of_live h hlive hs with
  | same ho' => simp [ho', ho] at hover
  | sent _ ho' => simp [ho', ho] at hover
  | done _ _ hc' => simp [isOver, hc'] at hover
  | stopped _ hstop =>
    rcases hstop with hcrash | ⟨hended, d, rest, ha⟩
    · exact forestalled_of_crash h hs ho hcrash hagenda hc hw
    · have hbehind : k ∈ rest := by
        cases hmessage : s.coordinator.message? with
        | some k' =>
          rw [agenda, hmessage] at ha
          exact (List.cons.inj ha).2 ▸ hk
        | none =>
          have hserving := serving_of_message? h hlive ho hmessage
          rw [agenda_of_message?_eq_none hmessage] at ha
          by_cases hm : m = .control
          · obtain ⟨k', rest', he, hmem⟩ := hturn hm
            rw [he] at ha
            exact (List.cons.inj ha).2 ▸ hmem
          · -- no join ends a coordinator that is serving
            have hwork := isWork_of_ending hs ho hover
            rcases (settled_of_run h ho).serving_of_join hwork hm hserving hs with he | he
            · cases he.symm.trans hended
            · cases he.symm.trans hended
      refine ⟨⟨ms, m, [], s, t, rfl, h, hs, ho, hagenda, .inr ⟨hended, d, rest, ha, hbehind⟩⟩, ?_⟩
      exact (farewell_of_step h hs ho hended ha).refused c hw
        (.inr (.inr (mem_controlCallers hbehind hc)))

/-- While a message is not done with, its caller has no answer, and somebody can make a
    move. -/
theorem pending_of_agenda (h : Run (.init settings) ms s) (ho : s.isOver = false)
    (hk : k ∈ s.agenda) (hc : k.caller? = some c) (hg : c ∉ s.gone) :
    s.answer? c = none ∧ (s.Stalled → ¬ s.Listening) := by
  have hw : s.awaits c = true := (awaits_of_agenda h hk hc).resolve_right hg
  refine ⟨answer?_eq_none_of_awaits (accounted_of_run h).callers hw, fun hstalled hlistening => ?_⟩
  have hlive : s.hasHandle = true := by
    simp [hasHandle_eq, List.ne_nil_of_mem (mem_callers_of_awaits hw)]
  have hserving := hstalled.serving ho hlive hlistening (settled_of_run h ho)
  rw [agenda_of_message?_eq_none (by rw [hserving]; rfl), hstalled.control_eq_nil hserving] at hk
  cases hk

/-! ## The course of a message -/

/-- The next move of a message: it waits, it is taken up, or its caller is told. -/
theorem Course.step (hcourse : Course (.init settings) past earlier k c t ns u)
    (hpast : Run (.init settings) past t) (hrun : Run t ns u) (hg : c ∉ u.gone)
    (hc : k.caller? = some c) (hleave : m ≠ .leave c) (hcancel : m ≠ .cancel c)
    (hs : u.step m = some v) : Course (.init settings) past earlier k c t (ns ++ [m]) v := by
  have h := hpast.append hrun
  cases hcourse with
  | @waiting before after ho hk he =>
    have hmem : k ∈ u.control := by simp [hk]
    have hw : u.awaits c = true :=
      (awaits_of_agenda h (List.mem_append_right _ hmem) hc).resolve_right hg
    by_cases hturn : m = .control ∧ before = []
    · obtain ⟨rfl, rfl⟩ := hturn
      exact .taken rfl hrun (takeControl_cases hs).1 hk (by rw [← he, List.append_nil]) hs (.nil v)
    · have hbefore : m = .control → ∃ k' rest, before = k' :: rest := fun hm =>
        List.exists_cons_of_ne_nil fun hn => hturn ⟨hm, hn⟩
      cases hover : v.isOver with
      | true =>
        obtain ⟨hf, ha⟩ := forestalled_of_over h hs ho hover hmem hc hw fun hm => by
          obtain ⟨k', rest, rfl⟩ := hbefore hm
          exact ⟨k', rest ++ k :: after, hk, by simp⟩
        exact .dropped (by rwa [← List.append_assoc]) ha
      | false =>
        have hqueue := queue_of_step (settled_of_run h) hs hover
        rw [hk] at hqueue
        by_cases hm : m = .control
        · obtain ⟨k', rest, rfl⟩ := hbefore hm
          have htaken : takenMessages u m v = [k'] := by rw [hm, takenMessages, hk]; rfl
          rw [htaken] at hqueue
          have hcontrol : v.control = rest ++ k :: (after ++ sentMessages u m v) := by
            simpa using hqueue
          refine .waiting hover hcontrol ?_
          rw [← List.append_assoc, h.log_snoc hs, htaken, ← he, List.append_assoc]
          rfl
        · rw [takenMessages_eq_nil hm] at hqueue
          have hcontrol : v.control = before ++ k :: (after ++ sentMessages u m v) := by
            simpa using hqueue
          refine .waiting hover hcontrol ?_
          rw [← List.append_assoc, h.log_snoc hs, takenMessages_eq_nil hm, List.append_nil, he]
  | taken hns hx hserving hk he hy hu =>
    exact .taken (by rw [hns, List.append_assoc]; rfl) hx hserving hk he hy (hu.snoc hs)
  | dropped hf ha =>
    refine .dropped (by rw [← List.append_assoc]; exact hf.append) ?_
    exact answer?_of_step (settled_of_run h) hs hleave hcancel ha

/-- A message is taken up when all that came before it were, unless the coordinator stops
    first. -/
theorem course_of_run {op : Operation} (r : Pursued (.init settings) ms c op past u v ns)
    (ho : u.isOver = false) (hk : controlOf c op = some k) (h : Run (.init settings) ms s) :
    Course (.init settings) (past ++ [.call c op]) ((State.init settings).log sentMessages past) k c
      v ns s := by
  have hwaiting : Course (.init settings) (past ++ [.call c op])
      ((State.init settings).log sentMessages past) k c v [] v := by
    have hcontrol : v.control = u.control ++ k :: [] := by
      rw [control_call ho r.step, hk]
      rfl
    refine .waiting ((Quiet.call r.step).isOver.trans ho) hcontrol ?_
    rw [List.append_nil, r.run.log_snoc r.step, sent_of_run r.run ho]
    simp [takenMessages]
  exact kept_of_moves r.made r.gone (fun hrun hg hl hc hm hcourse =>
    hcourse.step r.made hrun hg (caller?_controlOf hk) hl hc hm) (.nil v) hwaiting (r.rest h) r.leave
    r.cancel

end

end State

end SeamlessTunnel.Multiplexer
