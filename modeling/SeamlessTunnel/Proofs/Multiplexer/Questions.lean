import SeamlessTunnel.Proofs.Multiplexer.Lineup
/-
  SeamlessTunnel.Proofs.Multiplexer.Questions — questions follow the order of messages.

  A question goes to the device that the messages before it leave as the newest, and what
  that device makes of it is what the caller is told; without a device there is a default
  (`QuestionReply`). So a device that was handed in is asked, or one that came later, until a
  shutdown is asked for, whatever older devices still do, and from then on the defaults hold
  until a device is handed in (`questions_of_run`).

  Where the coordinator stops before the question had its turn the caller is told that the
  multiplexer is closed, though a device would have been the newest (`closed_before_answer`).
-/

namespace SeamlessTunnel.Multiplexer

/-- The question that an operation puts to a device. -/
def Operation.question? : Operation → Option Question
  | .mtu => some .mtu
  | .name => some .name
  | .read _ | .write _ | .count | .nextEvent | .shutdown | .close => none

/-- What a question comes to when there is no device. -/
def Operation.default? (mtu : UInt16) : Operation → Option Answer
  | .mtu => some (.mtu mtu)
  | .name => some (.name "")
  | .count => some (.count 0)
  | .read _ | .write _ | .nextEvent | .shutdown | .close => none

namespace State

/-- What a caller is told that has asked with the last of the moves `past`, behind the
    messages `earlier`. -/
inductive QuestionReply (s₀ : State) (past : List Move) (earlier : List Control) (c : Caller)
    (op : Operation) (t : State) (ns : List Move) : Answer → Prop
  /-- The newest device was asked and has returned. -/
  | device {ns₁ ns₂ : List Move} {u : State} {q : Query} {id : DeviceId} (out : Outcome Answer)
      (hns : ns = ns₁ ++ .answered q.ticket out :: ns₂) (hu : Run t ns₁ u) (hq : q ∈ u.queries)
      (hc : q.caller = c) (hquestion : op.question? = some q.question)
      (h : Leaves earlier (some (id, q.device))) :
      QuestionReply s₀ past earlier c op t ns (relayed out)
  | default {a : Answer} (ha : op.default? s₀.defaultMtu = some a) (h : Leaves earlier none) :
      QuestionReply s₀ past earlier c op t ns a
  | counted {n : Nat} {newest : DeviceId × DeviceRef} (hop : op = .count) (hn : 0 < n)
      (h : Leaves earlier (some newest)) : QuestionReply s₀ past earlier c op t ns (.count n)
  | stopped (ho : t.isOver = true) : QuestionReply s₀ past earlier c op t ns (.failed .closed)
  | forestalled {k : Control} (hk : controlOf c op = some k)
      (hf : Forestalled s₀ (past ++ ns) k) : QuestionReply s₀ past earlier c op t ns (.failed .closed)

/-- Whether the device that messages leave as the newest has the question of a caller. -/
def Asked (earlier : List Control) (c : Caller) (op : Operation) (s : State) : Prop :=
  ∃ q ∈ s.queries, q.caller = c ∧ op.question? = some q.question ∧
    ∃ id, Leaves earlier (some (id, q.device))

/-- Whether the teardown goes on that one of the messages asks for. -/
def Delayed (earlier : List Control) (s : State) : Prop :=
  ∃ cause k, s.coordinator = .tearingDown cause ∧ cause.message? = some k ∧ k ∈ earlier

/-- Whether this is the newest device, or one that was handed in later. -/
def SameOrLater (id : DeviceId) (device : DeviceRef) (later : List Move)
    (newest : Option (DeviceId × DeviceRef)) : Prop :=
  ∃ id' device', newest = some (id', device') ∧
    (id' = id ∧ device' = device ∨ id.number < id'.number ∧ .add device' ∈ later)

/-- What the questions of a run come to. -/
structure QuestionsInOrder (s₀ : State) (ms : List Move) (s : State) : Prop where
  /-- Whoever asks is told by the device that the messages before leave as the newest. -/
  replies : ∀ c op past u v ns d a, Pursued s₀ ms c op past u v ns →
    op.default? s₀.defaultMtu = some d → s.answer? c = some a →
    QuestionReply s₀ (past ++ [.call c op]) (s₀.log sentMessages past) c op v ns a
  /-- Where no task can make a move it is told, or the question is with that device, or
      behind a teardown. -/
  answered : ∀ c op past u v ns d, Pursued s₀ ms c op past u v ns →
    op.default? s₀.defaultMtu = some d → s.Stalled →
    (∃ a, s.answer? c = some a) ∨ Asked (s₀.log sentMessages past) c op s ∨
      Delayed (s₀.log sentMessages past) s
  /-- A device that was taken is the newest, or one that came later, until a teardown is
      asked for. -/
  added : ∀ ms₁ device ms₂ ns u, ms = ms₁ ++ .add device :: ms₂ ++ ns → Run s₀ ms₁ u →
    u.isOver = false → (∀ c, .call c .shutdown ∉ ms₂) → (∀ c, .call c .close ∉ ms₂) →
    SameOrLater u.nextId device ms₂ (newestOf (s₀.log sentMessages (ms₁ ++ .add device :: ms₂)))
  /-- No device is the newest from a shutdown on until one is handed in. -/
  cleared : ∀ ms₁ c ms₂ ns u, ms = ms₁ ++ .call c .shutdown :: ms₂ ++ ns → Run s₀ ms₁ u →
    u.isOver = false → (∀ device, .add device ∉ ms₂) →
    newestOf (s₀.log sentMessages (ms₁ ++ .call c .shutdown :: ms₂)) = none

/-- Where a question has got that was taken up. -/
inductive QuestionStage (s₀ : State) (past : List Move) (earlier : List Control) (c : Caller)
    (op : Operation) (t : State) (ns : List Move) (u : State) : Prop
  | asked (h : Asked earlier c op u) : QuestionStage s₀ past earlier c op t ns u
  | replied {a : Answer} (hr : QuestionReply s₀ past earlier c op t ns a)
      (ha : u.answer? c = some a) : QuestionStage s₀ past earlier c op t ns u

section

variable {s₀ s t u v x y : State} {m : Move} {c : Caller} {op : Operation} {a d : Answer}
variable {past ms ms₁ ms₂ ns : List Move} {earlier rest : List Control} {k : Control} {q : Query}
variable {device : DeviceRef} {settings : MultiplexerSettings}

theorem QuestionReply.append (h : QuestionReply s₀ past earlier c op t ns a) (ms : List Move) :
    QuestionReply s₀ past earlier c op t (ns ++ ms) a := by
  cases h with
  | device out hns hu hq hc hquestion h =>
    exact .device out (by rw [hns, List.append_assoc]; rfl) hu hq hc hquestion h
  | default ha h => exact .default ha h
  | counted hop hn h => exact .counted hop hn h
  | stopped ho => exact .stopped ho
  | forestalled hk hf => exact .forestalled hk (by rw [← List.append_assoc]; exact hf.append)

/-! ## The default -/

theorem Act.defaultMtu (h : Act s t) : t.defaultMtu = s.defaultMtu := by
  cases h with
  | answer => rfl
  | ask => rfl
  | fail closers =>
    obtain ⟨_, _, _, _, _, _, _, he, -⟩ := crash_parts { s with closers }
    rw [he]
  | @handle control coordinator u _ hh =>
    obtain ⟨_, _, _, _, _, _, _, _, hu⟩ := hh.eq
    obtain ⟨_, _, _, _, _, _, _, _, _, _, he⟩ := settleTeardown_parts u
    rw [he, hu]

theorem defaultMtu_of_run (h : Run (.init settings) ms s) : s.defaultMtu = settings.defaultMtu := by
  refine h.snocRec (p := fun _ s => s.defaultMtu = settings.defaultMtu) rfl ?_
  intro ms s m t hrun ih hs
  refine Eq.trans ?_ ih
  cases hm : m.isWork with
  | true => exact ((settled_of_run hrun (isOver_of_isWork hm hs)).act hm hs).defaultMtu
  | false =>
    by_cases hn : ∃ ticket out, m = .answered ticket out
    · obtain ⟨ticket, out, rfl⟩ := hn
      obtain ⟨_, _, -, rfl⟩ := answered_cases hs
      rfl
    · have hledger := ledger_of_step hm (fun ticket out he => hn ⟨ticket, out, he⟩) hs
      simp only [ledger, Prod.mk.injEq] at hledger
      exact hledger.1

/-! ## What a device returns -/

/-- A device that returns tells the caller of the question. -/
theorem answer?_relayed (h : Run (.init settings) ms s) (hq : q ∈ s.queries)
    (hw : s.awaits q.caller = true) {out : Outcome Answer}
    (hs : s.step (.answered q.ticket out) = some t) :
    t.answer? q.caller = some (relayed out) := by
  obtain rfl := Option.some.inj ((answered_eq (tickets_of_run h) hq out).symm.trans hs)
  exact answer?_answer_self (s := { s with queries := s.queries.filter (·.ticket != q.ticket) })
    (accounted_of_run h).callers hw

theorem awaits_of_query (h : Run (.init settings) ms s) (hq : q ∈ s.queries)
    (hg : q.caller ∉ s.gone) : s.awaits q.caller = true := by
  refine ((accounted_of_run h).placed q.caller ?_).resolve_right hg
  exact mem_places.2 (.inr (.inr (.inl (mem_askers.2 (.inr (.inr (List.mem_map_of_mem hq)))))))

theorem QuestionStage.step (hstage : QuestionStage (.init settings) past earlier c op t ns u)
    (h : Run (.init settings) past t) (hrun : Run t ns u) (hg : c ∉ u.gone)
    (hleave : m ≠ .leave c) (hcancel : m ≠ .cancel c) (hs : u.step m = some v) :
    QuestionStage (.init settings) past earlier c op t (ns ++ [m]) v := by
  have hall := h.append hrun
  cases hstage with
  | replied hr ha =>
    exact .replied (hr.append [m]) (answer?_of_step (settled_of_run hall) hs hleave hcancel ha)
  | asked ha =>
    obtain ⟨q, hq, rfl, hquestion, id, hl⟩ := ha
    rcases query_of_step (settled_of_run hall) hs hq with hq' | ⟨out, rfl⟩
    · exact .asked ⟨q, hq', rfl, hquestion, id, hl⟩
    · exact .replied (.device out rfl hrun hq rfl hquestion hl)
        (answer?_relayed hall hq (awaits_of_query hall hq hg) hs)

/-! ## A question that is taken up -/

/-- A question goes to the last device on the list. -/
theorem stage_of_query {question : Question} (hl : Leaves earlier x.newest?)
    (hcallers : x.callers.Nodup) (hw : x.awaits c = true) (hquestion : op.question? = some question)
    (hd : op.default? s₀.defaultMtu = some d) :
    QuestionStage s₀ past earlier c op t ns (State.query { x with control := rest } c question d) := by
  unfold State.query
  cases hlast : x.slots.getLast? with
  | none =>
    rw [newest?, hlast] at hl
    exact .replied (.default hd hl) (answer?_answer_self (s := { x with control := rest }) hcallers hw)
  | some slot =>
    rw [newest?, hlast] at hl
    exact .asked ⟨_, List.mem_append_right _ (List.mem_singleton_self _), rfl, hquestion, slot.id, hl⟩

theorem stage_of_count (hl : Leaves earlier x.newest?) (hcallers : x.callers.Nodup)
    (hw : x.awaits c = true) : QuestionStage s₀ past earlier c .count t ns
      (State.answer { x with control := rest } c (.count x.slots.length)) := by
  refine .replied ?_ (answer?_answer_self (s := { x with control := rest }) hcallers hw)
  cases hlast : x.slots.getLast? with
  | none =>
    rw [newest?, hlast] at hl
    rw [List.getLast?_eq_none_iff.1 hlast]
    exact .default rfl hl
  | some slot =>
    rw [newest?, hlast] at hl
    exact .counted rfl (List.length_pos_of_mem (List.mem_of_getLast? hlast)) hl

theorem stage_of_taken (h : Run (.init settings) ms x) (hserving : x.coordinator = .serving)
    (hcontrol : x.control = k :: rest) (hk : controlOf c op = some k)
    (hd : op.default? settings.defaultMtu = some d) (hg : c ∉ x.gone) (hy : x.step .control = some y) :
    QuestionStage (.init settings) past ((State.init settings).log takenMessages ms) c op t ns y := by
  have hl := (lineup_of_run h).serving hserving
  have hcallers := (accounted_of_run h).callers
  have hw : x.awaits c = true :=
    (awaits_of_agenda h (List.mem_append_right _ (hcontrol ▸ List.mem_cons_self))
      (caller?_controlOf hk)).resolve_right hg
  have hmtu := defaultMtu_of_run h
  obtain ⟨-, ⟨k', rest', he, rfl⟩ | ⟨he, -⟩⟩ := takeControl_cases hy
  · obtain ⟨rfl, rfl⟩ := List.cons.inj (hcontrol.symm.trans he)
    cases op with
    | mtu =>
      obtain rfl := Option.some.inj hk
      refine stage_of_query hl hcallers hw rfl ?_
      rw [hmtu]
      rfl
    | name =>
      obtain rfl := Option.some.inj hk
      exact stage_of_query hl hcallers hw rfl rfl
    | count =>
      obtain rfl := Option.some.inj hk
      exact stage_of_count hl hcallers hw
    | _ => cases hd
  · cases hcontrol.symm.trans he

theorem controlOf_of_default? {mtu : UInt16} (h : op.default? mtu = some d) :
    ∃ k, controlOf c op = some k := by
  cases op <;> first | exact ⟨_, rfl⟩ | cases h

/-- A question waits for its turn, or is with the newest device, or its caller is told. -/
theorem course_of_question (r : Pursued (.init settings) ms c op past u v ns)
    (ho : u.isOver = false) (hk : controlOf c op = some k)
    (hd : op.default? settings.defaultMtu = some d) (h : Run (.init settings) ms s) :
    (s.isOver = false ∧ k ∈ s.control ∧ ∃ before,
      (State.init settings).log takenMessages ms ++ before =
        (State.init settings).log sentMessages past) ∨
      QuestionStage (.init settings) (past ++ [.call c op])
        ((State.init settings).log sentMessages past) c op v ns s := by
  cases course_of_run r ho hk h with
  | @waiting before after ho hcontrol he =>
    refine .inl ⟨ho, by simp [hcontrol], before, ?_⟩
    rw [r.moves, ← List.singleton_append, ← List.append_assoc]
    exact he
  | dropped hf ha => exact .inr (.replied (.forestalled hk hf) ha)
  | @taken ns₁ ns₂ x y rest hns hx hserving hcontrol he hy hs =>
    have hns' : ns = ns₁ ++ [.control] ++ ns₂ := by simp [hns]
    have hleave := r.leave
    have hcancel := r.cancel
    rw [hns'] at hleave hcancel ⊢
    have hgone : c ∉ x.gone := gone_of_moves r.made hx (fun hm => hcancel (by simp [hm])) r.gone
    have htaken : QuestionStage (.init settings) (past ++ [.call c op])
        ((State.init settings).log sentMessages past) c op v (ns₁ ++ [.control]) y := by
      rw [← he]
      exact stage_of_taken (r.made.append hx) hserving hcontrol hk hd hgone hy
    exact .inr (kept_of_moves r.made r.gone (fun hrun hg hl hc hm hstage =>
      hstage.step r.made hrun hg hl hc hm) (hx.snoc hy) htaken hs hleave hcancel)

/-- Nobody is there any more to take a question up. -/
theorem refused_of_over (r : Pursued (.init settings) ms c op past u v ns) (ho : u.isOver = true)
    (hk : controlOf c op = some k) (h : Run (.init settings) ms s) :
    v.isOver = true ∧ s.answer? c = some (.failed .closed) := by
  have hcallers := (accounted_of_run r.made).callers
  have hv : v = (u.enlist c).refuse [c] := by
    obtain ⟨-, ⟨_, rfl, -⟩ | ⟨_, rfl, -⟩ | ⟨rfl, -⟩ | ⟨_, -, hopen, -⟩ | hv⟩ := call_cases r.step
    · cases hk
    · cases hk
    · cases hk
    · cases ho.symm.trans hopen
    · exact hv
  refine ⟨(Quiet.call r.step).isOver.trans ho, answer?_of_moves r.made (r.rest h) r.leave r.cancel ?_⟩
  rw [hv] at hcallers ⊢
  rw [callers_refuse] at hcallers
  exact answer?_refuse_of_mem hcallers (awaits_enlist.2 (.inr rfl)) (List.mem_singleton_self c)

/-! ## The newest device -/

theorem sends_of_mem (hk : k ∈ sentMessages s m t) : s.Sends m k := by
  unfold sentMessages at hk
  split at hk
  · cases hk
  · cases m with
    | call c op => exact .inl ⟨c, op, rfl, Option.mem_toList.1 hk⟩
    | add device => exact .inr ⟨device, rfl, List.mem_singleton.1 hk⟩
    | _ => cases hk

theorem SameOrLater.step {id : DeviceId} {ks : List Control}
    (h : SameOrLater id device ms₂ (newestOf ks)) (hid : id.number < s.nextId.number)
    (hshutdown : ∀ c, m ≠ .call c .shutdown) (hclose : ∀ c, m ≠ .call c .close) :
    SameOrLater id device (ms₂ ++ [m]) (newestOf (ks ++ sentMessages s m t)) := by
  have hkept : (∀ k ∈ sentMessages s m t, k.spares = true) →
      SameOrLater id device (ms₂ ++ [m]) (newestOf (ks ++ sentMessages s m t)) := by
    intro hspares
    obtain ⟨id', device', hnewest, hlater⟩ := h
    exact ⟨id', device', (newestOf_append hspares).trans hnewest,
      hlater.imp_right (.imp_right (List.mem_append_left _))⟩
  cases hspares : m.spares with
  | true => exact hkept fun k hk => (sends_of_mem hk).spares hspares
  | false =>
    cases m with
    | add device' =>
      cases ho : s.isOver with
      | true => exact hkept fun k hk => by simp [sentMessages, ho] at hk
      | false =>
        refine ⟨s.nextId, device', ?_, .inr ⟨hid, by simp⟩⟩
        rw [sentMessages, ho]
        exact newestOf_snoc
    | call c op =>
      cases op with
      | shutdown => exact absurd rfl (hshutdown c)
      | close => exact absurd rfl (hclose c)
      | _ => cases hspares
    | _ => cases hspares

/-- A device that was taken is the newest until another one comes or a teardown is asked
    for. -/
theorem newestOf_of_add (h : Run (.init settings) ms₁ u) (ho : u.isOver = false)
    (hu : u.step (.add device) = some v) (hrun : Run v ms₂ s)
    (hshutdown : ∀ c, .call c .shutdown ∉ ms₂) (hclose : ∀ c, .call c .close ∉ ms₂) :
    SameOrLater u.nextId device ms₂
      (newestOf ((State.init settings).log sentMessages (ms₁ ++ .add device :: ms₂))) := by
  refine hrun.snocRec (p := fun ms₂ _ => (∀ c, .call c .shutdown ∉ ms₂) →
    (∀ c, .call c .close ∉ ms₂) → SameOrLater u.nextId device ms₂
      (newestOf ((State.init settings).log sentMessages (ms₁ ++ .add device :: ms₂)))) ?_ ?_
    hshutdown hclose
  · intro _ _
    refine ⟨u.nextId, device, ?_, .inl ⟨rfl, rfl⟩⟩
    rw [h.log_snoc hu, sentMessages, ho]
    exact newestOf_snoc
  · intro ms₂ x m y hrun ih hm hshutdown hclose
    simp only [List.mem_append, List.mem_singleton, not_or] at hshutdown hclose
    have hall : Run (.init settings) (ms₁ ++ .add device :: ms₂) x := by
      simpa using (h.snoc hu).append hrun
    have hid : u.nextId.number < x.nextId.number := by
      obtain rfl := step_add hu
      obtain ⟨_, he⟩ := add_parts u device
      have hadded := added_of_moves (h.snoc hu) hrun
      rw [he] at hadded
      exact Nat.succ_le_succ hadded
    rw [← List.cons_append, ← List.append_assoc, hall.log_snoc hm]
    exact (ih (fun c => (hshutdown c).1) fun c => (hclose c).1).step hid
      (fun c => Ne.symm (hshutdown c).2) fun c => Ne.symm (hclose c).2

/-- No device is the newest from a shutdown on until one is handed in. -/
theorem newestOf_of_shutdown (h : Run (.init settings) ms₁ u) (ho : u.isOver = false)
    (hu : u.step (.call c .shutdown) = some v) (hrun : Run v ms₂ s)
    (hadd : ∀ device, .add device ∉ ms₂) :
    newestOf ((State.init settings).log sentMessages (ms₁ ++ .call c .shutdown :: ms₂)) = none := by
  refine hrun.snocRec (p := fun ms₂ _ => (∀ device, .add device ∉ ms₂) →
    newestOf ((State.init settings).log sentMessages (ms₁ ++ .call c .shutdown :: ms₂)) = none)
    ?_ ?_ hadd
  · intro _
    rw [h.log_snoc hu, sentMessages, ho]
    exact newestOf_snoc
  · intro ms₂ x m y hrun ih hm hadd
    simp only [List.mem_append, List.mem_singleton, not_or] at hadd
    have hall : Run (.init settings) (ms₁ ++ .call c .shutdown :: ms₂) x := by
      simpa using (h.snoc hu).append hrun
    rw [← List.cons_append, ← List.append_assoc, hall.log_snoc hm]
    refine newestOf_append_eq_none (ih fun device => (hadd device).1) ?_
    rintro k hk id device rfl
    rcases sends_of_mem hk with ⟨c, op, -, hop⟩ | ⟨device', rfl, -⟩
    · cases op <;> cases hop
    · exact (hadd device').2 rfl

/-! ## All questions -/

/-- Whose question is with a device has no answer yet. -/
theorem Asked.answer?_eq_none (ha : Asked earlier c op s) (h : Run (.init settings) ms s)
    (hg : c ∉ s.gone) : s.answer? c = none := by
  obtain ⟨q, hq, rfl, -⟩ := ha
  exact answer?_eq_none_of_awaits (accounted_of_run h).callers (awaits_of_query h hq hg)

/-- Where no task can make a move only a teardown keeps a message from its turn. -/
theorem delayed_of_stalled {before : List Control} (h : Run (.init settings) ms s)
    (hstalled : s.Stalled) (ho : s.isOver = false) (hmem : k ∈ s.control)
    (hc : k.caller? = some c) (hg : c ∉ s.gone)
    (he : (State.init settings).log takenMessages ms ++ before = earlier) : Delayed earlier s := by
  have hw : s.awaits c = true :=
    (awaits_of_agenda h (List.mem_append_right _ hmem) hc).resolve_right hg
  have hlive : s.hasHandle = true := by
    simp [hasHandle_eq, List.ne_nil_of_mem (mem_callers_of_awaits hw)]
  cases hmessage : s.coordinator.message? with
  | none =>
    rw [hstalled.control_eq_nil (serving_of_message? h hlive ho hmessage)] at hmem
    cases hmem
  | some k' =>
    cases hcause : s.coordinator with
    | tearingDown cause =>
      rw [hcause] at hmessage
      refine ⟨cause, k', hcause, hmessage, ?_⟩
      rw [← he]
      exact List.mem_append_left _ ((lineup_of_run h).begun cause k' hcause hmessage)
    | _ =>
      rw [hcause] at hmessage
      cases hmessage

/-- Over any run, a question is answered by the device that the messages before it leave as
    the newest, or by default. -/
theorem questions_of_run (h : Run (.init settings) ms s) : QuestionsInOrder (.init settings) ms s where
  replies := by
    intro c op past u v ns d a r hd ha
    obtain ⟨k, hk⟩ := controlOf_of_default? (c := c) hd
    cases ho : u.isOver with
    | true =>
      obtain ⟨hover, hclosed⟩ := refused_of_over r ho hk h
      obtain rfl := Option.some.inj (hclosed.symm.trans ha)
      exact .stopped hover
    | false =>
      have hg := gone_of_moves r.made (r.rest h) r.cancel r.gone
      rcases course_of_question r ho hk hd h with ⟨hopen, hmem, -⟩ | hasked | ⟨hr, ha'⟩
      · have hnone := (pending_of_agenda h hopen (List.mem_append_right _ hmem)
          (caller?_controlOf hk) hg).1
        cases hnone.symm.trans ha
      · cases (hasked.answer?_eq_none h hg).symm.trans ha
      · exact Option.some.inj (ha'.symm.trans ha) ▸ hr
  answered := by
    intro c op past u v ns d r hd hstalled
    obtain ⟨k, hk⟩ := controlOf_of_default? (c := c) hd
    cases ho : u.isOver with
    | true => exact .inl ⟨_, (refused_of_over r ho hk h).2⟩
    | false =>
      have hg := gone_of_moves r.made (r.rest h) r.cancel r.gone
      rcases course_of_question r ho hk hd h with ⟨hopen, hmem, before, he⟩ | hasked | ⟨hr, ha⟩
      · exact .inr (.inr (delayed_of_stalled h hstalled hopen hmem (caller?_controlOf hk) hg he))
      · exact .inr (.inl hasked)
      · exact .inl ⟨_, ha⟩
  added := by
    rintro ms₁ device ms₂ ns u rfl hu ho hshutdown hclose
    rw [List.append_assoc] at h
    obtain ⟨u', v, hu', hv, hrest⟩ := h.split
    obtain rfl := hu.unique hu'
    obtain ⟨x, hx, -⟩ := hrest.append_inv
    exact newestOf_of_add hu ho hv hx hshutdown hclose
  cleared := by
    rintro ms₁ c ms₂ ns u rfl hu ho hadd
    rw [List.append_assoc] at h
    obtain ⟨u', v, hu', hv, hrest⟩ := h.split
    obtain rfl := hu.unique hu'
    obtain ⟨x, hx, -⟩ := hrest.append_inv
    exact newestOf_of_shutdown hu ho hv hx hadd

/-- A second device is asked while the first one drains. A question behind a shutdown finds no
    device. -/
def inquiring : List Move :=
  [.add 0, .control, .add 1, .control, .call 1 .mtu, .control, .answered 0 (.value (.mtu 1400)),
    .call 2 .shutdown, .call 3 .name, .control, .pollWriter, .joinWriter,
    .closeReturned ⟨1⟩ (.value ()), .joinCloser ⟨1⟩, .closeReturned ⟨2⟩ (.value ()),
    .joinCloser ⟨2⟩, .pollReader, .joinReader, .control]

def inquired : State where
  defaultMtu := 1280
  reads := { capacity := 64 }
  writes := { capacity := 64 }
  events := { capacity := 64 }
  added := 2
  tickets := 1
  calls := [⟨1, some (.mtu 1400)⟩, ⟨2, some .done⟩, ⟨3, some (.name "")⟩]

theorem questions_inquired : Run (.init {}) inquiring inquired ∧
    inquired.answer? 1 = some (.mtu 1400) ∧ inquired.answer? 3 = some (.name "") ∧
    QuestionsInOrder (.init {}) inquiring inquired := by
  have hrun : Run (.init {}) inquiring inquired := .of_foldlM rfl
  exact ⟨hrun, rfl, rfl, questions_of_run hrun⟩

/-- A caller may get its answer from no device though one was handed in and no shutdown came
    behind it: here the question is behind a close. -/
theorem closed_before_answer : ¬ ∀ (ms ns : List Move) (c : Caller) (s t u : State) (a : Answer)
    (before after : List Control) (id : DeviceId) (device : DeviceRef),
      Run (.init {}) ms s → s.isOver = false → s.step (.call c .mtu) = some t →
      (State.init {}).log sentMessages ms = before ++ .add id device :: after →
      (∀ k ∈ after, (∀ d, k ≠ .shutdown d) ∧ ∀ id' device', k ≠ .add id' device') →
      Run t ns u → u.answer? c = some a → ∃ ticket out, .answered ticket out ∈ ns := by
  intro h
  obtain ⟨ticket, out, hmem⟩ := h [.add 0, .control, .call 1 .close]
    [.control, .pollWriter, .joinWriter, .closeReturned ⟨1⟩ (.value ()), .joinCloser ⟨1⟩,
      .pollReader, .joinReader] 2 _ _ _ (.failed .closed) [] [.close 1] ⟨1⟩ 0 (.of_foldlM rfl) rfl
    rfl rfl (by simp) (.of_foldlM rfl) rfl
  simp at hmem

end

end State

end SeamlessTunnel.Multiplexer
