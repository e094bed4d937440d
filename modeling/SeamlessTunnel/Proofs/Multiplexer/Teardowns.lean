import SeamlessTunnel.Proofs.Multiplexer.Messages
/-
  SeamlessTunnel.Proofs.Multiplexer.Teardowns — what a teardown returns.

  A teardown keeps in mind the close failure that was reported to it last, and nothing from
  before it began (`Tearing`). When it ends, no device and no task is left (`Vacated`), its
  caller learns of that failure, and after a shutdown the next device that comes is the
  target of reads and writes (`Resumes`). So a caller that asks for a shutdown or a close is
  told of the last failure among the devices that were listed when its teardown began, or
  that all went well (`teardowns_of_run`).

  It is told that the multiplexer is closed where the coordinator stops first, and then no
  device needs to have failed to close (`closed_without_closeFailure`).
-/

namespace SeamlessTunnel.Multiplexer

/-- The teardown that a caller asks for. -/
def Operation.teardown? (c : Caller) : Operation → Option Teardown
  | .shutdown => some (.shutdown c)
  | .close => some (.close c)
  | .read _ | .write _ | .mtu | .name | .count | .nextEvent => none

/-- What a teardown returns after these close failures were reported to it. -/
def teardownResult (reports : List (DeviceId × TunnelError)) : Answer :=
  match State.lastFailure reports with
  | some e => .failed e
  | none => .done

namespace State

/-- A teardown that goes on, since it began in the state `b`. -/
structure Tearing (cause : Teardown) (b : State) (ns : List Move) (u : State) : Prop where
  run : Run b ns u
  lasting : ∀ ns₁ v, ns₁ <+: ns → ns₁ ≠ [] → Run b ns₁ v → v.coordinator = .tearingDown cause
  coordinator : u.coordinator = .tearingDown cause
  after : After b u
  closeError : u.closeError = lastFailure (b.log closeFailures ns)
  reports : ∀ r ∈ b.log closeFailures ns, ∃ k ∈ b.slots, k.id = r.1

/-- A teardown from the state `b`, in which its message is taken up, to its end. -/
structure TornDown (cause : Teardown) (b : State) (ns : List Move) (w : State) : Prop where
  run : Run b ns w
  begun : b.coordinator = .serving ∧ ∃ k rest, cause.message? = some k ∧ b.control = k :: rest
  lasting : ∀ ns₁ v, ns₁ <+: ns → ns₁ ≠ [] → ns₁ ≠ ns → Run b ns₁ v →
    v.coordinator = .tearingDown cause
  /-- Only devices that were listed when it began report to it. -/
  reports : ∀ r ∈ b.log closeFailures ns, ∃ k ∈ b.slots, k.id = r.1
  outcome : w.coordinator = cause.outcome

/-- What a caller is told that has asked for a teardown with the last of the moves `past`. -/
inductive TeardownReply (s₀ : State) (past : List Move) (cause : Teardown) (t : State)
    (ns : List Move) : Answer → Prop
  | result {ns₁ ns₂ ns₃ : List Move} {b w : State} (hns : ns = ns₁ ++ (ns₂ ++ ns₃))
      (hb : Run t ns₁ b) (torn : TornDown cause b ns₂ w) :
      TeardownReply s₀ past cause t ns (teardownResult (b.log closeFailures ns₂))
  | forestalled {k : Control} (hk : cause.message? = some k)
      (hf : Forestalled s₀ (past ++ ns) k) : TeardownReply s₀ past cause t ns (.failed .closed)

/-- Whether neither a device is left nor a task of one. -/
structure Vacated (s : State) : Prop where
  slots : s.slots = []
  reader : s.reader = none
  writer : s.writer = none
  forwarder : s.forwarder = none
  closers : s.closers = []

/-- Whether the next device that is taken in becomes the target of reads and writes. -/
def Resumes (s : State) : Prop :=
  ∀ ns t u id device rest, Run s ns t → s.log acceptedDevices ns = [] →
    t.control = .add id device :: rest → t.step .control = some u →
    u.reader = some ⟨id, device, .ready none⟩ ∧ u.writer = some ⟨id, device, .starting⟩

/-- Whether a teardown goes on, or a move takes up the message that asks for it. -/
def Faces (s : State) (m : Move) (cause : Teardown) : Prop :=
  s.coordinator = .tearingDown cause ∨ m = .control ∧ s.coordinator = .serving ∧
    ∃ k rest, cause.message? = some k ∧ s.control = k :: rest

/-- What the teardowns of a run come to. -/
structure Teardowns (s₀ : State) (ms : List Move) (s : State) : Prop where
  /-- Whoever has asked for one is told of the last close failure among the devices that were
      listed when it began, if any. -/
  replies : ∀ c op past u v ns cause a, Pursued s₀ ms c op past u v ns → u.isOver = false →
    op.teardown? c = some cause → s.answer? c = some a →
    TeardownReply s₀ (past ++ [.call c op]) cause v ns a
  /-- It is told where no task can make a move and devices owe no close. -/
  answered : ∀ c op past u v ns cause, Pursued s₀ ms c op past u v ns → u.isOver = false →
    op.teardown? c = some cause → s.Stalled → s.Listening → ∃ a, s.answer? c = some a
  /-- When one ends nothing of a device is left, whatever it returns. -/
  ended : ∀ ms₁ m ms₂ u v cause, ms = ms₁ ++ m :: ms₂ → Run s₀ ms₁ u → u.step m = some v →
    u.Faces m cause → v.coordinator = cause.outcome →
    Vacated v ∧ (v.coordinator = .serving → Resumes v)

/-- Where a teardown has got that a caller has asked for. -/
inductive TeardownStage (s₀ : State) (past : List Move) (cause : Teardown) (c : Caller) (t : State)
    (ns : List Move) (u : State) : Prop
  | tearing {ns₁ ns₂ : List Move} {b : State} (hns : ns = ns₁ ++ ns₂) (hb : Run t ns₁ b)
      (begun : b.coordinator = .serving ∧
        ∃ k rest, cause.message? = some k ∧ b.control = k :: rest)
      (h : Tearing cause b ns₂ u) : TeardownStage s₀ past cause c t ns u
  | replied {a : Answer} (hr : TeardownReply s₀ past cause t ns a) (ha : u.answer? c = some a) :
      TeardownStage s₀ past cause c t ns u

section

variable {s₀ s t u v w x y b : State} {m : Move} {c : Caller} {id : DeviceId} {a : Answer}
variable {cause : Teardown} {past ms ns : List Move} {settings : MultiplexerSettings}
variable {reports : List (DeviceId × TunnelError)}

theorem TeardownReply.append (h : TeardownReply s₀ past cause t ns a) (ms : List Move) :
    TeardownReply s₀ past cause t (ns ++ ms) a := by
  cases h with
  | result hns hb torn =>
    exact .result (by rw [hns, List.append_assoc, List.append_assoc]) hb torn
  | forestalled hk hf => exact .forestalled hk (by rw [← List.append_assoc]; exact hf.append)

theorem teardownAnswer_eq (h : s.closeError = lastFailure reports) :
    s.teardownAnswer = teardownResult reports := by
  cases hl : lastFailure reports <;> simp [teardownAnswer, teardownResult, h, hl]

/-! ## After a shutdown -/

/-- The coordinator parks nothing but what a read pump has left. -/
theorem Act.parked (h : Act s t) (hr : s.reader = none) (hp : s.parked = none) :
    t.parked = none := by
  cases h with
  | answer a hc => exact hp
  | ask hq hc => exact hp
  | fail closers =>
    obtain ⟨_, _, _, _, _, _, _, he, -⟩ := crash_parts { s with closers }
    rw [he]
  | @handle control coordinator u hc hh =>
    have hcarried : u.carried = [] := by
      rw [hh.carried]
      simp [carried, inRead, hr, hp]
    have hu : u.parked = none := by
      rw [carried, List.append_eq_nil_iff] at hcarried
      exact Option.toList_eq_nil_iff.1 hcarried.2
    rcases settleTeardown_cases u with ⟨he, -⟩ | ⟨cause, -, -, he⟩
    · rw [he]
      exact hu
    · rw [he]
      exact parked_endTeardown cause

/-- The first device of all is read and written at once. -/
theorem addSlot_of_vacant {device : DeviceRef} (hcoh : Coherent s) (hs : s.slots = [])
    (hp : s.parked = none) :
    (s.addSlot id device).reader = some ⟨id, device, .ready none⟩ ∧
      (s.addSlot id device).writer = some ⟨id, device, .starting⟩ := by
  obtain ⟨hr, hw, -⟩ := hcoh.idle hs
  have hreads := hcoh.holdsReads_iff.2 hr
  have hwrites := hcoh.holdsWrites_iff.2 hw
  simp [addSlot, ensureWriter, ensureReader, updateSlot, hs, hw, hp, hreads, hwrites]

theorem resumes (h : Run (.init settings) ms w) (hs : w.slots = []) (hp : w.parked = none) :
    w.Resumes := by
  intro ns x y id device rest hx hnone hcontrol hy
  obtain ⟨hserving, -⟩ := takeControl_cases hy
  have hvacant : w.log acceptedDevices ns = [] → x.isOver = false →
      x.slots = [] ∧ x.parked = none := by
    refine hx.snocRec (p := fun ns x => w.log acceptedDevices ns = [] → x.isOver = false →
      x.slots = [] ∧ x.parked = none) (fun _ _ => ⟨hs, hp⟩) ?_
    intro ns x m y hrun ih hm hnone ho
    rw [hrun.log_snoc hm, List.append_eq_nil_iff] at hnone
    have hopen := isOver_eq_false_of_step hm ho
    obtain ⟨hslots, hparked⟩ := ih hnone.1 hopen
    have hset := settled_of_run (h.append hrun) hopen
    refine ⟨?_, ?_⟩
    · have hall := hnone.2
      simpa [acceptedDevices, hslots] using hall
    · rcases step_kinds hm with ⟨hwork, -⟩ | ⟨device, -, rfl⟩ | q
      · exact (hset.act hwork hm).parked (hset.tended.coherent.idle hslots).1 hparked
      · rw [add_eq hopen]
        exact hparked
      · exact q.parked.trans hparked
  have ho : x.isOver = false := by simp [isOver, hserving]
  obtain ⟨hslots, hparked⟩ := hvacant hnone ho
  have hkept := (settled_of_run (h.append hx) ho).tended.toKept.takeControl hcontrol
  obtain ⟨-, ⟨k, rest', hk, rfl⟩ | ⟨hk, -⟩⟩ := takeControl_cases hy
  · rw [hcontrol] at hk
    obtain ⟨rfl, rfl⟩ := List.cons.inj hk
    exact addSlot_of_vacant hkept.coherent hslots hparked
  · rw [hcontrol] at hk
    cases hk

/-! ## The end of a teardown -/

theorem caller?_of_message? {k : Control} (hk : cause.message? = some k) :
    k.caller? = cause.caller? := by
  cases cause <;> cases hk <;> rfl

/-- The caller of a teardown that ends learns its result. -/
theorem answer?_endTeardown_of_caller (hacc : Accounted s) (hcause : s.coordinator = .tearingDown cause)
    (hc : cause.caller? = some c) (hw : s.awaits c = true) :
    (s.endTeardown cause).answer? c = some s.teardownAnswer := by
  -- nothing is kept for a caller twice
  have hone := List.nodup_iff_count_le_one.1 hacc.once c
  rw [count_places, count_readers, count_askers, count_carried, hcause] at hone
  have hmine : (Coordinator.tearingDown cause).caller?.toList.count c = 1 := by
    show cause.caller?.toList.count c = 1
    simp [hc]
  have hparked : c ∉ callersOf s.parked := fun hp => by
    have hpos := List.count_pos_iff.2 hp
    rw [callersOf] at hpos
    omega
  have hwaits := awaits_releaseParked hw hparked
  have hcallers : s.releaseParked.callers.Nodup := by
    rw [callers_releaseParked]
    exact hacc.callers
  cases cause with
  | shutdown d =>
    obtain rfl := Option.some.inj hc
    exact answer?_answer_self (s := { s.releaseParked with coordinator := .serving }) hcallers hwaits
  | close d =>
    obtain rfl := Option.some.inj hc
    exact answer?_finish (answer?_answer_self hcallers hwaits)
  | released => cases hc

/-- A forwarder goes with its write pump, unless that crashes. -/
theorem forwarder_of_idle (h : Run (.init settings) ms s) (hw : s.writer = none)
    (hc : s.coordinator ≠ .crashed) : s.forwarder = none := by
  by_contra hf
  rcases (targets_of_run h).follows hf with ⟨ho, -⟩ | ⟨pump, hp, -⟩
  · have hended : s.coordinator = .ended := by
      cases hs : s.coordinator <;> simp_all [isOver]
    exact hf (shut_of_run h hended).forwarder
  · cases hw.symm.trans hp

/-- A teardown that may end goes on, or has come to its end. -/
theorem tearing_or_tornDown (hrun : Run b ns u) (hs : u.step m = some x.settleTeardown)
    (begun : b.coordinator = .serving ∧ ∃ k rest, cause.message? = some k ∧ b.control = k :: rest)
    (lasting : ∀ ns₁ v, ns₁ <+: ns → ns₁ ≠ [] → Run b ns₁ v → v.coordinator = .tearingDown cause)
    (hc : x.coordinator = .tearingDown cause) (after : After b x)
    (closeError : x.closeError = lastFailure (b.log closeFailures (ns ++ [m])))
    (reports : ∀ r ∈ b.log closeFailures (ns ++ [m]), ∃ k ∈ b.slots, k.id = r.1) :
    Tearing cause b (ns ++ [m]) x.settleTeardown ∨
      x.settleTeardown = x.endTeardown cause ∧ TornDown cause b (ns ++ [m]) x.settleTeardown := by
  have hafter := hrun.snoc hs
  rcases settleTeardown_cases x with ⟨he, -⟩ | ⟨cause', hc', -, he⟩
  · left
    rw [he] at hafter ⊢
    refine ⟨hafter, fun ns₁ v hp hne hv => ?_, hc, after, closeError, reports⟩
    rcases List.prefix_concat_iff.1 hp with rfl | hp
    · rw [hv.unique hafter, hc]
    · exact lasting ns₁ v hp hne hv
  · obtain rfl : cause' = cause := Coordinator.tearingDown.inj (hc'.symm.trans hc)
    refine .inr ⟨he, hafter, begun, fun ns₁ v hp hne hproper hv => ?_, reports, ?_⟩
    · exact lasting ns₁ v ((List.prefix_concat_iff.1 hp).resolve_left hproper) hne hv
    · rw [he, coordinator_endTeardown]

/-- A teardown that has come to its end has told its caller. -/
theorem replied_of_settle {k : Control} (hb : Run t ms b) (hk : cause.message? = some k)
    (hkc : k.caller? = some c) (hacc : Accounted x) (hc : x.coordinator = .tearingDown cause)
    (hw : x.awaits c = true) (closeError : x.closeError = lastFailure (b.log closeFailures ns))
    (torn : TornDown cause b ns x.settleTeardown) (he : x.settleTeardown = x.endTeardown cause) :
    TeardownStage (.init settings) past cause c t (ms ++ ns) x.settleTeardown := by
  have hreply : TeardownReply (.init settings) past cause t (ms ++ ns)
      (teardownResult (b.log closeFailures ns)) :=
    .result (show ms ++ ns = ms ++ (ns ++ []) by rw [List.append_nil]) hb torn
  refine .replied hreply ?_
  rw [he, ← teardownAnswer_eq closeError]
  exact answer?_endTeardown_of_caller hacc hc ((caller?_of_message? hk).symm.trans hkc) hw

/-! ## Where a teardown has got -/

/-- A message that asks for a teardown begins it. -/
theorem step_control_of_message? {k : Control} {rest : List Control} (hk : cause.message? = some k)
    (hcontrol : s.control = k :: rest) (hs : s.step .control = some t) :
    t = (State.closeAll { s with control := rest } cause).settleTeardown := by
  obtain ⟨-, ⟨k', rest', he, rfl⟩ | ⟨he, -⟩⟩ := takeControl_cases hs
  · obtain ⟨rfl, rfl⟩ := List.cons.inj (hcontrol.symm.trans he)
    cases cause <;> cases hk <;> rfl
  · cases hcontrol.symm.trans he

theorem stage_of_begun {k : Control} {rest : List Control} (h : Run (.init settings) past t)
    (hb : Run t ns b) (hserving : b.coordinator = .serving) (hk : cause.message? = some k)
    (hkc : k.caller? = some c) (hcontrol : b.control = k :: rest) (hg : c ∉ b.gone)
    (hs : b.step .control = some y) :
    TeardownStage (.init settings) past cause c t (ns ++ [.control]) y := by
  have hrun := h.append hb
  have hset := settled_of_run hrun (by simp [isOver, hserving])
  have hagenda : b.agenda = k :: rest := by
    rw [agenda_of_message?_eq_none (by rw [hserving]; rfl), hcontrol]
  have hw : b.awaits c = true :=
    (awaits_of_agenda hrun (hagenda ▸ List.mem_cons_self) hkc).resolve_right hg
  have hsteady := ((hset.taken hcontrol).tended.toKept.closeAll cause).2
  have hhandled : Handled { b with control := rest, coordinator := .tearingDown cause }
      (State.closeAll { b with control := rest } cause) :=
    Handled.closeAll (s := { b with control := rest }) cause
  have hhanding : Accounted { b with control := rest, coordinator := .tearingDown cause } := by
    refine (accounted_of_run hrun).handing ?_
    rw [hserving, hcontrol, controlCallers_cons, caller?_of_message? hk]
    rfl
  have hacc := hhanding.handled hhandled
  have hnone : b.log closeFailures ([] ++ [.control]) = [] := by
    rw [(Run.nil b).log_snoc hs]
    rfl
  obtain ⟨_, _, hx⟩ := closeAll_eq { b with control := rest } cause
  have herror : (State.closeAll { b with control := rest } cause).closeError =
      lastFailure (b.log closeFailures ([] ++ [.control])) := by
    rw [hnone, hx]
    rfl
  have begun : b.coordinator = .serving ∧ ∃ k rest, cause.message? = some k ∧ b.control = k :: rest :=
    ⟨hserving, k, rest, hk, hcontrol⟩
  obtain rfl := step_control_of_message? hk hcontrol hs
  rcases tearing_or_tornDown (.nil b) hs begun
    (fun ns₁ v hp hne _ => absurd (List.prefix_nil.1 hp) hne) (coordinator_closeAll cause)
    hsteady.after herror (fun r hr => by rw [hnone] at hr; cases hr) with hgoing | ⟨he, htorn⟩
  · exact .tearing rfl hb begun hgoing
  · exact replied_of_settle hb hk hkc hacc (coordinator_closeAll cause)
      (by rwa [awaits_congr (s := b) (by rw [hx])]) herror htorn he

theorem closeError_of_step (hm : m.isWork = false) (hs : s.step m = some t) :
    t.closeError = s.closeError := by
  by_cases hn : ∃ ticket out, m = .answered ticket out
  · obtain ⟨ticket, out, rfl⟩ := hn
    obtain ⟨_, _, -, rfl⟩ := answered_cases hs
    rfl
  · have hledger := ledger_of_step hm (fun ticket out he => hn ⟨ticket, out, he⟩) hs
    simp only [ledger, Prod.mk.injEq] at hledger
    exact hledger.2.2.2

/-- A teardown takes no notice of what others do. -/
theorem Tearing.others (h : Tearing cause b ns u) (hm : m.isWork = false)
    (hs : u.step m = some v) : Tearing cause b (ns ++ [m]) v := by
  have hrecords := records_of_step hm hs
  have hnone : closeFailures u m v = [] := by
    cases m <;> first | rfl | cases hm
  have hlog : b.log closeFailures (ns ++ [m]) = b.log closeFailures ns := by
    rw [h.run.log_snoc hs, hnone, List.append_nil]
  have hafter := h.run.snoc hs
  have hcause : v.coordinator = .tearingDown cause := hrecords.1.trans h.coordinator
  refine ⟨hafter, fun ns₁ w hp hne hw => ?_, hcause, h.after.trans (.of_slots hrecords.2), ?_, ?_⟩
  · rcases List.prefix_concat_iff.1 hp with rfl | hp
    · rw [hw.unique hafter, hcause]
    · exact h.lasting ns₁ w hp hne hw
  · rw [closeError_of_step hm hs, h.closeError, hlog]
  · rw [hlog]
    exact h.reports

/-- A task that is joined in a teardown. -/
theorem Tearing.join {k : Control} (hgoing : Tearing cause b ns u) (h : Run (.init settings) past t)
    (hb : Run t ms b) (begun : b.coordinator = .serving ∧
      ∃ k rest, cause.message? = some k ∧ b.control = k :: rest)
    (hk : cause.message? = some k) (hkc : k.caller? = some c) (hw : u.awaits c = true)
    (hm : m.isWork = true) (hs : u.step m = some v) (hcrash : v.coordinator ≠ .crashed) :
    TeardownStage (.init settings) past cause c t (ms ++ (ns ++ [m])) v := by
  have hall := (h.append hb).append hgoing.run
  have hset := settled_of_run hall (by simp [isOver, hgoing.coordinator])
  have hcontrol : m ≠ .control := by
    rintro rfl
    cases hgoing.coordinator.symm.trans (takeControl_cases hs).1
  rcases hset.joined hm hcontrol hs with rfl | ⟨x, hj, rfl⟩
  · exact absurd (coordinator_crash u) hcrash
  have hlog : b.log closeFailures (ns ++ [m]) =
      b.log closeFailures ns ++ u.closeFailures m x.settleTeardown := hgoing.run.log_snoc hs
  obtain ⟨_, _, _, _, _, _, _, _, hx⟩ := hj.handled.eq
  have hcause : x.coordinator = .tearingDown cause := by
    rw [hx]
    exact hgoing.coordinator
  have herror : x.closeError = lastFailure (b.log closeFailures (ns ++ [m])) := by
    rw [hlog, lastFailure_append, hj.closeError, hgoing.closeError]
    rfl
  have hreports : ∀ r ∈ b.log closeFailures (ns ++ [m]), ∃ k ∈ b.slots, k.id = r.1 := by
    intro r hr
    rw [hlog] at hr
    rcases List.mem_append.1 hr with hr | hr
    · exact hgoing.reports r hr
    · obtain ⟨l, hl, hid⟩ := hj.listed r hr
      obtain ⟨l', hl', hlater⟩ := hgoing.after l hl
      exact ⟨l', hl', hlater.id.symm.trans hid⟩
  rcases tearing_or_tornDown hgoing.run hs begun hgoing.lasting hcause
    (hgoing.after.trans hj.after) herror hreports with hgoing | ⟨he, htorn⟩
  · exact .tearing rfl hb begun hgoing
  · exact replied_of_settle hb hk hkc ((accounted_of_run hall).handled hj.handled) hcause
      (by rwa [awaits_congr (s := u) (by rw [hx])]) herror htorn he

theorem Tearing.mem_agenda {k : Control} (h : Tearing cause b ns u) (hk : cause.message? = some k) :
    k ∈ u.agenda := by
  rw [agenda, h.coordinator]
  exact List.mem_append_left _ (Option.mem_toList.2 hk)

theorem stage_of_step {k : Control} (hstage : TeardownStage (.init settings) past cause c t ns u)
    (h : Run (.init settings) past t) (hrun : Run t ns u) (hg : c ∉ u.gone)
    (hk : cause.message? = some k) (hkc : k.caller? = some c) (hleave : m ≠ .leave c)
    (hcancel : m ≠ .cancel c) (hs : u.step m = some v) :
    TeardownStage (.init settings) past cause c t (ns ++ [m]) v := by
  have hall := h.append hrun
  cases hstage with
  | @replied a hr ha =>
    exact .replied (hr.append [m]) (answer?_of_step (settled_of_run hall) hs hleave hcancel ha)
  | @tearing ns₁ ns₂ b hns hb begun hgoing =>
    have ho : u.isOver = false := by simp [isOver, hgoing.coordinator]
    have hagenda := hgoing.mem_agenda hk
    have hw : u.awaits c = true := (awaits_of_agenda hall hagenda hkc).resolve_right hg
    by_cases hcrash : v.coordinator = .crashed
    · obtain ⟨hf, ha⟩ := forestalled_of_crash hall hs ho hcrash hagenda hkc hw
      exact .replied (.forestalled hk (by rwa [← List.append_assoc])) ha
    · rw [hns, List.append_assoc]
      cases hm : m.isWork with
      | true => exact hgoing.join h hb begun hk hkc hw hm hs hcrash
      | false => exact .tearing rfl hb begun (hgoing.others hm hs)

/-! ## What its caller is told -/

theorem message?_of_teardown? {op : Operation} (h : op.teardown? c = some cause) :
    ∃ k, cause.message? = some k ∧ controlOf c op = some k ∧ k.caller? = some c := by
  cases op <;> cases h <;> exact ⟨_, rfl, rfl, rfl⟩

/-- Who has asked for a teardown waits for it, or is told what it returns. -/
theorem pending_or_replied {op : Operation} {k : Control}
    (r : Pursued (.init settings) ms c op past u v ns) (ho : u.isOver = false)
    (hk : cause.message? = some k) (hcontrol : controlOf c op = some k)
    (h : Run (.init settings) ms s) :
    (s.isOver = false ∧ k ∈ s.agenda) ∨ ∃ a, s.answer? c = some a ∧
      TeardownReply (.init settings) (past ++ [.call c op]) cause v ns a := by
  have hkc := caller?_controlOf hcontrol
  cases course_of_run r ho hcontrol h with
  | waiting ho hcontrol => exact .inl ⟨ho, List.mem_append_right _ (by simp [hcontrol])⟩
  | dropped hf ha => exact .inr ⟨_, ha, .forestalled hk hf⟩
  | @taken ns₁ ns₂ b y rest hns hb hserving hcontrol _ hy hu =>
    have hns' : ns = ns₁ ++ [.control] ++ ns₂ := by simp [hns]
    have hleave := r.leave
    have hcancel := r.cancel
    rw [hns'] at hleave hcancel ⊢
    have hgone : c ∉ b.gone := gone_of_moves r.made hb (fun hm => hcancel (by simp [hm])) r.gone
    have hbegun := stage_of_begun r.made hb hserving hk hkc hcontrol hgone hy
    cases kept_of_moves r.made r.gone (fun hrun hg hl hc hm hstage =>
      stage_of_step hstage r.made hrun hg hk hkc hl hc hm) (hb.snoc hy) hbegun hu hleave hcancel with
    | tearing _ _ _ hgoing =>
      exact .inl ⟨by simp [isOver, hgoing.coordinator], hgoing.mem_agenda hk⟩
    | replied hr ha => exact .inr ⟨_, ha, hr⟩

/-! ## What is left -/

/-- A teardown that may end goes on, or leaves no device and no task. -/
theorem vacated_of_settle (h : Run (.init settings) ms x.settleTeardown) (hx : Tended x)
    (hc : x.coordinator = .tearingDown cause) (he : x.settleTeardown.coordinator = cause.outcome) :
    Vacated x.settleTeardown ∧
      (x.settleTeardown.coordinator = .serving → Resumes x.settleTeardown) := by
  rcases settleTeardown_cases x with ⟨hsame, -⟩ | ⟨cause', -, hnil, hend⟩
  · rw [hsame, hc] at he
    cases cause <;> cases he
  · obtain ⟨hreader, hwriter, hclosers⟩ := hx.coherent.idle hnil
    have hparked : x.settleTeardown.parked = none := by
      rw [hend]
      exact parked_endTeardown cause'
    obtain ⟨_, _, _, _, _, _, _, _, _, _, hparts⟩ := settleTeardown_parts x
    have hparts' : x.settleTeardown.slots = [] ∧ x.settleTeardown.reader = none ∧
        x.settleTeardown.writer = none ∧ x.settleTeardown.closers = [] := by
      rw [hparts]
      exact ⟨hnil, hreader, hwriter, hclosers⟩
    have hforwarder : x.settleTeardown.forwarder = none := by
      refine forwarder_of_idle h hparts'.2.2.1 ?_
      rw [he]
      cases cause <;> simp [Teardown.outcome]
    exact ⟨⟨hparts'.1, hparts'.2.1, hparts'.2.2.1, hforwarder, hparts'.2.2.2⟩,
      fun _ => resumes h hparts'.1 hparked⟩

theorem vacated_of_step (h : Run (.init settings) ms s) (hs : s.step m = some t)
    (hfaces : s.Faces m cause) (he : t.coordinator = cause.outcome) :
    Vacated t ∧ (t.coordinator = .serving → Resumes t) := by
  have hafter := h.snoc hs
  rcases hfaces with hc | ⟨rfl, hserving, k, rest, hk, hcontrol⟩
  · have hset := settled_of_run h (by simp [isOver, hc])
    have hchanged : t.coordinator ≠ s.coordinator := by
      rw [he, hc]
      cases cause <;> simp [Teardown.outcome]
    cases hm : m.isWork with
    | true =>
      have hcontrol : m ≠ .control := by
        rintro rfl
        cases hc.symm.trans (takeControl_cases hs).1
      rcases hset.joined hm hcontrol hs with rfl | ⟨x, hj, rfl⟩
      · rw [coordinator_crash] at he
        cases cause <;> cases he
      · obtain ⟨_, _, _, _, _, _, _, _, hx⟩ := hj.handled.eq
        exact vacated_of_settle hafter hj.tended (by rw [hx]; exact hc) he
    | false => exact absurd (records_of_step hm hs).1 hchanged
  · have hkept := ((settled_of_run h (by simp [isOver, hserving])).taken hcontrol).tended.toKept
    obtain rfl := step_control_of_message? hk hcontrol hs
    exact vacated_of_settle hafter (hkept.closeAll cause).1 (coordinator_closeAll cause) he

/-- Over any run, a teardown returns the last close failure that was reported to it and leaves
    nothing behind. -/
theorem teardowns_of_run (h : Run (.init settings) ms s) : Teardowns (.init settings) ms s := by
  have hcase : ∀ {c op past u v ns cause}, Pursued (.init settings) ms c op past u v ns →
      u.isOver = false → Operation.teardown? c op = some cause →
      (s.answer? c = none ∧ (s.Stalled → ¬ s.Listening)) ∨ ∃ a, s.answer? c = some a ∧
        TeardownReply (.init settings) (past ++ [.call c op]) cause v ns a := by
    intro c op past u v ns cause r ho hop
    obtain ⟨k, hk, hcontrol, hkc⟩ := message?_of_teardown? hop
    rcases pending_or_replied r ho hk hcontrol h with ⟨ho, hmem⟩ | hreply
    · exact .inl (pending_of_agenda h ho hmem hkc (gone_of_moves r.made (r.rest h) r.cancel r.gone))
    · exact .inr hreply
  refine ⟨?_, ?_, fun ms₁ m ms₂ u v cause _ hu hv => vacated_of_step hu hv⟩
  · intro c op past u v ns cause a r ho hop ha
    rcases hcase r ho hop with ⟨hnone, -⟩ | ⟨a', ha', hreply⟩
    · cases hnone.symm.trans ha
    · exact Option.some.inj (ha'.symm.trans ha) ▸ hreply
  · intro c op past u v ns cause r ho hop hstalled hlistening
    rcases hcase r ho hop with ⟨-, hmoves⟩ | ⟨a, ha, -⟩
    · exact absurd hlistening (hmoves hstalled)
    · exact ⟨a, ha⟩

/-- The first device fails to close before a shutdown begins, the other two during it, the
    third one first. -/
def dismantling : List Move :=
  [.add 0, .control, .pollWriter, .add 1, .control, .pollWriter, .joinWriter,
    .closeReturned ⟨1⟩ (.failure (.closeFailed "early")), .joinCloser ⟨1⟩, .pollReader, .joinReader,
    .add 2, .control, .call 7 .shutdown, .control, .pollWriter, .joinWriter,
    .closeReturned ⟨3⟩ (.failure (.closeFailed "third")), .joinCloser ⟨3⟩,
    .closeReturned ⟨2⟩ (.failure (.closeFailed "second")), .joinCloser ⟨2⟩, .pollReader,
    .joinReader]

def dismantled : State where
  defaultMtu := 1280
  reads := { capacity := 64 }
  writes := { capacity := 64 }
  events := { capacity := 64 }
  added := 3
  calls := [⟨7, some (.failed (.closeFailed "second"))⟩]

theorem teardowns_dismantled : Run (.init {}) dismantling dismantled ∧
    dismantled.answer? 7 = some (.failed (.closeFailed "second")) ∧
    Teardowns (.init {}) dismantling dismantled := by
  have hrun : Run (.init {}) dismantling dismantled := .of_foldlM rfl
  exact ⟨hrun, rfl, teardowns_of_run hrun⟩

/-- A caller may be told that the multiplexer is closed though no device has failed to close:
    here the write pump crashes while a shutdown waits for it. -/
theorem closed_without_closeFailure : ¬ ∀ (ms ns : List Move) (c : Caller) (s t u : State)
    (e : TunnelError), Run (.init {}) ms s → s.isOver = false →
      s.step (.call c .shutdown) = some t → Run t ns u → u.answer? c = some (.failed e) →
      t.log closeFailures ns ≠ [] := by
  intro h
  exact h [.add 0, .control, .pollWriter, .call 1 (.write [7]), .pollWriter]
    [.control, .writeReturned .crash, .joinWriter] 2 _ _ _ .closed (.of_foldlM rfl) rfl rfl
    (.of_foldlM rfl) rfl rfl

end

end State

end SeamlessTunnel.Multiplexer
