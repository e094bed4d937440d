import SeamlessTunnel.Proofs.Multiplexer.Clearing
import SeamlessTunnel.Proofs.Multiplexer.Reads
import SeamlessTunnel.Proofs.Multiplexer.Targets
/-
  SeamlessTunnel.Proofs.Multiplexer.Finality — a close that has its answer is final.

  A close stays on the agenda until the coordinator is over (`pending_of_run`). So once a
  caller has learned that the multiplexer is closed, the coordinator is over, and unless a
  device has crashed it has ended with a close at the front of its agenda
  (`closed_of_returned`).

  A coordinator that has ended leaves no task behind, and queues that are shut
  (`shut_of_run`). All later calls are refused at once, but those that listen for events.
-/

namespace SeamlessTunnel.Multiplexer

namespace State

/-- Whether, in the course of a run, a call to close has come to an end and its caller has
    not given up. -/
def CloseReturned (s₀ : State) (ms : List Move) : Prop :=
  ∃ ms₁ ms₂ ms₃ c s, ms = ms₁ ++ .call c .close :: (ms₂ ++ ms₃) ∧
    Run s₀ (ms₁ ++ .call c .close :: ms₂) s ∧ .cancel c ∉ ms₂ ∧ s.awaits c = false

/-- Whether the coordinator has ended with a close. -/
def ClosedBy (s₀ : State) (ms : List Move) : Prop :=
  ∃ ms₁ m ms₂ s t c rest, ms = ms₁ ++ m :: ms₂ ∧ Run s₀ ms₁ s ∧ s.step m = some t ∧
    s.isOver = false ∧ t.coordinator = .ended ∧ s.agenda = .close c :: rest

/-- Whether a device has crashed a task. -/
def Crashed (ms : List Move) : Prop :=
  ∃ m ∈ ms, m.isCrash = true

/-- What a coordinator that has ended leaves behind. -/
structure Shut (s : State) : Prop where
  ended : s.coordinator = .ended
  slots : s.slots = []
  control : s.control = []
  parked : s.parked = none
  reader : s.reader = none
  writer : s.writer = none
  forwarder : s.forwarder = none
  closers : s.closers = []
  reads : s.reads.isOpen = false ∧ s.reads.contents = []
  writes : s.writes.isOpen = false ∧ s.writes.contents = []

section

variable {s₀ s t u : State} {m : Move} {ms ns : List Move} {c : Caller}
variable {settings : MultiplexerSettings}

theorem CloseReturned.append (h : CloseReturned s₀ ms) : CloseReturned s₀ (ms ++ ns) := by
  obtain ⟨ms₁, ms₂, ms₃, c, s, rfl, h⟩ := h
  exact ⟨ms₁, ms₂, ms₃ ++ ns, c, s, by simp, h⟩

theorem ClosedBy.append (h : ClosedBy s₀ ms) : ClosedBy s₀ (ms ++ ns) := by
  obtain ⟨ms₁, m, ms₂, s, t, c, rest, rfl, h⟩ := h
  exact ⟨ms₁, m, ms₂ ++ ns, s, t, c, rest, by simp, h⟩

theorem Crashed.append (h : Crashed ms) : Crashed (ms ++ ns) := by
  obtain ⟨m, hm, hc⟩ := h
  exact ⟨m, List.mem_append_left _ hm, hc⟩

/-! ## A coordinator that is over -/

theorem coordinator_of_moves (k : Run s ns t) (ho : s.isOver = true) :
    t.coordinator = s.coordinator := by
  induction k with
  | nil => rfl
  | cons hs _ ih => exact (ih (isOver_of_step hs ho)).trans (coordinator_of_over ho hs)

theorem isOver_of_moves (k : Run s ns t) (ho : s.isOver = true) : t.isOver = true := by
  rw [isOver, coordinator_of_moves k ho]
  exact ho

/-- The coordinator crashes only where a device has crashed a task. -/
theorem crashed_of_run (h : Run (.init settings) ms s) (hc : s.coordinator = .crashed) :
    Crashed ms := by
  refine h.snocRec (p := fun ms s => s.coordinator = .crashed → Crashed ms)
    (fun hc => by cases hc) ?_ hc
  intro ms s m t hrun ih hm hc
  cases ho : s.isOver with
  | true => exact (ih ((coordinator_of_over ho hm).symm.trans hc)).append
  | false =>
    rcases step_kinds hm with ⟨hwork, -⟩ | ⟨device, -, rfl⟩ | q
    · have hturn := turn_of_work (settled_of_run hrun ho) hwork hm
      rw [hc] at hturn
      generalize hto : Coordinator.crashed = turned at hturn
      cases hturn with
      | same => simp [isOver, ← hto] at ho
      | begun => cases hto
      | @done cause => cases cause <;> cases hto
      | crashed hcrashing => exact Crashed.append (((grounded_of_run hrun).1 ho).crashing hcrashing)
    · obtain ⟨_, he⟩ := add_parts s device
      rw [he] at hc
      exact (ih hc).append
    · exact (ih (q.coordinator.symm.trans hc)).append

theorem ClosedBy.ended (h : ClosedBy (.init settings) ms) (hrun : Run (.init settings) ms s) :
    s.coordinator = .ended := by
  obtain ⟨ms₁, m, ms₂, u, v, c, rest, rfl, hu, hm, -, hv, -⟩ := h
  obtain ⟨u', v', hu', hm', hrest⟩ := hrun.split
  obtain rfl := hu.unique hu'
  obtain rfl := Option.some.inj (hm.symm.trans hm')
  rw [coordinator_of_moves hrest (by simp [isOver, hv]), hv]

/-! ## Until a close has its answer -/

/-- A move with which the coordinator comes to its end while somebody holds the
    multiplexer. -/
theorem closedBy_of_step (h : Run (.init settings) ms s) (hlive : s.hasHandle = true)
    (hs : s.step m = some t) (hopen : s.isOver = false) (ho : t.isOver = true) :
    ClosedBy (.init settings) (ms ++ [m]) ∨ Crashed (ms ++ [m]) := by
  cases advance_of_live h hlive hs with
  | same ho' => simp [ho', hopen] at ho
  | sent _ ho' => simp [ho', hopen] at ho
  | done _ _ hc => simp [isOver, hc] at ho
  | stopped _ hc =>
    rcases hc with hc | ⟨hc, c, rest, hagenda⟩
    · exact .inr (crashed_of_run (h.snoc hs) hc)
    · exact .inl ⟨ms, m, [], s, t, c, rest, rfl, h, hs, hopen, hc, hagenda⟩

/-- A coordinator that is over while somebody holds the multiplexer was closed, or a device
    has crashed. -/
theorem closedBy_of_over (h : Run (.init settings) ms s) (ho : s.isOver = true)
    (hlive : s.hasHandle = true) : ClosedBy (.init settings) ms ∨ Crashed ms := by
  refine h.snocRec (p := fun ms s => s.isOver = true → s.hasHandle = true →
    ClosedBy (.init settings) ms ∨ Crashed ms) (fun ho => by cases ho) ?_ ho hlive
  intro ms s m t hrun ih hm ho hlive
  cases hopen : s.isOver with
  | true =>
    refine (ih hopen ?_).imp .append .append
    rcases step_kinds hm with ⟨-, hn⟩ | ⟨device, -, rfl⟩ | q
    · rw [hopen] at hn
      cases hn
    · obtain ⟨_, he⟩ := add_parts s device
      rw [he] at hlive
      exact hlive
    · exact q.live hlive
  | false =>
    by_cases hc : t.coordinator = .crashed
    · exact .inr (crashed_of_run (hrun.snoc hm) hc)
    · refine closedBy_of_step hrun ?_ hm hopen ho
      rcases step_kinds hm with ⟨hwork, -⟩ | ⟨device, -, rfl⟩ | q
      · rw [← ((settled_of_run hrun hopen).act hwork hm).hasHandle hc]
        exact hlive
      · obtain ⟨_, he⟩ := add_parts s device
        rw [he] at hlive
        exact hlive
      · exact q.live hlive

/-- A close is on the agenda from its call until the coordinator is over. -/
theorem pending_of_run (h : Run (.init settings) ms s) (k : Run s ns t) (hg : c ∉ s.gone)
    (hn : .cancel c ∉ ns) (ho : s.isOver = false) (ha : .close c ∈ s.agenda) :
    (t.isOver = false ∧ .close c ∈ t.agenda ∧ c ∉ t.gone) ∨
      t.isOver = true ∧ (ClosedBy (.init settings) (ms ++ ns) ∨ Crashed (ms ++ ns)) := by
  induction k generalizing ms with
  | nil => exact .inl ⟨ho, ha, hg⟩
  | @cons s u t m ns hs k ih =>
    have hafter := h.snoc hs
    have hgone : c ∉ u.gone := by
      rcases gone_of_step (settled_of_run h) hs with he | ⟨d, rfl, he⟩
      · exact he ▸ hg
      · rw [he]
        refine fun hmem => (List.mem_append.1 hmem).elim hg fun hd => hn ?_
        rw [List.mem_singleton.1 hd]
        exact List.mem_cons_self ..
    have hlive : s.hasHandle = true := by
      have hw := (awaits_of_agenda h ha rfl).resolve_right hg
      have hcallers := List.ne_nil_of_mem (mem_callers_of_awaits hw)
      simp [hasHandle_eq, hcallers]
    have hrest := ih hafter hgone fun hmem => hn (List.mem_cons_of_mem _ hmem)
    rw [List.append_assoc] at hrest
    cases hover : u.isOver with
    | true =>
      have hwhy : ClosedBy (.init settings) (ms ++ [m] ++ ns) ∨ Crashed (ms ++ [m] ++ ns) :=
        (closedBy_of_step h hlive hs ho hover).imp .append .append
      rw [List.append_assoc] at hwhy
      exact .inr ⟨isOver_of_moves k hover, hwhy⟩
    | false =>
      refine hrest hover ?_
      cases advance_of_live h hlive hs with
      | same _ he => exact he ▸ ha
      | sent _ _ he => exact he ▸ List.mem_append_left _ ha
      | done he he' _ hd =>
        rw [he] at ha
        rcases List.mem_cons.1 ha with rfl | ha
        · cases hd
        · exact he' ▸ ha
      | stopped _ hc => rcases hc with hc | ⟨hc, -⟩ <;> simp [isOver, hc] at hover

theorem call_close (hs : s.call c .close = some t) :
    s.hasHandle = true ∧ c ∉ t.gone ∧ (s.isOver = true ∨ t.isOver = false ∧ .close c ∈ t.agenda) := by
  obtain ⟨⟨hheld, -, hg⟩, -⟩ := call_cases hs
  have hgone : t.gone = s.gone := (callers_call hs).2.1
  refine ⟨by simp [hasHandle, hheld], hgone ▸ hg, ?_⟩
  have hcall : (if s.isOver then some ((s.enlist c).refuse [c]) else
      some { s.enlist c with control := s.control ++ [.close c] }) = some t := by
    unfold call at hs
    split at hs
    · cases hs
    · exact hs
  cases ho : s.isOver with
  | true => exact .inl rfl
  | false =>
    rw [ho] at hcall
    obtain rfl := Option.some.inj hcall
    exact .inr ⟨ho, by simp [agenda]⟩

/-- Once a close has its answer the coordinator is over: it was closed, or a device has
    crashed. -/
theorem closed_of_returned (h : Run (.init settings) ms s)
    (hc : CloseReturned (.init settings) ms) :
    s.isOver = true ∧ (ClosedBy (.init settings) ms ∨ Crashed ms) := by
  obtain ⟨ms₁, ms₂, ms₃, c, u, rfl, hu, hn, hw⟩ := hc
  obtain ⟨v, v', hv, hcall, hrest⟩ := hu.split
  have hsplit : ms₁ ++ .call c .close :: (ms₂ ++ ms₃) = ms₁ ++ .call c .close :: ms₂ ++ ms₃ := by simp
  rw [hsplit] at h ⊢
  obtain ⟨u', hu', hlater⟩ := h.append_inv
  obtain rfl := hu.unique hu'
  suffices hover : u.isOver = true ∧ (ClosedBy (.init settings) (ms₁ ++ .call c .close :: ms₂) ∨
      Crashed (ms₁ ++ .call c .close :: ms₂)) from
    ⟨isOver_of_moves hlater hover.1, hover.2.imp .append .append⟩
  obtain ⟨hlive, hg, ho | ⟨ho, ha⟩⟩ := call_close hcall
  · exact ⟨isOver_of_moves (.cons hcall hrest) ho,
      (closedBy_of_over hv ho hlive).imp .append .append⟩
  · have hafter := hv.snoc hcall
    have hpending := pending_of_run hafter hrest hg hn ho ha
    rw [List.append_assoc] at hpending
    rcases hpending with ⟨ho, ha, hg⟩ | hover
    · -- its caller would still wait
      rw [((awaits_of_agenda hu ha rfl).resolve_right hg)] at hw
      cases hw
    · exact hover

/-! ## What is left -/

/-- A coordinator that ends with both queues in its hands drops both. -/
theorem finish_of_holder (hr : s.holdsReads = true) (hw : s.holdsWrites = true) :
    s.finish = { State.shutWrites { s.endControl.shutReads with holdsReads := false } with
      holdsWrites := false } := by
  obtain ⟨_, _, hend⟩ := endControl_eq s
  have hreads : s.endControl.dropReads = { s.endControl.shutReads with holdsReads := false } := by
    rw [dropReads, hend, if_pos hr]
  obtain ⟨_, _, hshut⟩ := shutReads_eq s.endControl
  rw [finish_eq, hreads, dropWrites, hshut, hend, if_pos hw]

theorem Shut.finish (hslots : s.slots = []) (hparked : s.parked = none) (hr : s.reader = none)
    (hw : s.writer = none) (hf : s.forwarder = none) (hc : s.closers = [])
    (hreads : s.holdsReads = true) (hwrites : s.holdsWrites = true) : Shut s.finish := by
  have hfinish := finish_of_holder hreads hwrites
  obtain ⟨_, _, _, _, _, _, hparts⟩ := finish_parts s
  have hshut : ∀ {α : Type} {b : Mailbox α} (b' : Mailbox α), b = b'.shut →
      b.isOpen = false ∧ b.contents = [] := by
    rintro _ _ b' rfl
    exact ⟨rfl, rfl⟩
  refine ⟨coordinator_finish s, ?_, ?_, ?_, ?_, ?_, ?_, ?_, ?_, ?_⟩
  · rw [hparts]
    exact hslots
  · rw [hparts]
  · rw [hparts]
    exact hparked
  · rw [hparts]
    exact hr
  · rw [hparts]
    exact hw
  · rw [hparts]
    exact hf
  · rw [hparts]
    exact hc
  · exact hshut s.endControl.reads (by rw [hfinish]; simp)
  · exact hshut s.endControl.shutReads.writes (by rw [hfinish]; simp)

/-- Nothing starts a forwarder for a coordinator that is over. -/
theorem forwarder_of_over (hset : s.isOver = false → Settled s) (ho : s.isOver = true)
    (hn : s.forwarder = none) (hs : s.step m = some t) : t.forwarder = none := by
  by_cases hm : m.isEventful = true
  · cases m with
    | pollWriter =>
      obtain ⟨pump, hp, h⟩ := Option.bind_eq_some_iff.1 (show s.pollWriter = some t from hs)
      simp only [ho, Bool.true_or, if_true] at h
      split at h
      · obtain rfl := Option.some.inj h
        exact forwarder_stopWriter.1
      · obtain rfl := Option.some.inj h
        exact forwarder_stopWriter.1
      · cases h
    | pollForwarder =>
      obtain ⟨f, hf, -⟩ := pollForwarder_cases hs
      cases hn.symm.trans hf
    | takeEvent =>
      obtain ⟨_, _, _, _, -, rfl⟩ := takeEvent_eq hs
      exact hn
    | eventReturned out =>
      obtain ⟨f, hf, -⟩ := eventReturned_cases hs
      cases hn.symm.trans hf
    | _ => cases hm
  · rw [(unheard_of_step hset hs (by simpa using hm)).forwarder]
    exact hn

/-- The move with which the coordinator ends leaves nothing running. -/
theorem Shut.of_step (h : Run (.init settings) ms s) (hs : s.step m = some t)
    (hopen : s.isOver = false) (he : t.coordinator = .ended) : Shut t := by
  have hset := settled_of_run h
  have hover : t.isOver = true := by simp [isOver, he]
  rcases step_kinds hs with ⟨hwork, -⟩ | ⟨device, -, rfl⟩ | q
  · rcases (hset hopen).before hwork hs with rfl | ⟨u, b⟩
    · rw [coordinator_crash] at he
      cases he
    · have hnil := slots_eq_nil_of_over b.working (by rw [← b.eq]; exact hover)
      obtain ⟨hreader, hwriter, hclosers⟩ := b.tended.coherent.idle hnil
      have hreads := b.tended.coherent.holdsReads_iff.2 hreader
      have hwrites := b.tended.coherent.holdsWrites_iff.2 hwriter
      have ht := b.eq
      obtain ⟨_, _, _, _, _, _, _, _, _, _, hparts⟩ := settleTeardown_parts u
      -- a forwarder would have its write pump with it
      have hforwarder : u.forwarder = none := by
        have hsame : t.forwarder = u.forwarder := by rw [ht, hparts]
        rw [← hsame, (unheard_of_step hset hs (by cases m <;> first | rfl | cases hwork)).forwarder]
        by_contra hf
        have hgone : t.writer = none := by rw [ht, hparts]; exact hwriter
        rcases (targets_of_run h).follows hf with ⟨ho, -⟩ | hlive
        · rw [hopen] at ho
          cases ho
        · cases writer_of_work (hset hopen) hwork hs with
          | kept hw =>
            obtain ⟨pump, hp, -⟩ := hlive
            cases (hw.symm.trans hgone).symm.trans hp
          | dropped hc => cases he.symm.trans hc
          | freed hfree => exact hlive.not_free hfree
          | started _ hfree => exact hlive.not_free hfree
      rcases settleTeardown_cases u with ⟨hsame, -⟩ | ⟨cause, -, -, hend⟩
      · have hwork := b.working
        rw [← hsame, ← ht, hover] at hwork
        cases hwork
      · rw [ht, hend] at he ⊢
        cases cause with
        | shutdown c => cases he
        | close c =>
          obtain ⟨_, hs⟩ := endShutdown_eq u c
          rw [endClose_eq]
          refine .finish ?_ ?_ ?_ ?_ ?_ ?_ ?_ ?_ <;> rw [hs] <;> assumption
        | released =>
          obtain ⟨_, hs⟩ := releaseParked_eq u
          refine .finish ?_ ?_ ?_ ?_ ?_ ?_ ?_ ?_ <;> rw [hs] <;> assumption
  · rw [isOver_add, hopen] at hover
    cases hover
  · rw [q.isOver, hopen] at hover
    cases hover

namespace Shut

theorem isOver (h : Shut s) : s.isOver = true := by
  simp [State.isOver, h.ended]

/-- All calls but those that listen are refused. -/
theorem call_cases (h : Shut s) {op : Operation} (hs : s.call c op = some t) :
    (op = .nextEvent ∧ t = { s.enlist c with listeners := s.listeners ++ [c] }) ∨
      op ≠ .nextEvent ∧ t = (s.enlist c).refuse [c] := by
  unfold call at hs
  split at hs
  · cases hs
  · have ho : (s.enlist c).isOver = true := h.isOver
    rw [enlist] at ho
    cases op with
    | nextEvent => exact .inl ⟨rfl, (Option.some.inj hs).symm⟩
    | _ =>
      simp only [ho, h.reads.1, h.writes.1] at hs
      exact .inr ⟨by simp, (Option.some.inj hs).symm⟩

theorem empty_of_contents {α : Type} {b : Mailbox α} (h : b.isOpen = false ∧ b.contents = [])
    (p : α → Bool) : (b.withdraw p).isOpen = false ∧ (b.withdraw p).contents = [] := by
  refine ⟨h.1, List.eq_nil_of_length_eq_zero ?_⟩
  have hle := (Mailbox.sublist_withdraw (m := b) (p := p)).length_le
  rw [h.2] at hle
  exact Nat.le_zero.1 hle

theorem enter_eq_none {α : Type} {b : Mailbox α} (h : b.contents = []) (p : α → Bool) :
    b.enter p = none := by
  have hnil : b.admitted = [] := (List.append_eq_nil_iff.1 (List.append_eq_nil_iff.1 h).1).2
  simp [Mailbox.enter, hnil]

theorem step (h : Shut s) (hset : s.isOver = false → Settled s) (hs : s.step m = some t) : Shut t := by
  have hforwarder := forwarder_of_over hset h.isOver h.forwarder hs
  have hwork : m.isWork = true → Shut t := fun hm => by
    have hopen := isOver_of_isWork hm hs
    rw [h.isOver] at hopen
    cases hopen
  cases m with
  | call c op =>
    rcases h.call_cases hs with ⟨-, rfl⟩ | ⟨-, rfl⟩
    · exact { h with }
    · obtain ⟨_, he⟩ := refuse_eq (s.enlist c) [c]
      rw [he]
      exact { h with }
  | enter c =>
    rcases enter_cases hs with ⟨_, hr, -⟩ | ⟨_, hw, -⟩
    · cases (enter_eq_none h.reads.2 _).symm.trans hr
    · cases (enter_eq_none h.writes.2 _).symm.trans hw
  | leave c =>
    obtain ⟨_, -, rfl⟩ := leave_cases hs
    obtain ⟨_, he⟩ := releaseEvents_eq { s with calls := s.calls.filter (·.caller != c) }
    rw [he]
    exact { h with }
  | cancel c =>
    obtain ⟨-, rfl⟩ := cancel_cases hs
    obtain ⟨_, he⟩ := releaseEvents_eq (s.quit c)
    rw [he]
    exact { h with reads := empty_of_contents h.reads _, writes := empty_of_contents h.writes _ }
  | add device =>
    obtain rfl := step_add hs
    have he : (s.add device).2 = { s with added := s.added + 1 } := by simp [State.add, h.isOver]
    rw [he]
    exact { h with }
  | release =>
    obtain ⟨_, rfl⟩ := release_cases hs
    exact { h with }
  | control => exact hwork rfl
  | joinReader => exact hwork rfl
  | joinWriter => exact hwork rfl
  | joinCloser id => exact hwork rfl
  | pollReader =>
    obtain ⟨pump, hp, -⟩ := pollReader_cases hs
    cases h.reader.symm.trans hp
  | pollWriter =>
    obtain ⟨pump, hp, -⟩ := pollWriter_cases hs
    cases h.writer.symm.trans hp
  | pollForwarder =>
    obtain ⟨f, hf, -⟩ := pollForwarder_cases hs
    cases h.forwarder.symm.trans hf
  | takeEvent =>
    obtain ⟨_, _, _, _, -, rfl⟩ := takeEvent_eq hs
    exact { h with }
  | readReturned out =>
    obtain ⟨pump, _, hp, -⟩ := readReturned_cases hs
    cases h.reader.symm.trans hp
  | writeReturned out =>
    obtain ⟨pump, _, hp, -⟩ := writeReturned_cases hs
    cases h.writer.symm.trans hp
  | eventReturned out =>
    obtain ⟨f, hf, -⟩ := eventReturned_cases hs
    cases h.forwarder.symm.trans hf
  | closeReturned id out =>
    obtain ⟨⟨k, hk, -⟩, -⟩ := closeReturned_cases hs
    rw [h.closers] at hk
    cases hk
  | lateCloseReturned id =>
    obtain rfl := lateCloseReturned_cases hs
    exact { h with }
  | answered ticket out =>
    obtain ⟨_, _, -, rfl⟩ := answered_cases hs
    exact { h with }

end Shut

/-- A coordinator that has ended leaves no task behind. -/
theorem shut_of_run (h : Run (.init settings) ms s) (he : s.coordinator = .ended) : Shut s := by
  refine h.snocRec (p := fun _ s => s.coordinator = .ended → Shut s) (fun he => by cases he) ?_ he
  intro ms s m t hrun ih hm he
  cases ho : s.isOver with
  | true => exact (ih ((coordinator_of_over ho hm).symm.trans he)).step (settled_of_run hrun) hm
  | false => exact .of_step hrun hm ho he

end

end State

end SeamlessTunnel.Multiplexer
