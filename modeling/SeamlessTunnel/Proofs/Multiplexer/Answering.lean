import SeamlessTunnel.Proofs.Multiplexer.Accounts
/-
  SeamlessTunnel.Proofs.Multiplexer.Answering — moves that are not a caller's own.

  Callers come, take their answers and give up by moves of their own. All that other moves
  do to them is to answer some (`Answering`, `answering_of_step`). So what is known of a
  caller changes by its own moves alone, but that it may be answered (`callers_of_step`,
  `gone_of_step`, `awaits_of_step`).
-/

namespace SeamlessTunnel.Multiplexer

/-- Whether a move is a caller's own, or the owner's who lets go. -/
def Move.isHolder : Move → Bool
  | .call _ _ | .leave _ | .cancel _ | .release => true
  | _ => false

/-- The caller whose own move it is. -/
def Move.caller? : Move → Option Caller
  | .call c _ | .leave c | .cancel c => some c
  | _ => none

namespace State

/-- The owner keeps hold, and no caller but one comes or goes. -/
structure OthersKept (c : Caller) (s t : State) : Prop where
  held : t.held = s.held
  callers : ∀ d, d ≠ c → (d ∈ t.callers ↔ d ∈ s.callers)
  gone : ∀ d, d ≠ c → (d ∈ t.gone ↔ d ∈ s.gone)

/-- Nothing happens to callers but that some are answered. -/
structure Answering (s t : State) : Prop where
  callers : t.callers = s.callers
  gone : t.gone = s.gone
  held : t.held = s.held
  awaits : ∀ c, t.awaits c = true → s.awaits c = true

section

variable {s t u : State} {c : Caller} {cs : List Caller} {m : Move}

namespace Answering

/-! ## Parts of moves -/

theorem of_eq (hcalls : t.calls = s.calls) (hgone : t.gone = s.gone) (hheld : t.held = s.held) :
    Answering s t :=
  ⟨by rw [State.callers, hcalls]; rfl, hgone, hheld, fun c h => by
    rwa [State.awaits, hcalls] at h⟩

theorem refl : Answering s s :=
  of_eq rfl rfl rfl

theorem trans (h : Answering s t) (h' : Answering t u) : Answering s u :=
  ⟨h'.callers.trans h.callers, h'.gone.trans h.gone, h'.held.trans h.held,
    fun c hc => h.awaits c (h'.awaits c hc)⟩

theorem answer {a : Answer} : Answering s (s.answer c a) :=
  ⟨callers_answer, rfl, rfl, fun _ h => (awaits_answer.1 h).1⟩

theorem refuse : Answering s (s.refuse cs) :=
  refuse_rec (p := Answering s) refl fun _ _ h => h.trans answer

theorem shutReads : Answering s s.shutReads :=
  trans (t := { s with reads := s.reads.shut }) (of_eq rfl rfl rfl) refuse

theorem shutWrites : Answering s s.shutWrites :=
  trans (t := { s with writes := s.writes.shut }) (of_eq rfl rfl rfl) refuse

theorem dropReads : Answering s s.dropReads := by
  unfold State.dropReads
  split
  · exact shutReads.trans (of_eq rfl rfl rfl)
  · exact refl

theorem dropWrites : Answering s s.dropWrites := by
  unfold State.dropWrites
  split
  · exact shutWrites.trans (of_eq rfl rfl rfl)
  · exact refl

theorem dropQueues : Answering s s.dropReads.dropWrites :=
  dropReads.trans dropWrites

theorem endControl : Answering s s.endControl :=
  trans (t := { s with
    coordinator := .ended
    control := []
    lateCloses := s.lateCloses ++ lateDevices s.control }) (of_eq rfl rfl rfl) refuse

theorem finish : Answering s s.finish :=
  endControl.trans dropQueues

theorem releaseParked : Answering s s.releaseParked := by
  unfold State.releaseParked
  split
  · exact answer.trans (of_eq rfl rfl rfl)
  · exact of_eq rfl rfl rfl

theorem endTeardown (cause : Teardown) : Answering s (s.endTeardown cause) := by
  cases cause with
  | shutdown c =>
    exact releaseParked.trans (trans (t := { s.releaseParked with coordinator := .serving })
      (of_eq rfl rfl rfl) answer)
  | close c => exact releaseParked.trans (answer.trans finish)
  | released => exact releaseParked.trans finish

theorem settleTeardown : Answering s s.settleTeardown := by
  rcases settleTeardown_cases s with ⟨he, -⟩ | ⟨cause, -, -, he⟩
  · rw [he]
    exact refl
  · rw [he]
    exact endTeardown cause

theorem dropReader : Answering s s.dropReader := by
  unfold State.dropReader
  repeat' split
  · exact refl
  · exact trans (t := { s with reader := none }) (of_eq rfl rfl rfl) (shutReads.trans refuse)
  · exact of_eq rfl rfl rfl
  · exact refl
  · exact refl

theorem dropWriter : Answering s s.dropWriter := by
  unfold State.dropWriter
  repeat' split
  · exact refl
  · exact trans (t := { s with writer := none }) (of_eq rfl rfl rfl) shutWrites
  · exact of_eq rfl rfl rfl
  · exact refl
  · exact refl
  · exact refl

theorem dropPumps : Answering s s.dropReads.dropReader.dropWrites.dropWriter :=
  dropReads.trans (dropReader.trans (dropWrites.trans dropWriter))

theorem dropControl : Answering s s.dropControl :=
  trans (t := { s with coordinator := .crashed, control := [], closers := [], parked := none })
    (of_eq rfl rfl rfl) refuse

theorem crash : Answering s s.crash := by
  rw [crash_eq]
  exact dropControl.trans dropPumps

theorem act (h : Act s t) : Answering s t := by
  cases h with
  | @answer c rest a hc =>
    exact trans (t := { s with control := rest }) (of_eq rfl rfl rfl) answer
  | ask => exact of_eq rfl rfl rfl
  | fail closers => exact trans (t := { s with closers }) (of_eq rfl rfl rfl) crash
  | handle hc hh =>
    obtain ⟨_, _, _, _, _, _, _, _, he⟩ := hh.eq
    refine trans (of_eq ?_ ?_ ?_) settleTeardown
    all_goals rw [he]

theorem stopReader {pump : ReadPump} {exit : ReadExit} : Answering s (s.stopReader pump exit) := by
  unfold State.stopReader
  split
  · exact trans (t := { s with reader := none }) (of_eq rfl rfl rfl) (shutReads.trans refuse)
  · exact of_eq rfl rfl rfl

theorem stopWriter {pump : WritePump} {exit : WriteExit} :
    Answering s (s.stopWriter pump exit) := by
  unfold State.stopWriter
  simp only []
  split
  · exact trans (t := { s.dropForwarder with writer := none }) (of_eq rfl rfl rfl) shutWrites
  · exact of_eq rfl rfl rfl

theorem pollReader (hs : s.pollReader = some t) : Answering s t := by
  obtain ⟨pump, -, ⟨_, -, rfl⟩ | ⟨-, -, rfl⟩ | ⟨_, _, -, -, -, rfl⟩ | ⟨-, -, -, rfl⟩⟩ :=
    pollReader_cases hs
  · exact of_eq rfl rfl rfl
  · exact stopReader
  · exact of_eq rfl rfl rfl
  · exact stopReader

theorem readReturned {out : Outcome Packet} (hs : s.readReturned out = some t) :
    Answering s t := by
  obtain ⟨pump, r, -, -, ⟨p, -, rfl⟩ | ⟨e, -, -, rfl⟩ | ⟨e, -, -, rfl⟩ | ⟨-, rfl⟩⟩ :=
    readReturned_cases hs
  · exact trans (t := { s with reader := some { pump with stage := .ready none } })
      (of_eq rfl rfl rfl) answer
  · exact stopReader
  · exact answer.trans stopReader
  · refine trans (t := { s with
      reader := if s.isOver then none else some { pump with stage := .crashed } })
      (of_eq rfl rfl rfl) (refuse.trans shutReads)

theorem pollWriter (hs : s.pollWriter = some t) : Answering s t := by
  obtain ⟨pump, -, ⟨-, -, rfl⟩ | ⟨-, rfl⟩ | ⟨_, _, -, -, -, rfl⟩ | ⟨-, -, -, rfl⟩⟩ :=
    pollWriter_cases hs
  · exact stopWriter
  · exact of_eq rfl rfl rfl
  · exact of_eq rfl rfl rfl
  · exact stopWriter

theorem writeReturned {out : Outcome Nat} (hs : s.writeReturned out = some t) :
    Answering s t := by
  obtain ⟨pump, r, -, -, ⟨_, -, rfl⟩ | ⟨-, rfl⟩⟩ := writeReturned_cases hs
  · exact trans (t := { s with writer := some { pump with stage := .ready } })
      (of_eq rfl rfl rfl) answer
  · refine trans (t := { s with
      writer := if s.isOver then none else some { pump with stage := .crashed } })
      (of_eq rfl rfl rfl) (refuse.trans shutWrites)

end Answering

/-! ## Moves -/

theorem answering_of_step (hset : s.isOver = false → Settled s) (hm : m.isHolder = false)
    (hs : s.step m = some t) : Answering s t := by
  have hwork : m.isWork = true → Answering s t := fun hm =>
    .act ((hset (isOver_of_isWork hm hs)).act hm hs)
  cases m with
  | call c op => cases hm
  | leave c => cases hm
  | cancel c => cases hm
  | release => cases hm
  | enter c =>
    obtain ⟨_, -, rfl⟩ | ⟨_, -, rfl⟩ := enter_cases hs
    · exact .of_eq rfl rfl rfl
    · exact .of_eq rfl rfl rfl
  | add device =>
    obtain rfl := step_add hs
    obtain ⟨_, he⟩ := add_parts s device
    rw [he]
    exact .of_eq rfl rfl rfl
  | control => exact hwork rfl
  | joinReader => exact hwork rfl
  | joinWriter => exact hwork rfl
  | joinCloser id => exact hwork rfl
  | pollReader => exact .pollReader hs
  | pollWriter => exact .pollWriter hs
  | pollForwarder =>
    obtain ⟨_, _, rfl⟩ := pollForwarder_eq hs
    exact .of_eq rfl rfl rfl
  | takeEvent =>
    obtain ⟨c, rest, _, events, -, rfl⟩ := takeEvent_eq hs
    exact .trans (t := { s with events, listeners := rest }) (.of_eq rfl rfl rfl) .answer
  | readReturned out => exact .readReturned hs
  | writeReturned out => exact .writeReturned hs
  | eventReturned out =>
    obtain ⟨_, _, rfl⟩ := eventReturned_eq hs
    exact .of_eq rfl rfl rfl
  | closeReturned id out =>
    obtain ⟨-, rfl⟩ := closeReturned_cases hs
    exact .of_eq rfl rfl rfl
  | lateCloseReturned id =>
    obtain rfl := lateCloseReturned_cases hs
    exact .of_eq rfl rfl rfl
  | answered ticket out =>
    obtain ⟨q, _, -, rfl⟩ := answered_cases hs
    exact .trans (t := { s with queries := s.queries.filter (·.ticket != ticket) })
      (.of_eq rfl rfl rfl) .answer

/-! ## Callers' own moves -/

theorem callers_call {op : Operation} (hs : s.call c op = some t) :
    t.callers = s.callers ++ [c] ∧ t.gone = s.gone ∧ t.held = s.held := by
  have hlisted : (s.enlist c).callers = s.callers ++ [c] := by simp [State.callers, enlist]
  obtain ⟨-, ⟨_, -, rfl⟩ | ⟨_, -, rfl⟩ | ⟨-, rfl⟩ | ⟨_, -, -, rfl⟩ | rfl⟩ := call_cases hs
  · exact ⟨hlisted, rfl, rfl⟩
  · exact ⟨hlisted, rfl, rfl⟩
  · exact ⟨hlisted, rfl, rfl⟩
  · exact ⟨hlisted, rfl, rfl⟩
  · exact ⟨callers_refuse.trans hlisted, gone_refuse, held_refuse⟩

theorem callers_leave (hs : s.leave c = some t) :
    t.callers = s.callers.filter (· != c) ∧ t.gone = s.gone ∧ t.held = s.held := by
  obtain ⟨_, -, rfl⟩ := leave_cases hs
  obtain ⟨_, he⟩ := releaseEvents_eq { s with calls := s.calls.filter (·.caller != c) }
  rw [he]
  exact ⟨by simp [State.callers, List.filter_map, Function.comp_def], rfl, rfl⟩

theorem callers_cancel (hs : s.cancel c = some t) :
    t.callers = s.callers.filter (· != c) ∧ t.gone = s.gone ++ [c] ∧ t.held = s.held := by
  obtain ⟨-, rfl⟩ := cancel_cases hs
  obtain ⟨_, he⟩ := releaseEvents_eq (s.quit c)
  rw [he]
  exact ⟨by simp [State.callers, quit, List.filter_map, Function.comp_def], rfl, rfl⟩

theorem callers_add (device : DeviceRef) : (s.add device).2.callers = s.callers ∧
    (s.add device).2.gone = s.gone ∧ (s.add device).2.held = s.held := by
  obtain ⟨_, he⟩ := add_parts s device
  rw [he]
  exact ⟨rfl, rfl, rfl⟩

theorem release_cases (hs : s.release = some t) :
    ∃ events, t = { s with held := false, events } := by
  unfold release at hs
  split at hs
  · obtain rfl := Option.some.inj hs
    exact releaseEvents_eq { s with held := false }
  · cases hs

/-- A caller is listed, and counts as gone, by its own moves. -/
theorem callers_of_step (hset : s.isOver = false → Settled s) (hs : s.step m = some t)
    (hm : m.caller? ≠ some c) : (c ∈ t.callers ↔ c ∈ s.callers) ∧ (c ∈ t.gone ↔ c ∈ s.gone) := by
  have hother : ∀ d, m.caller? = some d → c ≠ d := fun d hd he => hm (he ▸ hd)
  cases hholder : m.isHolder with
  | false =>
    have ha := answering_of_step hset hholder hs
    rw [ha.callers, ha.gone]
    exact ⟨.rfl, .rfl⟩
  | true =>
    cases m with
    | call d op =>
      obtain ⟨hc, hg, -⟩ := callers_call hs
      rw [hc, hg]
      exact ⟨by simp [hother d rfl], .rfl⟩
    | leave d =>
      obtain ⟨hc, hg, -⟩ := callers_leave hs
      rw [hc, hg]
      exact ⟨by simp [hother d rfl], .rfl⟩
    | cancel d =>
      obtain ⟨hc, hg, -⟩ := callers_cancel hs
      rw [hc, hg]
      exact ⟨by simp [hother d rfl], by simp [hother d rfl]⟩
    | release =>
      obtain ⟨_, rfl⟩ := release_cases hs
      exact ⟨.rfl, .rfl⟩
    | _ => cases hholder

/-- Only the owner lets go of the multiplexer. -/
theorem held_of_step (hset : s.isOver = false → Settled s) (hs : s.step m = some t)
    (hm : m ≠ .release) : t.held = s.held := by
  cases hholder : m.isHolder with
  | false => exact (answering_of_step hset hholder hs).held
  | true =>
    cases m with
    | call d op => exact (callers_call hs).2.2
    | leave d => exact (callers_leave hs).2.2
    | cancel d => exact (callers_cancel hs).2.2
    | release => exact absurd rfl hm
    | _ => cases hholder

theorem OthersKept.refl : OthersKept c s s :=
  ⟨rfl, fun _ _ => .rfl, fun _ _ => .rfl⟩

theorem OthersKept.trans (h : OthersKept c s t) (h' : OthersKept c t u) : OthersKept c s u :=
  ⟨h'.held.trans h.held, fun d hd => (h'.callers d hd).trans (h.callers d hd),
    fun d hd => (h'.gone d hd).trans (h.gone d hd)⟩

theorem OthersKept.call {op : Operation} (hs : s.call c op = some t) : OthersKept c s t := by
  obtain ⟨hc, hg, hheld⟩ := callers_call hs
  exact ⟨hheld, fun d hd => by simp [hc, hd], fun d _ => by rw [hg]⟩

theorem OthersKept.leave (hs : s.leave c = some t) : OthersKept c s t := by
  obtain ⟨hc, hg, hheld⟩ := callers_leave hs
  exact ⟨hheld, fun d hd => by simp [hc, hd], fun d _ => by rw [hg]⟩

theorem OthersKept.cancel (hs : s.cancel c = some t) : OthersKept c s t := by
  obtain ⟨hc, hg, hheld⟩ := callers_cancel hs
  exact ⟨hheld, fun d hd => by simp [hc, hd], fun d hd => by simp [hg, hd]⟩

theorem OthersKept.add (device : DeviceRef) : OthersKept c s (s.add device).2 := by
  obtain ⟨hc, hg, hheld⟩ := callers_add (s := s) device
  exact ⟨hheld, fun d _ => by rw [hc], fun d _ => by rw [hg]⟩

theorem held_of_after (hset : s.isOver = false → Settled s) (hs : s.step m = some t)
    (hheld : t.held = true) : s.held = true := by
  by_cases hrelease : m = .release
  · subst hrelease
    obtain ⟨_, rfl⟩ := release_cases hs
    cases hheld
  · rwa [held_of_step hset hs hrelease] at hheld

theorem held_of_run {settings : MultiplexerSettings} {ms ns : List Move}
    (h : Run (.init settings) ms s) (k : Run s ns t) (hheld : t.held = true) : s.held = true := by
  induction k generalizing ms with
  | nil => exact hheld
  | cons hs _ ih => exact held_of_after (settled_of_run h) hs (ih (h.snoc hs) hheld)

/-- A caller that is not listed can make a call, unless it gave one up. -/
theorem exists_call (hheld : s.held = true) (hc : c ∉ s.callers) (hg : c ∉ s.gone)
    (op : Operation) : ∃ t, s.step (.call c op) = some t := by
  have hnew : ¬ (!s.held || s.calls.any (·.caller = c) || s.gone.contains c) = true := by
    simpa [hheld, State.callers, hg] using hc
  change ∃ t, s.call c op = some t
  unfold call
  rw [if_neg hnew]
  cases op with
  | nextEvent => exact ⟨_, rfl⟩
  | _ =>
    simp only []
    split
    · exact ⟨_, rfl⟩
    · exact ⟨_, rfl⟩

/-- A caller that has its answer can take it, and does nothing else. -/
theorem leave_eq {a : Answer} (h : s.answer? c = some a) :
    ∃ calls events, s.leave c = some { s with calls, events } := by
  obtain ⟨events, he⟩ := releaseEvents_eq { s with calls := s.calls.filter (·.caller != c) }
  rw [leave, h]
  exact ⟨_, events, congrArg some he⟩

/-- A caller begins to wait by a call. -/
theorem awaits_of_step (hset : s.isOver = false → Settled s) (hs : s.step m = some t)
    (hm : ∀ op, m ≠ .call c op) (hw : t.awaits c = true) : s.awaits c = true := by
  have hfilter : ∀ {u : State} {d : Caller}, u.calls = s.calls.filter (·.caller != d) →
      u.awaits c = true → s.awaits c = true := fun hu hw => by
    obtain ⟨k, hk, hc, hn⟩ := awaits_iff.1 hw
    exact awaits_iff.2 ⟨k, (List.mem_filter.1 (hu ▸ hk)).1, hc, hn⟩
  cases hholder : m.isHolder with
  | false => exact (answering_of_step hset hholder hs).awaits c hw
  | true =>
    cases m with
    | call d op =>
      have hne : c ≠ d := fun he => hm op (by rw [he])
      have hlisted : (s.enlist d).awaits c = true → s.awaits c = true := fun hw =>
        (awaits_enlist.1 hw).resolve_right hne
      obtain ⟨-, ⟨_, -, rfl⟩ | ⟨_, -, rfl⟩ | ⟨-, rfl⟩ | ⟨_, -, -, rfl⟩ | rfl⟩ := call_cases hs
      · exact hlisted hw
      · exact hlisted hw
      · exact hlisted hw
      · exact hlisted hw
      · exact hlisted (awaits_refuse.1 hw).1
    | leave d =>
      obtain ⟨_, -, rfl⟩ := leave_cases hs
      obtain ⟨_, he⟩ := releaseEvents_eq { s with calls := s.calls.filter (·.caller != d) }
      exact hfilter (by rw [he]) hw
    | cancel d =>
      obtain ⟨-, rfl⟩ := cancel_cases hs
      obtain ⟨_, he⟩ := releaseEvents_eq (s.quit d)
      exact hfilter (by rw [he]; rfl) hw
    | release =>
      obtain ⟨_, rfl⟩ := release_cases hs
      exact hw
    | _ => cases hholder

end

end State

end SeamlessTunnel.Multiplexer
