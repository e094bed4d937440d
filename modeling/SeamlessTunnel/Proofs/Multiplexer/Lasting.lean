import SeamlessTunnel.Proofs.Multiplexer.Answering
import SeamlessTunnel.Proofs.Multiplexer.Telling
/-
  SeamlessTunnel.Proofs.Multiplexer.Lasting — an answer waits until its caller takes it.

  Once a caller has its answer, no other answer takes its place, whatever the tasks, the
  devices and the other callers do (`answer?_of_step`). So what a caller takes is the first
  thing that it was told.
-/

namespace SeamlessTunnel.Multiplexer.State

/-- Between two states no answer is lost or changed. -/
def Lasting (s t : State) : Prop :=
  ∀ c a, s.answer? c = some a → t.answer? c = some a

section

variable {s t u : State} {m : Move} {c d : Caller} {a : Answer} {cs : List Caller}

namespace Lasting

/-! ## Parts of moves -/

theorem of_calls (h : t.calls = s.calls) : Lasting s t := fun _ _ ha =>
  (answer?_congr h).trans ha

theorem trans (h : Lasting s t) (h' : Lasting t u) : Lasting s u := fun c a ha =>
  h' c a (h c a ha)

theorem answer : Lasting s (s.answer c a) := fun _ _ ha =>
  answer?_answer_of_some ha

theorem refuse : Lasting s (s.refuse cs) := fun _ _ ha =>
  answer?_refuse_of_some ha

theorem shutReads : Lasting s s.shutReads :=
  trans (t := { s with reads := s.reads.shut }) (of_calls rfl) refuse

theorem shutWrites : Lasting s s.shutWrites :=
  trans (t := { s with writes := s.writes.shut }) (of_calls rfl) refuse

theorem releaseParked : Lasting s s.releaseParked := by
  unfold State.releaseParked
  split
  · exact answer.trans (of_calls rfl)
  · exact of_calls rfl

theorem finish : Lasting s s.finish := fun _ _ ha =>
  answer?_finish ha

theorem endTeardown (cause : Teardown) : Lasting s (s.endTeardown cause) := by
  cases cause with
  | shutdown c =>
    exact releaseParked.trans (trans (t := { s.releaseParked with coordinator := .serving })
      (of_calls rfl) answer)
  | close c => exact releaseParked.trans (answer.trans finish)
  | released => exact releaseParked.trans finish

theorem settleTeardown : Lasting s s.settleTeardown := by
  rcases settleTeardown_cases s with ⟨he, -⟩ | ⟨cause, -, -, he⟩
  · rw [he]
    exact of_calls rfl
  · rw [he]
    exact endTeardown cause

theorem dropReads : Lasting s s.dropReads := by
  unfold State.dropReads
  split
  · exact shutReads.trans (of_calls rfl)
  · exact of_calls rfl

theorem dropWrites : Lasting s s.dropWrites := by
  unfold State.dropWrites
  split
  · exact shutWrites.trans (of_calls rfl)
  · exact of_calls rfl

theorem dropReader : Lasting s s.dropReader := by
  unfold State.dropReader
  repeat' split
  · exact of_calls rfl
  · exact trans (t := { s with reader := none }) (of_calls rfl) (shutReads.trans refuse)
  · exact of_calls rfl
  · exact of_calls rfl
  · exact of_calls rfl

theorem dropWriter : Lasting s s.dropWriter := by
  unfold State.dropWriter
  repeat' split
  · exact of_calls rfl
  · exact trans (t := { s with writer := none }) (of_calls rfl) shutWrites
  · exact of_calls rfl
  · exact of_calls rfl
  · exact of_calls rfl
  · exact of_calls rfl

theorem dropPumps : Lasting s s.dropReads.dropReader.dropWrites.dropWriter :=
  dropReads.trans (dropReader.trans (dropWrites.trans dropWriter))

theorem dropControl : Lasting s s.dropControl :=
  trans (t := { s with coordinator := .crashed, control := [], closers := [], parked := none })
    (of_calls rfl) refuse

theorem crash : Lasting s s.crash := by
  rw [crash_eq]
  exact dropControl.trans dropPumps

theorem act (h : Act s t) : Lasting s t := by
  cases h with
  | @answer c rest a => exact trans (t := { s with control := rest }) (of_calls rfl) answer
  | ask => exact of_calls rfl
  | fail closers => exact trans (t := { s with closers }) (of_calls rfl) crash
  | handle _ hh =>
    obtain ⟨_, _, _, _, _, _, _, _, he⟩ := hh.eq
    refine trans (of_calls ?_) settleTeardown
    rw [he]

theorem stopReader {pump : ReadPump} {exit : ReadExit} : Lasting s (s.stopReader pump exit) :=
  fun _ _ ha => answer?_stopReader ha

theorem stopWriter {pump : WritePump} {exit : WriteExit} : Lasting s (s.stopWriter pump exit) := by
  unfold State.stopWriter
  simp only []
  split
  · exact trans (t := { s.dropForwarder with writer := none }) (of_calls rfl) shutWrites
  · exact of_calls rfl

theorem pollReader (hs : s.pollReader = some t) : Lasting s t := by
  obtain ⟨pump, -, ⟨_, -, rfl⟩ | ⟨-, -, rfl⟩ | ⟨_, _, -, -, -, rfl⟩ | ⟨-, -, -, rfl⟩⟩ :=
    pollReader_cases hs
  · exact of_calls rfl
  · exact stopReader
  · exact of_calls rfl
  · exact stopReader

theorem readReturned {out : Outcome Packet} (hs : s.readReturned out = some t) : Lasting s t := by
  obtain ⟨pump, r, -, -, ⟨p, -, rfl⟩ | ⟨e, -, -, rfl⟩ | ⟨e, -, -, rfl⟩ | ⟨-, rfl⟩⟩ :=
    readReturned_cases hs
  · exact trans (t := { s with reader := some { pump with stage := .ready none } })
      (of_calls rfl) answer
  · exact stopReader
  · exact answer.trans stopReader
  · exact trans (t := { s with
      reader := if s.isOver then none else some { pump with stage := .crashed } })
      (of_calls rfl) (refuse.trans shutReads)

theorem pollWriter (hs : s.pollWriter = some t) : Lasting s t := by
  obtain ⟨pump, -, ⟨-, -, rfl⟩ | ⟨-, rfl⟩ | ⟨_, _, -, -, -, rfl⟩ | ⟨-, -, -, rfl⟩⟩ :=
    pollWriter_cases hs
  · exact stopWriter
  · exact of_calls rfl
  · exact of_calls rfl
  · exact stopWriter

theorem writeReturned {out : Outcome Nat} (hs : s.writeReturned out = some t) : Lasting s t := by
  obtain ⟨pump, r, -, -, ⟨_, -, rfl⟩ | ⟨-, rfl⟩⟩ := writeReturned_cases hs
  · exact trans (t := { s with writer := some { pump with stage := .ready } })
      (of_calls rfl) answer
  · exact trans (t := { s with
      writer := if s.isOver then none else some { pump with stage := .crashed } })
      (of_calls rfl) (refuse.trans shutWrites)

theorem call {op : Operation} (hs : s.call c op = some t) : Lasting s t := by
  have hlisted : Lasting s (s.enlist c) := fun _ _ ha => answer?_enlist.trans ha
  obtain ⟨-, ⟨_, -, rfl⟩ | ⟨_, -, rfl⟩ | ⟨-, rfl⟩ | ⟨_, -, -, rfl⟩ | rfl⟩ := call_cases hs
  · exact hlisted.trans (of_calls rfl)
  · exact hlisted.trans (of_calls rfl)
  · exact hlisted.trans (of_calls rfl)
  · exact hlisted.trans (of_calls rfl)
  · exact hlisted.trans refuse

end Lasting

/-! ## Moves -/

/-- An answer that is there stays until its caller takes it or gives up. -/
theorem answer?_of_step (hset : s.isOver = false → Settled s) (hs : s.step m = some t)
    (hleave : m ≠ .leave c) (hcancel : m ≠ .cancel c) (ha : s.answer? c = some a) :
    t.answer? c = some a := by
  have hlasting : Lasting s t → t.answer? c = some a := fun hl => hl c a ha
  have hwork : m.isWork = true → t.answer? c = some a := fun hm =>
    hlasting (.act ((hset (isOver_of_isWork hm hs)).act hm hs))
  cases m with
  | call d op => exact hlasting (.call hs)
  | enter d =>
    obtain ⟨_, -, rfl⟩ | ⟨_, -, rfl⟩ := enter_cases hs
    · exact ha
    · exact ha
  | leave d =>
    obtain ⟨_, -, rfl⟩ := leave_cases hs
    obtain ⟨_, he⟩ := releaseEvents_eq { s with calls := s.calls.filter (·.caller != d) }
    rw [he]
    exact (answer?_filter_of_ne fun he => hleave (by rw [he])).trans ha
  | cancel d =>
    obtain ⟨-, rfl⟩ := cancel_cases hs
    obtain ⟨_, he⟩ := releaseEvents_eq (s.quit d)
    rw [he]
    exact (answer?_filter_of_ne fun he => hcancel (by rw [he])).trans ha
  | add device =>
    obtain rfl := step_add hs
    obtain ⟨_, he⟩ := add_parts s device
    rw [he]
    exact ha
  | release =>
    obtain ⟨_, rfl⟩ := release_cases hs
    exact ha
  | control => exact hwork rfl
  | joinReader => exact hwork rfl
  | joinWriter => exact hwork rfl
  | joinCloser id => exact hwork rfl
  | pollReader => exact hlasting (.pollReader hs)
  | pollWriter => exact hlasting (.pollWriter hs)
  | pollForwarder =>
    obtain ⟨_, _, rfl⟩ := pollForwarder_eq hs
    exact ha
  | takeEvent =>
    obtain ⟨d, rest, _, events, -, rfl⟩ := takeEvent_eq hs
    exact answer?_answer_of_some (s := { s with events, listeners := rest }) ha
  | readReturned out => exact hlasting (.readReturned hs)
  | writeReturned out => exact hlasting (.writeReturned hs)
  | eventReturned out =>
    obtain ⟨_, _, rfl⟩ := eventReturned_eq hs
    exact ha
  | closeReturned id out =>
    obtain ⟨-, rfl⟩ := closeReturned_cases hs
    exact ha
  | lateCloseReturned id =>
    obtain rfl := lateCloseReturned_cases hs
    exact ha
  | answered ticket out =>
    obtain ⟨q, _, -, rfl⟩ := answered_cases hs
    exact answer?_answer_of_some
      (s := { s with queries := s.queries.filter (·.ticket != ticket) }) ha

/-! ## Runs -/

variable {settings : MultiplexerSettings} {ms ns past : List Move}

theorem answer?_of_moves (h : Run (.init settings) ms s) (k : Run s ns t) (hleave : .leave c ∉ ns)
    (hcancel : .cancel c ∉ ns) (ha : s.answer? c = some a) : t.answer? c = some a := by
  induction k generalizing ms with
  | nil => exact ha
  | cons hs _ ih =>
    simp only [List.mem_cons, not_or] at hleave hcancel
    exact ih (h.snoc hs) hleave.2 hcancel.2
      (answer?_of_step (settled_of_run h) hs (Ne.symm hleave.1) (Ne.symm hcancel.1) ha)

/-- A caller that does not give up is not gone. -/
theorem gone_of_moves (h : Run (.init settings) ms s) (k : Run s ns t) (hcancel : .cancel c ∉ ns)
    (hg : c ∉ s.gone) : c ∉ t.gone := by
  induction k generalizing ms with
  | nil => exact hg
  | cons hs _ ih =>
    simp only [List.mem_cons, not_or] at hcancel
    refine ih (h.snoc hs) hcancel.2 ?_
    rcases gone_of_step (settled_of_run h) hs with he | ⟨d, rfl, he⟩
    · rwa [he]
    · rw [he, List.mem_append, List.mem_singleton]
      rintro (hmem | rfl)
      · exact hg hmem
      · exact hcancel.1 rfl

/-- What every move keeps for a caller that stays is kept over moves. -/
theorem kept_of_moves {p : List Move → State → Prop} (h : Run (.init settings) past s)
    (hg : c ∉ s.gone) (step : ∀ {ns t m u}, Run s ns t → c ∉ t.gone → m ≠ .leave c →
      m ≠ .cancel c → t.step m = some u → p ns t → p (ns ++ [m]) u)
    (hrun : Run s ns t) (hp : p ns t) (hmoves : Run t ms u) (hleave : .leave c ∉ ns ++ ms)
    (hcancel : .cancel c ∉ ns ++ ms) : p (ns ++ ms) u := by
  refine hmoves.snocRec (p := fun ms u => .leave c ∉ ns ++ ms → .cancel c ∉ ns ++ ms →
    p (ns ++ ms) u) ?_ ?_ hleave hcancel
  · intro _ _
    rwa [List.append_nil]
  · intro ms t' m u hmoves ih hm hleave hcancel
    rw [← List.append_assoc, List.mem_append, List.mem_singleton, not_or] at hleave hcancel
    have hbefore := hrun.append hmoves
    rw [← List.append_assoc]
    exact step hbefore (gone_of_moves h hbefore hcancel.1 hg) (Ne.symm hleave.2)
      (Ne.symm hcancel.2) hm (ih hleave.1 hcancel.1)

end

end SeamlessTunnel.Multiplexer.State
