import SeamlessTunnel.Proofs.Multiplexer.Endings
/-
  SeamlessTunnel.Proofs.Multiplexer.Joins — what the coordinator learns from its tasks.

  A pump that has stopped or a close that has returned is joined: the coordinator crashes if
  the task did, or else updates its records, after which a teardown may end
  (`Settled.joined`). A join adds no device and touches no message, and only a close that has
  failed is kept in mind (`Joined.closeError`).
-/

namespace SeamlessTunnel.Multiplexer.State

/-- The close failure that a move reports to the coordinator. -/
def closeFailures (s : State) (m : Move) (_ : State) : List (DeviceId × TunnelError) :=
  match m with
  | .joinCloser id =>
    match (s.closers.find? (·.id = id)).bind (·.result) with
    | some (.failure e) => [(id, e)]
    | _ => []
  | _ => []

/-- The failure that was reported last. -/
def lastFailure (reports : List (DeviceId × TunnelError)) : Option TunnelError :=
  reports.getLast?.map (·.2)

/-- What a join does before a teardown may end. -/
structure Joined (s : State) (m : Move) (u : State) : Prop where
  handled : Handled s u
  tended : Tended u
  after : After s u
  closeError : u.closeError = (lastFailure (s.closeFailures m u)).or s.closeError
  /-- Only a listed device is closed. -/
  listed : ∀ r ∈ s.closeFailures m u, ∃ k ∈ s.slots, k.id = r.1

section

variable {s t u : State} {m : Move} {id : DeviceId}

theorem lastFailure_append (reports later : List (DeviceId × TunnelError)) :
    lastFailure (reports ++ later) = (lastFailure later).or (lastFailure reports) := by
  cases hl : later.getLast? <;> simp [lastFailure, List.getLast?_append, hl]

theorem Settled.joined_reader (h : Settled s) {pump : ReadPump} {exit : ReadExit}
    (hp : s.reader = some pump) (he : pump.stage = .stopped exit) :
    Joined s .joinReader (s.onReadExit pump.id exit) := by
  have hparked : (s.freeReader pump.id).parked = none := h.tended.reads.parked_eq_none hp
  have hcoh := h.tended.coherent.freeReader (readId_of_reader hp)
  have hafter : After s (s.onReadExit pump.id exit) := by
    rw [onReadExit_eq]
    exact (After.freeReader s pump.id).trans
      ((Worked.restart hcoh rfl hparked).steady.trans .prune).after
  obtain ⟨_, _, _, _, hrestart⟩ := restart_eq (s := s.freeReader pump.id) rfl hparked exit
  refine ⟨.onReadExit h.tended.reads hp he, h.tended.onReadExit hp he, hafter, ?_,
    fun _ hr => by cases hr⟩
  rw [onReadExit_eq, hrestart]
  rfl

theorem Settled.joined_writer (h : Settled s) {pump : WritePump} {exit : WriteExit}
    (hp : s.writer = some pump) (he : pump.stage = .stopped exit) :
    Joined s .joinWriter (s.onWriteExit pump.id exit) := by
  obtain ⟨hsteady, hcoh, -, -⟩ := h.tended.closeAfter hp he
  have hafter : After s (s.onWriteExit pump.id exit) := by
    rw [onWriteExit_eq]
    exact (hsteady.trans ((Steady.ensureWriter hcoh).trans .prune)).after
  obtain ⟨_, _, hclose⟩ := closeAfter_eq (s.freeWriter pump.id) pump.id exit
  obtain ⟨_, _, _, hensure⟩ := ensureWriter_eq ((s.freeWriter pump.id).closeAfter pump.id exit)
  refine ⟨.onWriteExit hp he, h.tended.onWriteExit hp he, hafter, ?_, fun _ hr => by cases hr⟩
  rw [onWriteExit_eq, hensure, hclose]
  rfl

theorem Settled.joined_closer (h : Settled s) {closer : Closer} (error : Option TunnelError)
    (hf : s.closers.find? (·.id = id) = some closer)
    (herror : s.closeFailures (.joinCloser id) s = error.toList.map (id, ·)) :
    Joined s (.joinCloser id)
      ({ s with closers := s.closers.filter (·.id != id) }.onClosed id error) := by
  obtain rfl : closer.id = id := by simpa using List.find?_some hf
  have hid : closer.id ∈ s.closerIds := List.mem_map_of_mem (List.mem_of_find?_eq_some hf)
  refine ⟨.onClosed closer.id error, h.tended.onClosed hid error, ?_, ?_, fun r hr => ?_⟩
  · rw [onClosed_eq]
    exact ((Steady.markClosed s closer.id).trans
      (Steady.prune (s := { s.markClosed closer.id with
        closeError := error.or s.closeError }))).after
  · have hlast : lastFailure (s.closeFailures (.joinCloser closer.id) s) = error := by
      rw [herror]
      cases error <;> rfl
    rw [onClosed_eq]
    exact congrArg (·.or s.closeError) hlast.symm
  · have hr : r ∈ s.closeFailures (.joinCloser closer.id) s := hr
    rw [herror] at hr
    obtain ⟨e, -, rfl⟩ := List.mem_map.1 hr
    exact h.tended.coherent.closers closer.id hid

/-- A join is a crash, or an update after which a teardown may end. -/
theorem Settled.joined (h : Settled s) (hm : m.isWork = true) (hc : m ≠ .control)
    (hs : s.step m = some t) : t = s.crash ∨ ∃ u, Joined s m u ∧ t = u.settleTeardown := by
  cases m with
  | control => exact absurd rfl hc
  | joinReader =>
    obtain ⟨-, pump, hp, ⟨exit, he, rfl⟩ | ⟨-, rfl⟩⟩ := joinReader_cases hs
    · exact .inr ⟨_, h.joined_reader hp he, rfl⟩
    · exact .inl rfl
  | joinWriter =>
    obtain ⟨-, pump, hp, ⟨exit, he, rfl⟩ | ⟨-, rfl⟩⟩ := joinWriter_cases hs
    · exact .inr ⟨_, h.joined_writer hp he, rfl⟩
    · exact .inl rfl
  | joinCloser id =>
    change s.joinCloser id = some t at hs
    unfold State.joinCloser at hs
    rw [if_neg (by simp [isOver_of_isWork (m := .joinCloser id) rfl hs])] at hs
    obtain ⟨closer, hf, hs⟩ := Option.bind_eq_some_iff.1 hs
    obtain ⟨out, hout, hs⟩ := Option.bind_eq_some_iff.1 hs
    have hresult : (s.closers.find? (·.id = id)).bind (·.result) = some out := by
      rw [hf]
      exact hout
    cases out with
    | value a =>
      exact .inr ⟨_, h.joined_closer none hf (by rw [closeFailures, hresult]; rfl),
        (Option.some.inj hs).symm⟩
    | failure e =>
      exact .inr ⟨_, h.joined_closer (some e) hf (by rw [closeFailures, hresult]; rfl),
        (Option.some.inj hs).symm⟩
    -- a crash drops the closers that were left as well
    | crash => exact .inl (Option.some.inj hs).symm
  | _ => cases hm

end

end SeamlessTunnel.Multiplexer.State
