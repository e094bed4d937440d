import SeamlessTunnel.Proofs.Multiplexer.Accounts
import SeamlessTunnel.Proofs.Multiplexer.Work
/-
  SeamlessTunnel.Proofs.Multiplexer.Failures — why an active device is read no more.

  While someone holds the multiplexer, the read pump of an active device ends only after a
  read of it failed and its caller was told (`failures_of_run`).
-/

namespace SeamlessTunnel.Multiplexer

/-- Whether a read of a device failed while the device was active. Its caller was told,
    unless it had gone away. -/
def Surfaced (s₀ : State) (ms : List Move) (id : DeviceId) : Prop :=
  ∃ ms₁ e ms₂ s t device r, ms = ms₁ ++ .readReturned (.failure e) :: ms₂ ∧ Run s₀ ms₁ s ∧
    s.step (.readReturned (.failure e)) = some t ∧ s.reader = some ⟨id, device, .reading r⟩ ∧
    (∃ k ∈ s.slots, k.id = id ∧ k.phase = .active) ∧
    (s.awaits r.caller = true → t.answer? r.caller = some (.failed e))

theorem Surfaced.append {s₀ : State} {ms ns : List Move} {id : DeviceId}
    (h : Surfaced s₀ ms id) : Surfaced s₀ (ms ++ ns) id := by
  obtain ⟨ms₁, e, ms₂, s, t, device, r, rfl, hrest⟩ := h
  exact ⟨ms₁, e, ms₂ ++ ns, s, t, device, r, by simp, hrest⟩

namespace State

/-- What is known of read pumps that have ended or stopped. -/
structure Failures (s₀ : State) (ms : List Move) (s : State) : Prop where
  done : s.hasHandle = true → ∀ k ∈ s.slots, k.reading = .done → k.phase = .active →
    Surfaced s₀ ms k.id
  stopped : ∀ pump, s.reader = some pump → pump.stage = .stopped .failed → Surfaced s₀ ms pump.id

section

variable {s₀ s t u : State} {ms ns : List Move} {id : DeviceId}

theorem Failures.append (h : Failures s₀ ms s) : Failures s₀ (ms ++ ns) s :=
  ⟨fun hl k hk hd ha => (h.done hl k hk hd ha).append, fun pump hp hs =>
    (h.stopped pump hp hs).append⟩

theorem Failures.worked (h : Failures s₀ ms s) (w : Worked s t) : Failures s₀ ms t := by
  refine ⟨?_, ?_⟩
  · intro hl k' hk' hd ha
    obtain ⟨k, hk, hst⟩ := w.steady k' hk'
    rw [hst.id]
    exact h.done (w.live ▸ hl) k hk (hst.done hd) (hst.active ha)
  · intro pump hp hs
    rcases w.started pump hp with hp | ⟨⟨carry, hc⟩, -⟩
    · exact h.stopped pump hp hs
    · rw [hc] at hs
      cases hs

theorem Failures.congr (h : Failures s₀ ms s) (hslots : t.slots = s.slots)
    (hlive : t.hasHandle = true → s.hasHandle = true)
    (hstopped : ∀ pump, t.reader = some pump → pump.stage = .stopped .failed →
      Surfaced s₀ ms pump.id) : Failures s₀ ms t :=
  ⟨fun hl k hk => h.done (hlive hl) k (hslots ▸ hk), hstopped⟩

/-- A device that has come was not read yet. -/
theorem Failures.device (h : Failures s₀ ms s) {new : Slot} (hnew : new.reading = .idle) :
    Failures s₀ ms { s with slots := s.slots ++ [new] } := by
  refine ⟨?_, h.stopped⟩
  intro hl k hk hd ha
  rcases List.mem_append.1 hk with hk | hk
  · exact h.done hl k hk hd ha
  · rw [List.mem_singleton.1 hk, hnew] at hd
    cases hd

/-- A read pump that ends has stopped for a reason. -/
theorem Failures.freeReader (h : Failures s₀ ms s) (hexits : s.ReadExits) {pump : ReadPump}
    {exit : ReadExit} (hp : s.reader = some pump) (hs : pump.stage = .stopped exit) :
    Failures s₀ ms (s.freeReader pump.id) := by
  refine ⟨?_, fun pump' hp' => by cases hp'⟩
  intro hl k' hk' hd ha
  obtain ⟨k, hk, ⟨he, rfl⟩ | ⟨-, rfl⟩⟩ := mem_updateSlot hk'
  · have hfits := hexits pump exit hp hs
    cases exit with
    | drained carry => exact absurd ha (hfits k hk he)
    | failed =>
      show Surfaced s₀ ms k.id
      rw [he]
      exact h.stopped pump hp hs
    | disconnected =>
      have hlive : s.hasHandle = true := hl
      cases hlive.symm.trans hfits
  · exact h.done hl k' hk hd ha

theorem Failures.deed (h : Failures s₀ ms s) (hexits : s.ReadExits) {m : Move} (d : Deed s m t) :
    Failures s₀ ms t := by
  have htaken : ∀ rest, Failures s₀ ms { s with control := rest } := fun rest =>
    h.congr rfl (fun hl => hl) h.stopped
  cases d with
  | message hm hn work => exact (htaken _).worked work
  | device hm before work => exact (((htaken _).worked before).device rfl).worked work
  | noHolder hm work => exact h.worked work
  | readerEnd hr hs work => exact (h.freeReader hexits hr hs).worked work
  | writerEnd work => exact h.worked work
  | @closerEnd closer t hc hr work =>
    have hmarked : Failures s₀ ms (s.markClosed closer.id) := by
      refine ⟨?_, h.stopped⟩
      intro hl k' hk' hd ha
      obtain ⟨k, hk, hst⟩ := Steady.markClosed s closer.id k' hk'
      rw [hst.id]
      exact h.done hl k hk (hst.done hd) (hst.active ha)
    exact hmarked.worked work

theorem Failures.pollReader (h : Failures s₀ ms s) (ho : s.isOver = false)
    (hs : s.pollReader = some t) : Failures s₀ ms t := by
  have q := Quiet.pollReader hs
  refine h.congr q.slots q.live ?_
  intro pump' hp' hs'
  obtain ⟨pump, hp, ⟨r, -, rfl⟩ | ⟨-, -, rfl⟩ | ⟨r, reads, -, -, -, rfl⟩ | ⟨-, -, -, rfl⟩⟩ :=
    pollReader_cases hs
  · obtain rfl := Option.some.inj hp'
    simp only [] at hs'
    split at hs' <;> cases hs'
  · rw [reader_stopReader ho] at hp'
    obtain rfl := Option.some.inj hp'
    cases hs'
  · obtain rfl := Option.some.inj hp'
    simp only [] at hs'
    split at hs' <;> cases hs'
  · rw [reader_stopReader ho] at hp'
    obtain rfl := Option.some.inj hp'
    cases hs'

/-- The pump stops for a failure only on an active device and tells the caller. -/
theorem Failures.readReturned (h : Failures s₀ ms s) (hrun : Run s₀ ms s) (hcoh : Coherent s)
    (hcallers : s.callers.Nodup) (ho : s.isOver = false) {out : Outcome Packet}
    (hs : s.readReturned out = some t) : Failures s₀ (ms ++ [.readReturned out]) t := by
  have q := Quiet.readReturned hs
  refine h.append.congr q.slots q.live ?_
  intro pump' hp' hs'
  obtain ⟨pump, r, hp, hstage, ⟨p, -, rfl⟩ | ⟨e, -, -, rfl⟩ | ⟨e, rfl, hd, rfl⟩ | ⟨-, rfl⟩⟩ :=
    readReturned_cases hs
  · obtain rfl := Option.some.inj hp'
    cases hs'
  · rw [reader_stopReader ho] at hp'
    obtain rfl := Option.some.inj hp'
    cases hs'
  · rw [reader_stopReader (s := s.answer r.caller (.failed e)) ho] at hp'
    obtain rfl := Option.some.inj hp'
    obtain ⟨id, device, stage⟩ := pump
    obtain rfl : stage = .reading r := hstage
    obtain ⟨k, hk, rfl⟩ := hcoh.reader id (readId_of_reader hp)
    refine ⟨ms, e, [], s, _, device, r, rfl, hrun, hs, hp, ⟨k, hk, rfl, ?_⟩, ?_⟩
    · simpa [isDraining, hcoh.slot?_eq_some hk] using hd
    · intro hw
      have hover : (s.answer r.caller (.failed e)).isOver = false := ho
      rw [stopReader, hover]
      exact answer?_answer_self hcallers hw
  · have hreader : ({ s with reader :=
        if s.isOver then none else some { pump with stage := .crashed } }.refuse
          [r.caller]).shutReads.reader = some { pump with stage := .crashed } := by
      simp [shutReads, ho]
    rw [hreader] at hp'
    obtain rfl := Option.some.inj hp'
    cases hs'

theorem failures_of_run {settings : MultiplexerSettings} (h : Run (.init settings) ms s)
    (ho : s.isOver = false) : Failures (.init settings) ms s := by
  refine h.snocRec (p := fun ms s => s.isOver = false → Failures (.init settings) ms s)
    (fun _ => ⟨fun _ k hk => (by cases hk), fun pump hp => (by cases hp)⟩) ?_ ho
  intro ms s m t hrun ih hm ho
  have hopen := isOver_eq_false_of_step hm ho
  have hf := ih hopen
  have hsettled := settled_of_run hrun hopen
  rcases step_kinds hm with ⟨hwork, -⟩ | ⟨device, -, rfl⟩ | q
  · exact (hf.deed hsettled.tended.reads.exits (hsettled.deed hwork hm ho)).append
  · rw [add_eq hopen]
    exact hf.append.congr rfl (fun hl => hl) hf.append.stopped
  · rcases q.reads with ⟨hr, -⟩ | rfl | ⟨out, rfl⟩
    · exact (hf.congr q.slots q.live (hr ▸ hf.stopped)).append
    · exact (hf.pollReader hopen hm).append
    · exact hf.readReturned hrun hsettled.tended.coherent (accounted_of_run hrun).callers hopen hm

end

end State

end SeamlessTunnel.Multiplexer
