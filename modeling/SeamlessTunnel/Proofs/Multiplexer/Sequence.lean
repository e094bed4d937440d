import SeamlessTunnel.Proofs.Multiplexer.Devices
/-
  SeamlessTunnel.Proofs.Multiplexer.Sequence — devices are done with in the order they came.

  A device whose read pump has ended is older than the one that is read and than all that a
  read pump may still start on (`Sequenced`, `sequenced_of_run`). So a coordinator that
  serves always has a device for a request that a draining one left unserved: where there is
  none, all devices are being closed (`Sequenced.tearing`).
-/

namespace SeamlessTunnel.Multiplexer.State

/-- Devices whose read pumps have ended are older than those that are or may be read. -/
structure Sequenced (s : State) : Prop where
  unread : ∀ k ∈ s.slots, ∀ l ∈ s.slots, Unread k → l.reading = .done → l.id.number < k.id.number
  reader : ∀ pump, s.reader = some pump → ∀ l ∈ s.slots, l.reading = .done →
    l.id.number < pump.id.number

section

variable {s t u : State} {m : Move} {id : DeviceId} {ms : List Move}

namespace Sequenced

theorem unread_steady (h : Sequenced s) (hst : Steady s t) : ∀ k ∈ t.slots, ∀ l ∈ t.slots,
    Unread k → l.reading = .done → l.id.number < k.id.number := by
  intro k' hk' l' hl' hu hd
  obtain ⟨k, hk, hsk⟩ := hst k' hk'
  obtain ⟨l, hl, hsl⟩ := hst l' hl'
  rw [hsk.id, hsl.id]
  exact h.unread k hk l hl (hsk.of_unread hu) (hsl.done hd)

/-- A read pump starts on a device that was not read yet. -/
theorem worked (h : Sequenced s) (w : Worked s t) : Sequenced t := by
  refine ⟨h.unread_steady w.steady, ?_⟩
  intro pump hp l' hl' hd
  obtain ⟨l, hl, hsl⟩ := w.steady l' hl'
  rw [hsl.id]
  rcases w.started pump hp with hp | ⟨-, k, hk, he, hu⟩
  · exact h.reader pump hp l hl (hsl.done hd)
  · rw [← he]
    exact h.unread k hk l hl hu (hsl.done hd)

theorem congr (h : Sequenced s) (hslots : t.slots = s.slots)
    (hreader : ∀ pump, t.reader = some pump → ∃ pump', s.reader = some pump' ∧ pump'.id = pump.id) :
    Sequenced t := by
  refine ⟨hslots ▸ h.unread, ?_⟩
  intro pump hp l hl
  obtain ⟨pump', hp', he⟩ := hreader pump hp
  exact he ▸ h.reader pump' hp' l (hslots ▸ hl)

/-- A device that has come is newer than all before it. -/
theorem device (h : Sequenced s) {new : Slot} (hidle : new.reading = .idle)
    (hnew : ∀ l ∈ s.slots, l.id.number < new.id.number) :
    Sequenced { s with slots := s.slots ++ [new] } := by
  have hold : ∀ l ∈ s.slots ++ [new], l.reading = .done → l ∈ s.slots := by
    intro l hl hd
    rcases List.mem_append.1 hl with hl | hl
    · exact hl
    · rw [List.mem_singleton.1 hl, hidle] at hd
      cases hd
  refine ⟨?_, fun pump hp l hl hd => h.reader pump hp l (hold l hl hd) hd⟩
  intro k hk l hl hu hd
  rcases List.mem_append.1 hk with hk | hk
  · exact h.unread k hk l (hold l hl hd) hu hd
  · rw [List.mem_singleton.1 hk]
    exact hnew l (hold l hl hd)

/-- The device whose read pump ends is older than those not read yet. -/
theorem freeReader (h : Sequenced s) (hcoh : Coherent s) {pump : ReadPump}
    (hp : s.reader = some pump) : Sequenced (s.freeReader pump.id) := by
  refine ⟨?_, fun _ hr => by cases hr⟩
  intro k' hk' l' hl' hu hd
  obtain ⟨k, hk, ⟨-, rfl⟩ | ⟨-, rfl⟩⟩ := mem_updateSlot hk'
  · cases hu.2
  · obtain ⟨l, hl, ⟨he, rfl⟩ | ⟨-, rfl⟩⟩ := mem_updateSlot hl'
    · show l.id.number < _
      rw [he]
      exact hcoh.oldest pump.id (readId_of_reader hp) k' hk hu
    · exact h.unread k' hk l' hl hu hd

theorem deed (h : Sequenced s) (hcoh : Coherent s) (d : Deed s m t) : Sequenced t := by
  have htaken : ∀ rest, Sequenced { s with control := rest } := fun rest =>
    h.congr rfl fun pump hp => ⟨pump, hp, rfl⟩
  cases d with
  | message hm hn work => exact (htaken _).worked work
  | @device new device rest u t hm before work =>
    refine (((htaken rest).worked before).device rfl ?_).worked work
    intro l' hl'
    obtain ⟨l, hl, hst⟩ := before.steady l' hl'
    rw [hst.id]
    exact (List.pairwise_append.1 hcoh.ascending).2.2 _ (List.mem_map_of_mem hl) _
      (by simp [hm, Control.number?])
  | noHolder hm work => exact h.worked work
  | readerEnd hr hs work => exact (h.freeReader hcoh hr).worked work
  | writerEnd work => exact h.worked work
  | @closerEnd closer t hc hr work =>
    have hmarked : Sequenced (s.markClosed closer.id) :=
      ⟨h.unread_steady (.markClosed s closer.id), fun pump hp l' hl' hd => by
        obtain ⟨l, hl, hst⟩ := Steady.markClosed s closer.id l' hl'
        rw [hst.id]
        exact h.reader pump hp l hl (hst.done hd)⟩
    exact hmarked.worked work

end Sequenced

theorem sequenced_of_run {settings : MultiplexerSettings} (h : Run (.init settings) ms s)
    (ho : s.isOver = false) : Sequenced s := by
  refine h.snocRec (p := fun _ s => s.isOver = false → Sequenced s)
    (fun _ => ⟨fun _ hk => (by cases hk), fun _ hp => (by cases hp)⟩) ?_ ho
  intro ms s m t hrun ih hm ho
  have hopen := isOver_eq_false_of_step hm ho
  have hset := settled_of_run hrun hopen
  rcases step_kinds hm with ⟨hwork, -⟩ | ⟨device, -, rfl⟩ | q
  · exact (ih hopen).deed hset.tended.coherent (hset.deed hwork hm ho)
  · obtain ⟨_, he⟩ := add_parts s device
    rw [he]
    exact (ih hopen).congr rfl fun pump hp => ⟨pump, hp, rfl⟩
  · exact (ih hopen).congr q.slots (q.reader hm)

/-- While the coordinator serves, a device that drains has a successor to be read. -/
theorem Sequenced.tearing (h : Sequenced s) (hset : Settled s) (ho : s.isOver = false)
    {pump : ReadPump} {carry : Option ReadRequest} (hp : s.reader = some pump)
    (hs : pump.stage = .stopped (.drained carry)) (hn : ∀ k ∈ s.slots, ¬ Unread k) :
    ∃ cause, s.coordinator = .tearingDown cause := by
  have hcoh := hset.tended.coherent
  have hread := readId_of_reader hp
  obtain ⟨l, hl, he⟩ := hcoh.reader pump.id hread
  cases hc : s.coordinator with
  | tearingDown cause => exact ⟨cause, rfl⟩
  | ended => simp [isOver, hc] at ho
  | crashed => simp [isOver, hc] at ho
  | serving =>
    obtain ⟨k, hk, ha⟩ := List.mem_map.1 (hset.tended.serving hc (List.ne_nil_of_mem hl))
    have hinactive : s.Inactive pump.id := hset.tended.reads.exits pump _ hp hs
    exfalso
    cases hreading : k.reading with
    | idle => exact hn k hk ⟨by simp [ha], hreading⟩
    | running =>
      have hid := hread.symm.trans ((hcoh.agrees k hk).reading.1 hreading)
      exact hinactive k hk (Option.some.inj hid).symm ha
    | done =>
      have hlt := h.reader pump hp k hk hreading
      have hle := hcoh.newest_of_active hk ha hl
      rw [he] at hle
      omega

end

end SeamlessTunnel.Multiplexer.State
