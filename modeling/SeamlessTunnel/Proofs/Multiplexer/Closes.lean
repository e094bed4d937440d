import SeamlessTunnel.Proofs.Multiplexer.Work
/-
  SeamlessTunnel.Proofs.Multiplexer.Closes — no device is forgotten.

  While the coordinator works, a device that was handed in is on its way to it, is listed
  and not being closed, is being closed, or its close has returned (`known_of_run`).
-/

namespace SeamlessTunnel.Multiplexer

/-- Whether the close of a device has returned. -/
def Reported (ms : List Move) (id : DeviceId) : Prop :=
  ∃ out, .closeReturned id out ∈ ms

theorem Reported.append {ms ns : List Move} {id : DeviceId} (h : Reported ms id) :
    Reported (ms ++ ns) id := by
  obtain ⟨out, h⟩ := h
  exact ⟨out, List.mem_append_left _ h⟩

namespace State

/-- Whether a device is on its way to the coordinator. -/
def Coming (s : State) (id : DeviceId) : Prop :=
  id.number ∈ s.control.filterMap (·.number?)

/-- Closes are reported as they return, and no device is forgotten. -/
structure Known (ms : List Move) (s : State) : Prop where
  closers : ∀ k ∈ s.closers, k.result ≠ none → Reported ms k.id
  devices : ∀ id : DeviceId, 0 < id.number → id.number ≤ s.added →
    s.Coming id ∨ s.Unclosed id ∨ Reported ms id

section

variable {s t u : State} {id : DeviceId} {ms ns : List Move}

theorem Known.append (h : Known ms s) : Known (ms ++ ns) s :=
  ⟨fun k hk hr => (h.closers k hk hr).append, fun id hp hl =>
    (h.devices id hp hl).imp_right (.imp_right Reported.append)⟩

theorem Known.worked (h : Known ms s) (w : Worked s t) : Known ms t := by
  refine ⟨?_, ?_⟩
  · intro k hk hr
    exact h.closers k ((w.fresh k hk).resolve_right hr) hr
  · intro id hp hl
    rcases h.devices id hp (w.added ▸ hl) with hc | hu | hr
    · exact .inl (by rwa [Coming, w.control])
    · exact .inr (.inl (w.unclosed id hu))
    · exact .inr (.inr hr)

/-- A move of which the records of devices take no notice. -/
theorem Known.quiet (h : Known ms s) (q : Quiet s t) (hclosers : t.closers = s.closers) :
    Known ms t := by
  refine ⟨hclosers ▸ h.closers, ?_⟩
  intro id hp hl
  rw [Coming, Unclosed, q.control, q.slots, q.closers]
  exact h.devices id hp (q.added ▸ hl)

/-- A message that hands in no device is taken. -/
theorem Known.takeControl (h : Known ms s) {m : Control} {rest : List Control}
    (hm : s.control = m :: rest) (hn : m.number? = none) : Known ms { s with control := rest } := by
  refine ⟨h.closers, fun id hp hl => (h.devices id hp hl).imp_left ?_⟩
  intro hc
  rw [Coming, hm, List.filterMap_cons, hn] at hc
  exact hc

/-- The end of a read pump says nothing of closes. -/
theorem Known.freeReader (h : Known ms s) : Known ms (s.freeReader id) := by
  refine ⟨h.closers, fun id' hp hl => (h.devices id' hp hl).imp_right (.imp_left ?_)⟩
  intro hu
  exact Worked.unclosed_update (f := fun k => { k with reading := .done }) (fun _ => rfl)
    (fun _ => rfl) hu

/-- A close that is marked had returned. -/
theorem Known.markClosed (h : Known ms s) (hr : Reported ms id) : Known ms (s.markClosed id) := by
  refine ⟨fun k hk => h.closers k (List.mem_filter.1 hk).1, ?_⟩
  intro id' hp hl
  by_cases he : id' = id
  · exact .inr (.inr (he ▸ hr))
  · refine (h.devices id' hp hl).imp_right (.imp_left (Or.imp ?_ ?_))
    · intro hc
      obtain ⟨k, hk, rfl⟩ := List.mem_map.1 hc
      exact List.mem_map.2 ⟨k, List.mem_filter.2 ⟨hk, by simpa using he⟩, rfl⟩
    · rintro ⟨k, hk, rfl, hc⟩
      exact ⟨k, mem_updateSlot_of_ne hk he, rfl, hc⟩

/-- A device that has come is listed. -/
theorem Known.device (h : Known ms s) {device : DeviceRef} {rest : List Control}
    (hm : s.control = .add id device :: rest) (before : Worked { s with control := rest } u) :
    Known ms { u with slots := u.slots ++ [({ id, device } : Slot)] } := by
  have hold : ∀ id', u.Unclosed id' →
      Unclosed { u with slots := u.slots ++ [({ id, device } : Slot)] } id' := fun id' hu =>
    hu.imp_right fun ⟨k, hk, he⟩ => ⟨k, List.mem_append_left _ hk, he⟩
  refine ⟨fun k hk hr => h.closers k ((before.fresh k hk).resolve_right hr) hr, ?_⟩
  intro id' hp hl
  rcases h.devices id' hp (before.added ▸ hl) with hc | hu | hr
  · rw [Coming, hm, List.filterMap_cons, Control.number?] at hc
    rcases List.mem_cons.1 hc with hc | hc
    · have hid : id' = id := congrArg DeviceId.mk hc
      exact .inr (.inl (.inr ⟨_, List.mem_append_right _ (List.mem_singleton_self _), hid.symm, rfl⟩))
    · refine .inl ?_
      rw [Coming, before.control]
      exact hc
  · exact .inr (.inl (hold id' (before.unclosed id' hu)))
  · exact .inr (.inr hr)

theorem Known.deed (h : Known ms s) {m : Move} (d : Deed s m t) : Known ms t := by
  cases d with
  | message hm hn work => exact (h.takeControl hm hn).worked work
  | device hm before work => exact (h.device hm before).worked work
  | noHolder hm work => exact h.worked work
  | readerEnd hr hs work => exact h.freeReader.worked work
  | writerEnd work => exact h.worked work
  | closerEnd hc hr work => exact (h.markClosed (h.closers _ hc hr)).worked work

/-- A device that is handed in is on its way. -/
theorem Known.add (h : Known ms s) (ho : s.isOver = false) (device : DeviceRef) :
    Known ms (s.add device).2 := by
  rw [add_eq ho]
  refine ⟨h.closers, ?_⟩
  intro id hp hl
  rcases Nat.lt_or_eq_of_le hl with hl | hl
  · refine (h.devices id hp (Nat.le_of_lt_succ hl)).imp_left ?_
    intro hc
    rw [Coming, List.filterMap_append]
    exact List.mem_append_left _ hc
  · refine .inl ?_
    rw [Coming, List.filterMap_append]
    exact List.mem_append_right _ (by simp [Control.number?, nextId, hl])

theorem Known.closeReturned (h : Known ms s) {out : Outcome Unit}
    (hs : s.closeReturned id out = some t) : Known (ms ++ [.closeReturned id out]) t := by
  have q := Quiet.closeReturned hs
  obtain ⟨-, rfl⟩ := closeReturned_cases hs
  refine ⟨?_, ?_⟩
  · intro k' hk' hr
    obtain ⟨k, hk, rfl⟩ := List.mem_map.1 hk'
    split at hr
    · rename_i he
      rw [if_pos he]
      exact ⟨out, List.mem_append_right _ (by simp [he])⟩
    · rename_i he
      rw [if_neg he]
      exact (h.closers k hk hr).append
  · intro id' hp hl
    rw [Unclosed, q.closers]
    exact h.append.devices id' hp hl

/-- In every state of a run whose coordinator works, no device is forgotten. -/
theorem known_of_run {settings : MultiplexerSettings} (h : Run (.init settings) ms s)
    (ho : s.isOver = false) : Known ms s := by
  refine h.snocRec (p := fun ms s => s.isOver = false → Known ms s) ?_ ?_ ho
  · intro _
    exact ⟨fun k hk => (by cases hk), fun id hp hl => absurd hp (Nat.not_lt.2 hl)⟩
  · intro ms s m t hrun ih hm ho
    have hopen := isOver_eq_false_of_step hm ho
    have hk := ih hopen
    rcases step_kinds hm with ⟨hwork, -⟩ | ⟨device, -, rfl⟩ | q
    · exact (hk.deed ((settled_of_run hrun hopen).deed hwork hm ho)).append
    · exact (hk.add hopen device).append
    · rcases q.tasks with hc | ⟨id, out, rfl⟩
      · exact (hk.quiet q.toQuiet hc).append
      · exact hk.closeReturned hm

end

end State

end SeamlessTunnel.Multiplexer
