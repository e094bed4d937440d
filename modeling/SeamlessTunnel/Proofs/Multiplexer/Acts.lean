import SeamlessTunnel.Proofs.Multiplexer.Coherence
/-
  SeamlessTunnel.Proofs.Multiplexer.Acts — the parts that handlers are made of.

  One lemma says all that a part can do: `startCloser_cases`, `requestClose_cases`,
  `ensureReader_cases`, `ensureWriter_cases`. No part turns the record of a device back
  (`Slot.Later`), and each keeps the records true (`Coherent.ensureReader`, ...).
-/

namespace SeamlessTunnel.Multiplexer

/-! ## Records only go forward -/

/-- Whether one record of a device can come after another. -/
structure Slot.Later (k k' : Slot) : Prop where
  id : k'.id = k.id
  device : k'.device = k.device
  active : k'.phase = .active → k.phase = .active
  closed : k.phase = .closed → k'.phase = .closed
  unread : k'.reading = .idle → k.reading = .idle
  unwritten : k'.writing = .idle → k.writing = .idle
  closing : k.closing = true → k'.closing = true

namespace Slot.Later

variable {k k' k'' : Slot}

theorem refl : Slot.Later k k :=
  ⟨rfl, rfl, fun h => h, fun h => h, fun h => h, fun h => h, fun h => h⟩

theorem trans (h : Slot.Later k k') (h' : Slot.Later k' k'') : Slot.Later k k'' :=
  ⟨h'.id.trans h.id, h'.device.trans h.device, fun ha => h.active (h'.active ha),
    fun hc => h'.closed (h.closed hc),
    fun hr => h.unread (h'.unread hr), fun hw => h.unwritten (h'.unwritten hw),
    fun hc => h'.closing (h.closing hc)⟩

theorem drained : Slot.Later k k.drained :=
  ⟨by simp, by simp, fun h => absurd h Slot.phase_drained_ne, fun h => by simpa using h,
    fun h => by simpa using h, fun h => by simpa using h, fun h => by simpa using h⟩

theorem of_unread (h : Slot.Later k k') (hu : State.Unread k') : State.Unread k :=
  ⟨fun hc => hu.1 (h.closed hc), h.unread hu.2⟩

end Slot.Later

/-- Whether a later record tells of no end of a read pump. -/
structure Slot.Steady (k k' : Slot) : Prop extends Slot.Later k k' where
  done : k'.reading = .done → k.reading = .done

namespace Slot.Steady

variable {k k' k'' : Slot}

theorem refl : Slot.Steady k k :=
  ⟨.refl, fun h => h⟩

theorem trans (h : Slot.Steady k k') (h' : Slot.Steady k' k'') : Slot.Steady k k'' :=
  ⟨h.toLater.trans h'.toLater, fun hd => h.done (h'.done hd)⟩

theorem drained : Slot.Steady k k.drained :=
  ⟨.drained, fun h => by simpa using h⟩

end Slot.Steady

/-- The caller that the coordinator works for. -/
def Coordinator.caller? : Coordinator → Option Caller
  | .tearingDown cause => cause.caller?
  | .serving | .ended | .crashed => none

namespace State

/-- Whether the devices of one state are devices of another, with later records. -/
def After (s t : State) : Prop :=
  ∀ k' ∈ t.slots, ∃ k ∈ s.slots, Slot.Later k k'

/-- Whether moreover no read pump has ended between them. -/
def Steady (s t : State) : Prop :=
  ∀ k' ∈ t.slots, ∃ k ∈ s.slots, Slot.Steady k k'

section

variable {s t u : State} {id : DeviceId} {f : Slot → Slot}

theorem After.of_slots (h : t.slots = s.slots) : After s t :=
  fun k hk => ⟨k, h ▸ hk, .refl⟩

theorem After.refl : After s s :=
  .of_slots rfl

theorem After.trans (h : After s t) (h' : After t u) : After s u := fun k'' hk'' => by
  obtain ⟨k', hk', hl'⟩ := h' k'' hk''
  obtain ⟨k, hk, hl⟩ := h k' hk'
  exact ⟨k, hk, hl.trans hl'⟩

theorem Steady.after (h : Steady s t) : After s t := fun k' hk' => by
  obtain ⟨k, hk, hl⟩ := h k' hk'
  exact ⟨k, hk, hl.toLater⟩

theorem Steady.of_slots (h : t.slots = s.slots) : Steady s t :=
  fun k hk => ⟨k, h ▸ hk, .refl⟩

theorem Steady.refl : Steady s s :=
  .of_slots rfl

theorem Steady.trans (h : Steady s t) (h' : Steady t u) : Steady s u := fun k'' hk'' => by
  obtain ⟨k', hk', hl'⟩ := h' k'' hk''
  obtain ⟨k, hk, hl⟩ := h k' hk'
  exact ⟨k, hk, hl.trans hl'⟩

theorem mem_updateSlot {k' : Slot} (h : k' ∈ (s.updateSlot id f).slots) :
    ∃ k ∈ s.slots, (k.id = id ∧ k' = f k) ∨ (k.id ≠ id ∧ k' = k) := by
  obtain ⟨k, hk, rfl⟩ := List.mem_map.1 h
  refine ⟨k, hk, ?_⟩
  by_cases he : k.id = id
  · exact .inl ⟨he, if_pos he⟩
  · exact .inr ⟨he, if_neg he⟩

theorem mem_updateSlot_self {k : Slot} (hk : k ∈ s.slots) (he : k.id = id) :
    f k ∈ (s.updateSlot id f).slots :=
  List.mem_map.2 ⟨k, hk, if_pos he⟩

theorem mem_updateSlot_of_ne {k : Slot} (hk : k ∈ s.slots) (hne : k.id ≠ id) :
    k ∈ (s.updateSlot id f).slots :=
  List.mem_map.2 ⟨k, hk, if_neg hne⟩

theorem After.update (h : ∀ k ∈ s.slots, k.id = id → Slot.Later k (f k)) :
    After s (s.updateSlot id f) := fun k' hk' => by
  obtain ⟨k, hk, ⟨he, rfl⟩ | ⟨-, rfl⟩⟩ := mem_updateSlot hk'
  · exact ⟨k, hk, h k hk he⟩
  · exact ⟨k', hk, .refl⟩

theorem Steady.update (h : ∀ k ∈ s.slots, k.id = id → Slot.Steady k (f k)) :
    Steady s (s.updateSlot id f) := fun k' hk' => by
  obtain ⟨k, hk, ⟨he, rfl⟩ | ⟨-, rfl⟩⟩ := mem_updateSlot hk'
  · exact ⟨k, hk, h k hk he⟩
  · exact ⟨k', hk, .refl⟩

theorem Steady.prune : Steady s s.prune :=
  fun k hk => ⟨k, (List.mem_filter.1 hk).1, .refl⟩

theorem mem_prune {k : Slot} : k ∈ s.prune.slots ↔ k ∈ s.slots ∧ k.isRetired = false := by
  simp [State.prune]

end

/-! ## Phases -/

/-- The phases of the devices, oldest first. -/
def phases (s : State) : List Phase :=
  s.slots.map (·.phase)

section

variable {s : State} {id : DeviceId} {f : Slot → Slot}

theorem phases_updateSlot (hf : ∀ k, (f k).phase = k.phase) :
    (s.updateSlot id f).phases = s.phases := by
  simp only [phases, updateSlot, List.map_map]
  refine List.map_congr_left ?_
  intro k _
  simp only [Function.comp]
  split
  · exact hf k
  · rfl

theorem phases_startCloser : (s.startCloser id).phases = s.phases := by
  unfold startCloser
  split
  · rfl
  · split
    · rfl
    · exact phases_updateSlot fun _ => rfl

theorem phases_ensureWriter : s.ensureWriter.phases = s.phases := by
  unfold ensureWriter
  repeat' split
  any_goals rfl
  exact phases_updateSlot fun _ => rfl

/-- An active device is not retired. -/
theorem active_mem_phases_prune (h : .active ∈ s.phases) : .active ∈ s.prune.phases := by
  obtain ⟨k, hk, ha⟩ := List.mem_map.1 h
  exact List.mem_map.2 ⟨k, mem_prune.2 ⟨hk, by simp [Slot.isRetired, ha]⟩, ha⟩

end

/-! ## Closing -/

section

variable {s : State} {id : DeviceId}

theorem startCloser_eq (s : State) (id : DeviceId) :
    ∃ slots closers, s.startCloser id = { s with slots, closers } := by
  unfold startCloser
  split
  · exact ⟨_, _, rfl⟩
  · split
    · exact ⟨_, _, rfl⟩
    · exact ⟨_, _, rfl⟩

theorem requestClose_def (s : State) (id : DeviceId) : s.requestClose id =
    if ((s.updateSlot id Slot.drained).slot? id).any (·.writing = .running) then
      s.updateSlot id Slot.drained
    else (s.updateSlot id Slot.drained).startCloser id := rfl

theorem requestClose_eq (s : State) (id : DeviceId) :
    ∃ slots closers, s.requestClose id = { s with slots, closers } := by
  obtain ⟨slots, closers, he⟩ := startCloser_eq (s.updateSlot id Slot.drained) id
  rw [requestClose_def]
  split
  · exact ⟨_, _, rfl⟩
  · exact ⟨_, _, he⟩

/-- The close of a device has been started, or starts now. -/
theorem startCloser_cases (h : Coherent s) (id : DeviceId) :
    (s.startCloser id = s ∧ ∀ k ∈ s.slots, k.id = id → k.closing = true) ∨
    ∃ k ∈ s.slots, k.id = id ∧ k.closing = false ∧ k.phase ≠ .closed ∧
      s.startCloser id = { s.updateSlot id fun k => { k with closing := true } with
        closers := s.closers ++ [({ id, device := k.device } : Closer)] } := by
  unfold startCloser
  split
  · rename_i hf
    refine .inl ⟨rfl, ?_⟩
    intro k hk he
    have hs := h.slot?_eq_some hk
    rw [he, hf] at hs
    cases hs
  · rename_i k hf
    obtain ⟨hk, he⟩ := mem_of_slot? hf
    split
    · rename_i hc
      simp only [Bool.or_eq_true, decide_eq_true_eq] at hc
      refine .inl ⟨rfl, ?_⟩
      intro l hl hle
      obtain rfl := h.eq_of_id hl hk (hle.trans he.symm)
      rcases hc with hc | hc
      · exact hc
      · exact (h.agrees l hl).closes hc
    · rename_i hc
      simp only [Bool.or_eq_true, decide_eq_true_eq, not_or] at hc
      exact .inr ⟨k, hk, he, by simpa using hc.1, hc.2, rfl⟩

theorem Steady.startCloser (h : Coherent s) : Steady s (s.startCloser id) := by
  rcases startCloser_cases h id with ⟨he, -⟩ | ⟨k, -, -, -, -, he⟩
  · rw [he]
    exact .refl
  · rw [he]
    exact Steady.update fun _ _ _ =>
      ⟨⟨rfl, rfl, fun h => h, fun h => h, fun h => h, fun h => h, fun _ => rfl⟩, fun h => h⟩

theorem mem_startCloser (h : Coherent s) {k' : Slot} (hk' : k' ∈ (s.startCloser id).slots) :
    (k'.id ≠ id ∧ k' ∈ s.slots) ∨
    (k'.id = id ∧ ∃ k ∈ s.slots, k' = { k with closing := true }) := by
  rcases startCloser_cases h id with ⟨he, hc⟩ | ⟨l, -, -, -, -, he⟩
  · rw [he] at hk'
    by_cases hid : k'.id = id
    · exact .inr ⟨hid, k', hk', by rw [← hc k' hk' hid]⟩
    · exact .inl ⟨hid, hk'⟩
  · rw [he] at hk'
    obtain ⟨k, hk, ⟨hid, rfl⟩ | ⟨hne, rfl⟩⟩ := mem_updateSlot hk'
    · exact .inr ⟨hid, k, hk, rfl⟩
    · exact .inl ⟨hne, hk⟩

/-- Whether a device was told to close: its close was started, or follows the end of its
    write pump. -/
def Requested (k : Slot) : Prop :=
  k.phase ≠ .active ∧ (k.closing = true ∨ k.writing = .running)

theorem Steady.requestClose (h : Coherent s) : Steady s (s.requestClose id) := by
  have hd : Steady s (s.updateSlot id Slot.drained) := .update fun _ _ _ => .drained
  rw [requestClose_def]
  split
  · exact hd
  · exact hd.trans (.startCloser h.drain)

/-- The device is told to close, and nothing happens to the others. -/
theorem mem_requestClose (h : Coherent s) {k' : Slot} (hk' : k' ∈ (s.requestClose id).slots) :
    (k'.id ≠ id ∧ k' ∈ s.slots) ∨
    (k'.id = id ∧ Requested k' ∧ ∃ k ∈ s.slots, k'.isRetired = k.isRetired) := by
  have hd : Coherent (s.updateSlot id Slot.drained) := h.drain
  have hdrained : ∀ k ∈ (s.updateSlot id Slot.drained).slots, k.id = id →
      k.phase ≠ .active ∧ ∃ l ∈ s.slots, k.isRetired = l.isRetired := by
    intro k hk he
    obtain ⟨l, hl, ⟨-, rfl⟩ | ⟨hne, rfl⟩⟩ := mem_updateSlot hk
    · exact ⟨Slot.phase_drained_ne, l, hl, Slot.isRetired_drained⟩
    · exact absurd he hne
  have hothers : ∀ k ∈ (s.updateSlot id Slot.drained).slots, k.id ≠ id → k ∈ s.slots := by
    intro k hk hne
    obtain ⟨l, hl, ⟨he, rfl⟩ | ⟨-, rfl⟩⟩ := mem_updateSlot hk
    · exact absurd (Slot.id_drained.trans he) hne
    · exact hl
  rw [requestClose_def] at hk'
  split at hk'
  · rename_i hrun
    by_cases he : k'.id = id
    · have hs := hd.slot?_eq_some hk'
      rw [he] at hs
      rw [hs] at hrun
      obtain ⟨hphase, hretired⟩ := hdrained k' hk' he
      exact .inr ⟨he, ⟨hphase, .inr (by simpa using hrun)⟩, hretired⟩
    · exact .inl ⟨he, hothers k' hk' he⟩
  · obtain ⟨hne, hk⟩ | ⟨he, k, hk, rfl⟩ := mem_startCloser hd hk'
    · exact .inl ⟨hne, hothers k' hk hne⟩
    · obtain ⟨hphase, hretired⟩ := hdrained k hk he
      exact .inr ⟨he, ⟨hphase, .inl rfl⟩, hretired⟩

theorem requestClose_all_eq (l : List Slot) (s : State) :
    ∃ slots closers, l.foldl (fun s k => s.requestClose k.id) s = { s with slots, closers } := by
  induction l generalizing s with
  | nil => exact ⟨_, _, rfl⟩
  | cons k l ih =>
    obtain ⟨slots, closers, he⟩ := requestClose_eq s k.id
    obtain ⟨slots', closers', he'⟩ := ih (s.requestClose k.id)
    exact ⟨slots', closers', by rw [List.foldl_cons, he', he]⟩

/-- The devices of a list are told to close one after the other. -/
theorem requestClose_all (l : List Slot) (h : Coherent s) :
    Coherent (l.foldl (fun s k => s.requestClose k.id) s) ∧
    Steady s (l.foldl (fun s k => s.requestClose k.id) s) ∧
    ∀ k' ∈ (l.foldl (fun s k => s.requestClose k.id) s).slots,
      (∃ k ∈ s.slots, k'.isRetired = k.isRetired) ∧
      (Requested k' ∨ (k' ∈ s.slots ∧ ∀ k ∈ l, k.id ≠ k'.id)) := by
  induction l generalizing s with
  | nil => exact ⟨h, .refl, fun k' hk' => ⟨⟨k', hk', rfl⟩, .inr ⟨hk', by simp⟩⟩⟩
  | cons k l ih =>
    obtain ⟨hcoh, hsteady, hall⟩ := ih h.requestClose
    refine ⟨hcoh, (Steady.requestClose h).trans hsteady, ?_⟩
    intro k' hk'
    obtain ⟨⟨k₁, hk₁, hretired⟩, hreq⟩ := hall k' hk'
    refine ⟨?_, ?_⟩
    · rcases mem_requestClose h hk₁ with ⟨-, hk⟩ | ⟨-, -, l', hl', he⟩
      · exact ⟨k₁, hk, hretired⟩
      · exact ⟨l', hl', hretired.trans he⟩
    · rcases hreq with hr | ⟨hmem, hne⟩
      · exact .inl hr
      · rcases mem_requestClose h hmem with ⟨hid, hk⟩ | ⟨-, hr, -⟩
        · refine .inr ⟨hk, ?_⟩
          intro l' hl'
          rcases List.mem_cons.1 hl' with rfl | hl'
          · exact Ne.symm hid
          · exact hne l' hl'
        · exact .inl hr

end

/-! ## Starting pumps -/

section

variable {s : State} {carry : Option ReadRequest}

/-- What the search for a device to read finds. -/
def unread? (s : State) : Option Slot :=
  s.slots.find? fun k => k.phase != .closed && k.reading = .idle

theorem unread?_eq_none (h : s.unread? = none) : ∀ k ∈ s.slots, ¬ Unread k := fun k hk hu => by
  have := List.find?_eq_none.1 h k hk
  simp [hu.1, hu.2] at this

theorem unread?_eq_some (h : Coherent s) {k : Slot} (hf : s.unread? = some k) :
    k ∈ s.slots ∧ Unread k ∧ ∀ l ∈ s.slots, Unread l → l ≠ k → k.id.number < l.id.number := by
  obtain ⟨hk, before, after, hslots, hbefore⟩ := List.find?_eq_some_iff_append.1 hf
  refine ⟨List.mem_of_find?_eq_some hf, ⟨by simp_all, by simp_all⟩, fun l hl hu hne => ?_⟩
  have hasc : (s.slots.map (·.id.number)).Pairwise (· < ·) := (List.pairwise_append.1 h.ascending).1
  rw [hslots] at hl hasc
  rw [List.pairwise_map] at hasc
  rcases List.mem_append.1 hl with hl | hl
  · have := hbefore l hl
    simp [hu.1, hu.2] at this
  · rcases List.mem_cons.1 hl with rfl | hl
    · exact absurd rfl hne
    · exact (List.pairwise_cons.1 (List.pairwise_append.1 hasc).2.1).1 l hl

/-- The queue is not at hand, or no device is left to read, or the pump starts on the first. A
    request is carried only when the queue is at hand and none is kept. -/
theorem ensureReader_cases (h : carry = none ∨ s.holdsReads = true ∧ s.parked = none) :
    (s.holdsReads = false ∧ s.ensureReader carry = s) ∨
    (s.holdsReads = true ∧ s.unread? = none ∧
      s.ensureReader carry = { s with parked := carry.or s.parked }) ∨
    ∃ k, s.holdsReads = true ∧ s.unread? = some k ∧
      s.ensureReader carry = { s.updateSlot k.id fun k => { k with reading := .running } with
        parked := none
        holdsReads := false
        reader := some ⟨k.id, k.device, .ready (carry.or s.parked)⟩ } := by
  cases carry with
  | none =>
    unfold ensureReader
    simp only []
    split
    · rename_i hr
      exact .inl ⟨by simpa using hr, rfl⟩
    · rename_i hr
      have hr : s.holdsReads = true := by simpa using hr
      split
      · rename_i hf
        exact .inr (.inl ⟨hr, hf, rfl⟩)
      · rename_i k hf
        exact .inr (.inr ⟨k, hr, hf, rfl⟩)
  | some r =>
    obtain ⟨hr, hp⟩ := h.resolve_left (by simp)
    have hpark : s.park (some r) = { s with parked := some r } := by
      rw [park, hp]
      rfl
    unfold ensureReader
    simp only [hr, hp, hpark]
    split
    · contradiction
    · split
      · rename_i hf
        exact .inr (.inl ⟨trivial, hf, rfl⟩)
      · rename_i k hf
        refine .inr (.inr ⟨k, trivial, hf, ?_⟩)
        rw [← hp]
        rfl

theorem Coherent.last_of_active (h : Coherent s) {k : Slot} (hk : k ∈ s.slots)
    (ha : k.phase = .active) : s.slots.getLast? = some k := by
  cases hl : s.slots.getLast? with
  | none =>
    rw [List.getLast?_eq_none_iff.1 hl] at hk
    cases hk
  | some last =>
    obtain ⟨init, hslots⟩ := List.getLast?_eq_some_iff.1 hl
    have hnew := h.newest
    rw [hslots] at hk hnew
    rcases List.mem_append.1 hk with hk | hk
    · exact absurd ha ((List.pairwise_append.1 hnew).2.2 k hk last (by simp))
    · rw [List.mem_singleton.1 hk]

/-- The pump runs already, or no active device is left to write, or the pump starts on the
    active one. -/
theorem ensureWriter_cases (h : Coherent s) :
    (s.ensureWriter = s ∧
      (s.writer = none → ∀ k ∈ s.slots, k.phase = .active → k.writing ≠ .idle)) ∨
    ∃ k ∈ s.slots, s.writer = none ∧ k.phase = .active ∧ k.writing = .idle ∧
      s.ensureWriter = { s.updateSlot k.id fun k => { k with writing := .running } with
        holdsWrites := false
        writer := some ⟨k.id, k.device, .starting⟩ } := by
  unfold ensureWriter
  split
  · rename_i hw
    exact .inl ⟨rfl, fun hn => by simp [hn] at hw⟩
  · rename_i hw
    split
    · rename_i hl
      refine .inl ⟨rfl, ?_⟩
      intro _ k hk
      rw [List.getLast?_eq_none_iff.1 hl] at hk
      cases hk
    · rename_i k hl
      split
      · rename_i hc
        refine .inl ⟨rfl, ?_⟩
        intro _ l hl' ha hidle
        obtain rfl := Option.some.inj (hl.symm.trans (h.last_of_active hl' ha))
        simp [ha, hidle] at hc
      · rename_i hc
        have hnone : s.writer = none := by simpa using hw
        rw [h.holdsWrites_iff.2 hnone]
        refine .inr ⟨k, List.mem_of_getLast? hl, hnone, ?_, ?_, rfl⟩
        · simp_all
        · simp_all

theorem ensureReader_eq (h : carry = none ∨ s.holdsReads = true ∧ s.parked = none) :
    ∃ slots reader parked holdsReads,
      s.ensureReader carry = { s with slots, reader, parked, holdsReads } := by
  rcases ensureReader_cases h with ⟨-, he⟩ | ⟨-, -, he⟩ | ⟨k, -, -, he⟩
  · exact ⟨_, _, _, _, he⟩
  · exact ⟨_, _, _, _, he⟩
  · exact ⟨_, _, _, _, he⟩

theorem phases_ensureReader (h : carry = none ∨ s.holdsReads = true ∧ s.parked = none) :
    (s.ensureReader carry).phases = s.phases := by
  rcases ensureReader_cases h with ⟨-, he⟩ | ⟨-, -, he⟩ | ⟨k, -, -, he⟩
  · rw [he]
  · rw [he]
    rfl
  · rw [he]
    exact phases_updateSlot fun _ => rfl

theorem ensureWriter_eq (s : State) :
    ∃ slots writer holdsWrites, s.ensureWriter = { s with slots, writer, holdsWrites } := by
  unfold ensureWriter
  repeat' split
  all_goals exact ⟨_, _, _, rfl⟩

theorem Steady.ensureReader (h : carry = none ∨ s.holdsReads = true ∧ s.parked = none) :
    Steady s (s.ensureReader carry) := by
  rcases ensureReader_cases h with ⟨-, he⟩ | ⟨-, -, he⟩ | ⟨k, -, -, he⟩
  · exact .of_slots (by rw [he])
  · exact .of_slots (by rw [he])
  · rw [he]
    exact Steady.update fun l _ _ =>
      ⟨⟨rfl, rfl, fun h => h, fun h => h, fun h => (by cases h), fun h => h, fun h => h⟩,
        fun h => (by cases h)⟩

theorem Steady.ensureWriter (h : Coherent s) : Steady s s.ensureWriter := by
  rcases ensureWriter_cases h with ⟨he, -⟩ | ⟨k, -, -, -, -, he⟩
  · exact .of_slots (by rw [he])
  · rw [he]
    exact Steady.update fun l _ _ =>
      ⟨⟨rfl, rfl, fun h => h, fun h => h, fun h => h, fun h => (by cases h), fun h => h⟩,
        fun h => h⟩

namespace Coherent

theorem startReader (h : Coherent s) {k : Slot} {stage : ReadStage} {parked : Option ReadRequest}
    (hr : s.reader = none) (hk : s.unread? = some k) :
    Coherent { s.updateSlot k.id fun k => { k with reading := .running } with
      parked, holdsReads := false, reader := some ⟨k.id, k.device, stage⟩ } := by
  obtain ⟨hmem, hu, hfirst⟩ := unread?_eq_some h hk
  have hread : s.readId = none := by
    rw [readId, hr]
    rfl
  refine h.update (r := some k.id) (f := fun k => { k with reading := .running }) rfl rfl rfl rfl
    (fun _ => rfl) (fun _ hl => hl) rfl rfl ?_ ?_
    (fun id hid => ⟨k, hmem, Option.some.inj hid⟩) h.writer h.closers ?_ rfl h.writes
  · intro l hl he
    rw [← he]
    exact (h.agrees l hl).startReading
  · intro l hl hne
    exact (h.agrees l hl).read_of_ne (by rw [hread]; simp) fun he => hne (Option.some.inj he).symm
  · intro id hid l hl hu
    obtain rfl := Option.some.inj hid
    split at hu
    · cases hu.2
    · rename_i hne
      exact hfirst l hl hu fun he => hne (congrArg Slot.id he)

theorem ensureReader (h : Coherent s)
    (hcarry : carry = none ∨ s.holdsReads = true ∧ s.parked = none) :
    Coherent (s.ensureReader carry) := by
  rcases ensureReader_cases hcarry with ⟨-, he⟩ | ⟨-, -, he⟩ | ⟨k, hr, hk, he⟩
  · rwa [he]
  · rw [he]
    exact h.congr rfl (.refl _) (Nat.le_refl _) rfl rfl rfl rfl rfl
  · rw [he]
    exact h.startReader (h.holdsReads_iff.1 hr) hk

theorem ensureWriter (h : Coherent s) : Coherent s.ensureWriter := by
  rcases ensureWriter_cases h with ⟨he, -⟩ | ⟨k, hk, hw, -, -, he⟩
  · rwa [he]
  · rw [he]
    have hwritten : s.writtenId = none := by
      rw [writtenId, hw]
      rfl
    refine h.update (w := some k.id) (f := fun k => { k with writing := .running }) rfl rfl rfl
      rfl (fun _ => rfl) (fun _ hl => hl) rfl rfl ?_ ?_
      h.reader (fun id hid => ⟨k, hk, Option.some.inj hid⟩) h.closers
      (fun id hid l hl hu => h.oldest id hid l hl ?_) h.reads rfl
    · intro l hl he
      rw [← he]
      exact (h.agrees l hl).startWriting
    · intro l hl hne
      exact (h.agrees l hl).written_of_ne (by rw [hwritten]; simp)
        fun he => hne (Option.some.inj he).symm
    · split at hu
      · exact hu
      · exact hu

end Coherent

end

/-! ## Handlers in parts -/

section

variable (s : State) (id : DeviceId)

/-- The newest device is told to close. -/
def supersede : State :=
  match s.slots.getLast? with
  | none => s
  | some last => s.requestClose last.id

/-- A device is taken in, and the pumps that are free start. -/
def adopt (slot : Slot) : State :=
  { s with slots := s.slots ++ [slot] }.ensureWriter.ensureReader none

theorem addSlot_eq (device : DeviceRef) : s.addSlot id device = s.supersede.adopt { id, device } :=
  rfl

/-- A read pump starts anew, unless nobody is left to ask. -/
def restart : ReadExit → State
  | .drained carry => s.ensureReader carry
  | .failed => s.ensureReader none
  | .disconnected => s

theorem onReadExit_eq (exit : ReadExit) :
    s.onReadExit id exit = ((s.freeReader id).restart exit).prune := by
  cases exit <;> rfl

theorem restart_eq {s : State} (hr : s.holdsReads = true) (hp : s.parked = none)
    (exit : ReadExit) : ∃ slots reader parked holdsReads,
      s.restart exit = { s with slots, reader, parked, holdsReads } := by
  cases exit with
  | drained carry => exact ensureReader_eq (.inr ⟨hr, hp⟩)
  | failed => exact ensureReader_eq (.inl rfl)
  | disconnected => exact ⟨_, _, _, _, rfl⟩

/-- A device that its write pump has drained is closed. -/
def closeAfter (id : DeviceId) : WriteExit → State
  | .drained => s.startCloser id
  | .disconnected => s

theorem onWriteExit_eq (exit : WriteExit) :
    s.onWriteExit id exit = ((s.freeWriter id).closeAfter id exit).ensureWriter.prune := by
  cases exit <;> rfl

theorem onClosed_eq (error : Option TunnelError) :
    { s with closers := s.closers.filter (·.id != id) }.onClosed id error =
      { s.markClosed id with closeError := error.or s.closeError }.prune := by
  cases error <;> rfl

/-- All devices are told to close. -/
def closeAll (cause : Teardown) : State :=
  s.slots.foldl (fun s k => s.requestClose k.id)
    { s with closeError := none, coordinator := .tearingDown cause }

theorem beginTeardown_eq (cause : Teardown) :
    s.beginTeardown cause = (s.closeAll cause).settleTeardown := rfl

/-- The end of a teardown for a request that no device could serve. -/
def releaseParked : State :=
  { (match s.parked with
    | some r => s.answer r.caller (.packet [])
    | none => s) with parked := none, closeError := none }

/-- The end of a teardown. -/
def endTeardown : Teardown → State
  | .shutdown c => { s.releaseParked with coordinator := .serving }.answer c s.teardownAnswer
  | .close c => (s.releaseParked.answer c s.teardownAnswer).finish
  | .released => s.releaseParked.finish

/-- A teardown goes on while devices are listed. -/
theorem settleTeardown_cases :
    (s.settleTeardown = s ∧ ∀ cause, s.coordinator = .tearingDown cause → s.slots ≠ []) ∨
    ∃ cause, s.coordinator = .tearingDown cause ∧ s.slots = [] ∧
      s.settleTeardown = s.endTeardown cause := by
  unfold settleTeardown
  split
  · rename_i cause hc
    split
    · rename_i hs
      refine .inl ⟨rfl, ?_⟩
      intro _ _ hn
      simp [hn] at hs
    · rename_i hs
      refine .inr ⟨cause, hc, by simpa using hs, ?_⟩
      cases cause <;> rfl
  · rename_i hc
    exact .inl ⟨rfl, fun cause h => absurd h (hc cause)⟩

theorem endClose_eq (c : Caller) :
    s.endTeardown (.close c) = (s.endTeardown (.shutdown c)).finish := rfl

/-- The devices among the messages. -/
def lateDevices (ms : List Control) : List (DeviceId × DeviceRef) :=
  ms.filterMap fun
    | .add id device => some (id, device)
    | _ => none

/-- The end of the coordinator for messages. -/
def endControl : State :=
  { s with
    coordinator := .ended
    control := []
    lateCloses := s.lateCloses ++ lateDevices s.control }.refuse (controlCallers s.control)

theorem finish_eq : s.finish = s.endControl.dropReads.dropWrites := rfl

theorem shutReads_eq : ∃ calls reads, s.shutReads = { s with calls, reads } := by
  obtain ⟨calls, he⟩ := refuse_eq { s with reads := s.reads.shut } (s.reads.contents.map (·.caller))
  exact ⟨calls, _, he⟩

theorem shutWrites_eq : ∃ calls writes, s.shutWrites = { s with calls, writes } := by
  obtain ⟨calls, he⟩ :=
    refuse_eq { s with writes := s.writes.shut } (s.writes.contents.map (·.caller))
  exact ⟨calls, _, he⟩

theorem dropReads_eq :
    ∃ calls reads holdsReads, s.dropReads = { s with calls, reads, holdsReads } := by
  obtain ⟨calls, reads, he⟩ := shutReads_eq s
  unfold dropReads
  split
  · exact ⟨calls, reads, false, by rw [he]⟩
  · exact ⟨_, _, _, rfl⟩

theorem dropWrites_eq :
    ∃ calls writes holdsWrites, s.dropWrites = { s with calls, writes, holdsWrites } := by
  obtain ⟨calls, writes, he⟩ := shutWrites_eq s
  unfold dropWrites
  split
  · exact ⟨calls, writes, false, by rw [he]⟩
  · exact ⟨_, _, _, rfl⟩

theorem endControl_eq : ∃ calls lateCloses, s.endControl =
    { s with calls, lateCloses, coordinator := .ended, control := [] } := by
  obtain ⟨calls, he⟩ := refuse_eq { s with
    coordinator := .ended
    control := []
    lateCloses := s.lateCloses ++ lateDevices s.control } (controlCallers s.control)
  exact ⟨calls, _, he⟩

/-- Devices and pumps are left as they are. -/
theorem finish_parts : ∃ calls reads writes lateCloses holdsReads holdsWrites, s.finish =
    { s with
      calls, reads, writes, lateCloses, holdsReads, holdsWrites
      coordinator := .ended, control := [] } := by
  obtain ⟨_, lateCloses, hc⟩ := endControl_eq s
  obtain ⟨_, reads, _, hr⟩ := dropReads_eq s.endControl
  obtain ⟨calls, writes, _, hw⟩ := dropWrites_eq s.endControl.dropReads
  exact ⟨calls, reads, writes, lateCloses, _, _, by rw [finish_eq, hw, hr, hc]⟩

theorem coordinator_finish : s.finish.coordinator = .ended := by
  obtain ⟨_, _, _, _, _, _, he⟩ := finish_parts s
  rw [he]

/-- A crash for messages and what is parked. -/
def dropControl : State :=
  { s with coordinator := .crashed, control := [], closers := [], parked := none }.refuse
    (s.coordinator.caller?.toList ++ controlCallers s.control ++ callersOf s.parked)

/-- A crash for a read pump that is not at work: what it leaves is lost. -/
def dropReader : State :=
  match s.reader with
  | none => s
  | some pump =>
    match pump.stage with
    | .stopped exit => { s with reader := none }.shutReads.refuse exit.callers
    | .crashed => { s with reader := none }
    | .ready _ | .reading _ => s

/-- A crash for a write pump that is not at work. -/
def dropWriter : State :=
  match s.writer with
  | none => s
  | some pump =>
    match pump.stage with
    | .stopped _ => { s with writer := none }.shutWrites
    | .crashed => { s with writer := none }
    | .starting | .ready | .writing _ => s

theorem crash_eq :
    s.crash = s.dropControl.dropReads.dropReader.dropWrites.dropWriter := by
  unfold crash dropControl
  cases s.coordinator <;> rfl

theorem releaseParked_eq : ∃ calls, s.releaseParked =
    { s with calls, parked := none, closeError := none } := by
  unfold releaseParked
  split
  · exact ⟨_, rfl⟩
  · exact ⟨_, rfl⟩

theorem callers_releaseParked : s.releaseParked.callers = s.callers := by
  unfold releaseParked
  split
  · exact callers_answer
  · rfl

/-- After a shutdown without devices the coordinator serves again. -/
theorem endShutdown_eq (c : Caller) : ∃ calls, s.endTeardown (.shutdown c) =
    { s with calls, parked := none, closeError := none, coordinator := .serving } := by
  obtain ⟨calls, hr⟩ := releaseParked_eq s
  exact ⟨_, by rw [endTeardown, hr]; rfl⟩

theorem hasHandle_endShutdown (c : Caller) :
    (s.endTeardown (.shutdown c)).hasHandle = s.hasHandle := by
  obtain ⟨calls, hr⟩ := releaseParked_eq s
  have hcallers := callers_releaseParked s
  rw [hr] at hcallers
  rw [endTeardown, hasHandle_answer, hr, hasHandle_eq, hasHandle_eq, ← hcallers]
  rfl

/-- The end of a teardown leaves devices and pumps as they are. -/
theorem settleTeardown_parts :
    ∃ calls reads writes lateCloses parked closeError coordinator control holdsReads holdsWrites,
      s.settleTeardown = { s with
        calls, reads, writes, lateCloses, parked, closeError, coordinator, control
        holdsReads, holdsWrites } := by
  rcases settleTeardown_cases s with ⟨he, -⟩ | ⟨cause, -, -, he⟩
  · exact ⟨_, _, _, _, _, _, _, _, _, _, he⟩
  · rw [he]
    cases cause with
    | shutdown c =>
      obtain ⟨_, hs⟩ := endShutdown_eq s c
      exact ⟨_, _, _, _, _, _, _, _, _, _, hs⟩
    | close c =>
      obtain ⟨_, hs⟩ := endShutdown_eq s c
      obtain ⟨_, _, _, _, _, _, hf⟩ := finish_parts (s.endTeardown (.shutdown c))
      exact ⟨_, _, _, _, _, _, _, _, _, _, by rw [endClose_eq, hf, hs]⟩
    | released =>
      obtain ⟨_, hr⟩ := releaseParked_eq s
      obtain ⟨_, _, _, _, _, _, hf⟩ := finish_parts s.releaseParked
      exact ⟨_, _, _, _, _, _, _, _, _, _, by rw [endTeardown, hf, hr]⟩

/-- A coordinator that stops in good order has nothing in its hands. -/
theorem parked_settleTeardown (hc : s.isOver = false) (ho : s.settleTeardown.isOver = true) :
    s.slots = [] ∧ s.settleTeardown.parked = none := by
  rcases settleTeardown_cases s with ⟨he, -⟩ | ⟨cause, -, hnil, he⟩
  · rw [he, hc] at ho
    cases ho
  · rw [he]
    cases cause with
    | shutdown c =>
      obtain ⟨_, hs⟩ := endShutdown_eq s c
      exact ⟨hnil, by rw [hs]⟩
    | close c =>
      obtain ⟨_, hs⟩ := endShutdown_eq s c
      obtain ⟨_, _, _, _, _, _, hf⟩ := finish_parts (s.endTeardown (.shutdown c))
      exact ⟨hnil, by rw [endClose_eq, hf, hs]⟩
    | released =>
      obtain ⟨_, hr⟩ := releaseParked_eq s
      obtain ⟨_, _, _, _, _, _, hf⟩ := finish_parts s.releaseParked
      exact ⟨hnil, by rw [endTeardown, hf, hr]⟩

theorem dropControl_eq : ∃ calls, s.dropControl = { s with
    calls, coordinator := .crashed, control := [], closers := [], parked := none } :=
  refuse_eq { s with coordinator := .crashed, control := [], closers := [], parked := none } _

/-- A pump that is at work survives a crash. -/
theorem dropReader_eq : ∃ calls reads reader, s.dropReader = { s with calls, reads, reader } ∧
    (reader = s.reader ∨
      reader = none ∧ ∀ pump, s.reader = some pump → ∀ r, pump.stage ≠ .reading r) := by
  unfold dropReader
  split
  · exact ⟨_, _, s.reader, rfl, .inl rfl⟩
  · rename_i pump hr
    split
    · rename_i exit hs
      obtain ⟨_, reads, he⟩ := shutReads_eq { s with reader := none }
      obtain ⟨calls, he'⟩ := refuse_eq (shutReads { s with reader := none }) exit.callers
      refine ⟨calls, reads, none, by rw [he', he], .inr ⟨rfl, ?_⟩⟩
      intro pump' hp r hr'
      obtain rfl := Option.some.inj (hr.symm.trans hp)
      cases hs.symm.trans hr'
    · rename_i hs
      refine ⟨_, _, none, rfl, .inr ⟨rfl, ?_⟩⟩
      intro pump' hp r hr'
      obtain rfl := Option.some.inj (hr.symm.trans hp)
      cases hs.symm.trans hr'
    · exact ⟨_, _, s.reader, rfl, .inl rfl⟩
    · exact ⟨_, _, s.reader, rfl, .inl rfl⟩

theorem dropWriter_eq : ∃ calls writes writer, s.dropWriter = { s with calls, writes, writer } := by
  unfold dropWriter
  repeat' split
  · exact ⟨_, _, s.writer, rfl⟩
  · obtain ⟨calls, writes, he⟩ := shutWrites_eq { s with writer := none }
    exact ⟨calls, writes, none, by rw [he]⟩
  · exact ⟨_, _, none, rfl⟩
  · exact ⟨_, _, s.writer, rfl⟩
  · exact ⟨_, _, s.writer, rfl⟩
  · exact ⟨_, _, s.writer, rfl⟩

theorem crash_parts : ∃ calls reads writes reader writer holdsReads holdsWrites, s.crash = { s with
    calls, reads, writes, reader, writer, holdsReads, holdsWrites
    coordinator := .crashed, control := [], closers := [], parked := none } ∧
    (reader = s.reader ∨
      reader = none ∧ ∀ pump, s.reader = some pump → ∀ r, pump.stage ≠ .reading r) := by
  obtain ⟨_, hc⟩ := dropControl_eq s
  obtain ⟨_, _, _, hq⟩ := dropReads_eq s.dropControl
  obtain ⟨_, reads, reader, hr, hkept⟩ := dropReader_eq s.dropControl.dropReads
  obtain ⟨_, _, _, hv⟩ := dropWrites_eq s.dropControl.dropReads.dropReader
  obtain ⟨calls, writes, writer, hw⟩ := dropWriter_eq s.dropControl.dropReads.dropReader.dropWrites
  rw [hq, hc] at hkept
  exact ⟨calls, reads, writes, reader, writer, _, _, by rw [crash_eq, hw, hv, hr, hq, hc], hkept⟩

theorem coordinator_crash : s.crash.coordinator = .crashed := by
  obtain ⟨_, _, _, _, _, _, _, he, -⟩ := crash_parts s
  rw [he]

theorem supersede_eq : ∃ slots closers, s.supersede = { s with slots, closers } := by
  unfold supersede
  split
  · exact ⟨_, _, rfl⟩
  · exact requestClose_eq s _

theorem adopt_eq (slot : Slot) :
    ∃ slots reader writer parked holdsReads holdsWrites, s.adopt slot =
      { s with slots, reader, writer, parked, holdsReads, holdsWrites } := by
  obtain ⟨_, writer, _, hw⟩ := ensureWriter_eq { s with slots := s.slots ++ [slot] }
  obtain ⟨slots, reader, parked, _, hr⟩ := ensureReader_eq
    (s := { s with slots := s.slots ++ [slot] }.ensureWriter) (.inl (Eq.refl none))
  exact ⟨slots, reader, writer, parked, _, _, by rw [adopt, hr, hw]⟩

theorem coordinator_addSlot (device : DeviceRef) :
    (s.addSlot id device).coordinator = s.coordinator := by
  obtain ⟨_, _, hs⟩ := supersede_eq s
  obtain ⟨_, _, _, _, _, _, ha⟩ := adopt_eq s.supersede { id, device }
  rw [addSlot_eq, ha, hs]

theorem closeAfter_eq (exit : WriteExit) :
    ∃ slots closers, s.closeAfter id exit = { s with slots, closers } := by
  cases exit with
  | drained => exact startCloser_eq s id
  | disconnected => exact ⟨_, _, rfl⟩

theorem After.freeReader : After s (s.freeReader id) :=
  After.update fun _ _ _ =>
    ⟨rfl, rfl, fun ha => ha, fun hc => hc, fun hi => (by cases hi), fun hi => hi, fun hc => hc⟩

theorem Steady.freeWriter : Steady s (s.freeWriter id) :=
  Steady.update fun _ _ _ =>
    ⟨⟨rfl, rfl, fun ha => ha, fun hc => hc, fun hi => hi, fun hi => (by cases hi), fun hc => hc⟩,
      fun hd => hd⟩

theorem Steady.markClosed : Steady s (s.markClosed id) :=
  Steady.update fun _ _ _ =>
    ⟨⟨rfl, rfl, fun ha => (by cases ha), fun _ => rfl, fun hi => hi, fun hi => hi, fun hc => hc⟩,
      fun hd => hd⟩

end

end State

end SeamlessTunnel.Multiplexer
