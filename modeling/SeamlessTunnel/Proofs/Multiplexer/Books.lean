import SeamlessTunnel.Proofs.Multiplexer.Closing
/-
  SeamlessTunnel.Proofs.Multiplexer.Books — the coordinator's books balance.

  Between two of its steps the list of devices, the two queues, the read that is kept and
  the closers say the same: only the newest device is active, the coordinator has a queue in
  its hands exactly while no device is marked as running for it, and there is one closer for
  each device that is marked as closing (`balanced_of_run`). What the handlers keep is
  `Settled`, with the owner of each queue in `Coherent`; the books follow from it.
-/

namespace SeamlessTunnel.Multiplexer.State

/-- The devices that are being closed. -/
def closingSlots (s : State) : List Slot :=
  s.slots.filter fun k => k.closing && k.phase != .closed

structure Balanced (s : State) : Prop where
  older : ∀ before k after, s.slots = before ++ k :: after → after ≠ [] → k.phase ≠ .active
  newest : (∀ cause, s.coordinator ≠ .tearingDown cause) →
    ∀ k, s.slots.getLast? = some k → k.phase = .active ∧ k.closing = false
  reading : (s.slots.filter (·.reading = .running)).length ≤ 1
  reads : s.holdsReads = true ↔ ∀ k ∈ s.slots, k.reading ≠ .running
  parked : s.parked ≠ none →
    s.holdsReads = true ∧ ∀ k ∈ s.slots, ¬ (k.phase ≠ .closed ∧ k.reading = .idle)
  writing : (s.slots.filter (·.writing = .running)).length ≤ 1
  writes : s.holdsWrites = true ↔ ∀ k ∈ s.slots, k.writing ≠ .running
  /-- One closer for each device that is being closed, and no other. -/
  closes : s.closerIds.Perm (s.closingSlots.map (·.id))
  retired : ∀ k ∈ s.slots, ¬ (k.phase = .closed ∧ k.reading ≠ .running ∧ k.writing ≠ .running)

section

variable {s : State} {ms : List Move}

theorem Coherent.nodup_ids (h : Coherent s) : (s.slots.map (·.id)).Nodup := by
  have hasc := (List.pairwise_append.1 h.ascending).1
  rw [List.pairwise_map] at hasc
  refine List.pairwise_map.2 (hasc.imp ?_)
  intro k l hlt he
  rw [he] at hlt
  exact Nat.lt_irrefl _ hlt

/-- A mark that stands for one device is on at most one. -/
theorem Coherent.filter_length_le_one (h : Coherent s) {p : Slot → Bool} {owner : Option DeviceId}
    (hp : ∀ k ∈ s.slots, p k = true → owner = some k.id) : (s.slots.filter p).length ≤ 1 := by
  have hnodup : ((s.slots.filter p).map (·.id)).Nodup := h.nodup_ids.sublist (List.filter_sublist.map _)
  have howner : ∀ k ∈ s.slots.filter p, owner = some k.id := fun k hk =>
    hp k (List.mem_filter.1 hk).1 (List.mem_filter.1 hk).2
  match hl : s.slots.filter p with
  | [] => exact Nat.zero_le _
  | [_] => exact Nat.le_refl _
  | k :: l :: rest =>
    rw [hl] at hnodup howner
    have hsame : k.id = l.id := Option.some.inj ((howner k (by simp)).symm.trans (howner l (by simp)))
    simp [hsame] at hnodup

theorem Coherent.holdsReads_iff_running (h : Coherent s) :
    s.holdsReads = true ↔ ∀ k ∈ s.slots, k.reading ≠ .running := by
  rw [h.holdsReads_iff, ← readId_eq_none]
  constructor
  · intro hn k hk hrun
    rw [(h.agrees k hk).reading.1 hrun] at hn
    cases hn
  · intro hall
    by_contra hn
    obtain ⟨id, hid⟩ := Option.ne_none_iff_exists'.1 hn
    obtain ⟨k, hk, rfl⟩ := h.reader id hid
    exact hall k hk ((h.agrees k hk).reading.2 hid)

theorem Coherent.holdsWrites_iff_running (h : Coherent s) :
    s.holdsWrites = true ↔ ∀ k ∈ s.slots, k.writing ≠ .running := by
  rw [h.holdsWrites_iff, ← writtenId_eq_none]
  constructor
  · intro hn k hk hrun
    rw [(h.agrees k hk).writing.1 hrun] at hn
    cases hn
  · intro hall
    by_contra hn
    obtain ⟨id, hid⟩ := Option.ne_none_iff_exists'.1 hn
    obtain ⟨k, hk, rfl⟩ := h.writer id hid
    exact hall k hk ((h.agrees k hk).writing.2 hid)

/-- Closers that are not there twice are those of the devices that are being closed. -/
theorem Coherent.perm_closerIds (h : Coherent s) (hn : s.closerIds.Nodup) :
    s.closerIds.Perm (s.closingSlots.map (·.id)) := by
  have hnodup : (s.closingSlots.map (·.id)).Nodup := h.nodup_ids.sublist (List.filter_sublist.map _)
  refine (List.perm_ext_iff_of_nodup hn hnodup).2 fun id => ?_
  simp only [closingSlots, List.mem_map, List.mem_filter, Bool.and_eq_true, bne_iff_ne]
  constructor
  · intro hid
    obtain ⟨k, hk, rfl⟩ := h.closers id hid
    exact ⟨k, ⟨hk, (h.agrees k hk).closers.1 hid⟩, rfl⟩
  · rintro ⟨k, ⟨hk, hc⟩, rfl⟩
    exact (h.agrees k hk).closers.2 hc

/-- Outside a teardown the newest device is active, and its close was not asked for. -/
theorem Settled.newest (h : Settled s) (hc : s.coordinator = .serving) {k : Slot}
    (hk : s.slots.getLast? = some k) : k.phase = .active ∧ k.closing = false := by
  have hcoh := h.tended.coherent
  have hmem : k ∈ s.slots := List.mem_of_getLast? hk
  obtain ⟨l, hl, ha⟩ := List.mem_map.1 (h.tended.serving hc (List.ne_nil_of_mem hmem))
  have hlast := hcoh.last_of_active hl ha
  rw [hk] at hlast
  obtain rfl := Option.some.inj hlast
  refine ⟨ha, ?_⟩
  by_contra hclosing
  exact (hcoh.agrees k hmem).drains (by simpa using hclosing) ha

/-- In every state of a run whose coordinator works, its books balance. -/
theorem balanced_of_run {settings : MultiplexerSettings} (h : Run (.init settings) ms s)
    (ho : s.isOver = false) : Balanced s := by
  have hset := settled_of_run h ho
  have hcoh := hset.tended.coherent
  have hserving : (∀ cause, s.coordinator ≠ .tearingDown cause) → s.coordinator = .serving := by
    intro hn
    cases hc : s.coordinator with
    | serving => rfl
    | tearingDown cause => exact absurd hc (hn cause)
    | ended => simp [isOver, hc] at ho
    | crashed => simp [isOver, hc] at ho
  exact
    { older := by
        intro before k after he hne
        have hnewest := hcoh.newest
        rw [he] at hnewest
        obtain ⟨l, hl⟩ := List.exists_mem_of_ne_nil _ hne
        exact (List.pairwise_cons.1 (List.pairwise_append.1 hnewest).2.1).1 l hl
      newest := fun hn k hk => hset.newest (hserving hn) hk
      reading := hcoh.filter_length_le_one fun k hk hrun =>
        (hcoh.agrees k hk).reading.1 (of_decide_eq_true hrun)
      reads := hcoh.holdsReads_iff_running
      parked := fun hp => (hset.tended.reads.parked hp).imp_left hcoh.holdsReads_iff.2
      writing := hcoh.filter_length_le_one fun k hk hrun =>
        (hcoh.agrees k hk).writing.1 (of_decide_eq_true hrun)
      writes := hcoh.holdsWrites_iff_running
      closes := hcoh.perm_closerIds (guarded_of_run h).1
      retired := by
        rintro k hk ⟨hp, hr, hw⟩
        have hretired := hset.tended.retired k hk
        simp [Slot.isRetired, hp, hr, hw] at hretired }

/-- Three devices come while the first is being read. The second was never written to and is
    closed at once, the first once its write pump has ended. -/
def overtaking : List Move :=
  [.add 0, .control, .pollWriter, .call 7 (.read 64), .pollReader, .add 1, .control, .add 2,
    .control, .pollWriter, .joinWriter, .closeReturned ⟨2⟩ (.value ())]

def overtaken : State where
  defaultMtu := 1280
  slots :=
    [{ id := ⟨1⟩, device := 0, phase := .draining, reading := .running, writing := .done,
        closing := true },
      { id := ⟨2⟩, device := 1, phase := .draining, closing := true },
      { id := ⟨3⟩, device := 2, writing := .running }]
  reads := { capacity := 64 }
  writes := { capacity := 64 }
  events := { capacity := 64 }
  holdsReads := false
  holdsWrites := false
  reader := some ⟨⟨1⟩, 0, .reading ⟨7, 64⟩⟩
  writer := some ⟨⟨3⟩, 2, .starting⟩
  closers := [{ id := ⟨2⟩, device := 1, result := some (.value ()) }, { id := ⟨1⟩, device := 0 }]
  added := 3
  calls := [{ caller := 7 }]

/-- Two devices are being closed while the newest is written and the oldest read. -/
theorem balanced_overtaken : Run (.init {}) overtaking overtaken ∧ overtaken.isOver = false ∧
    overtaken.closingSlots.length = 2 ∧ Balanced overtaken := by
  have hrun : Run (.init {}) overtaking overtaken := .of_foldlM rfl
  exact ⟨hrun, rfl, rfl, balanced_of_run hrun rfl⟩

end

end SeamlessTunnel.Multiplexer.State
