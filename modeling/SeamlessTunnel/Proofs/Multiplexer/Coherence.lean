import SeamlessTunnel.Proofs.Multiplexer.Calls
/-
  SeamlessTunnel.Proofs.Multiplexer.Coherence — the records of the coordinator are true.

  `Coherent` holds at every moment of a coordinator's work: ids ascend, no device but the
  newest is active, what a slot records of pumps and of its close is what runs, and the
  coordinator has a queue in its hands exactly while no pump has it. Each
  small act of the coordinator keeps it (`Coherent.drain`, `Coherent.startCloser`,
  `Coherent.startReader`, ...), and so do the parts of its handlers that are made of them.
-/

namespace SeamlessTunnel.Multiplexer

/-- The number of a device on its way to the coordinator. -/
def Control.number? : Control → Option Nat
  | add id _ => some id.number
  | _ => none

/-- Whether a slot's record agrees with what runs: the device that is read, the one that is
    written, and those with a closer. -/
structure Slot.Agrees (k : Slot) (read written : Option DeviceId) (closers : List DeviceId) :
    Prop where
  reading : k.reading = .running ↔ read = some k.id
  writing : k.writing = .running ↔ written = some k.id
  closers : k.id ∈ closers ↔ k.closing = true ∧ k.phase ≠ .closed
  drains : k.closing = true → k.phase ≠ .active
  closes : k.phase = .closed → k.closing = true

namespace State

/-- The devices listed and those on their way, oldest first. -/
def numbers (s : State) : List Nat :=
  s.slots.map (·.id.number) ++ s.control.filterMap (·.number?)

def readId (s : State) : Option DeviceId :=
  s.reader.map (·.id)

def writtenId (s : State) : Option DeviceId :=
  s.writer.map (·.id)

def closerIds (s : State) : List DeviceId :=
  s.closers.map (·.id)

theorem readId_of_reader {s : State} {pump : ReadPump} (h : s.reader = some pump) :
    s.readId = some pump.id := by
  rw [readId, h]
  rfl

theorem writtenId_of_writer {s : State} {pump : WritePump} (h : s.writer = some pump) :
    s.writtenId = some pump.id := by
  rw [writtenId, h]
  rfl

theorem readId_eq_none {s : State} : s.readId = none ↔ s.reader = none := by
  simp [readId]

theorem writtenId_eq_none {s : State} : s.writtenId = none ↔ s.writer = none := by
  simp [writtenId]

/-- A device that a read pump may still start on. -/
def Unread (k : Slot) : Prop :=
  k.phase ≠ .closed ∧ k.reading = .idle

structure Coherent (s : State) : Prop where
  ascending : s.numbers.Pairwise (· < ·)
  counted : ∀ n ∈ s.numbers, n ≤ s.added
  agrees : ∀ k ∈ s.slots, k.Agrees s.readId s.writtenId s.closerIds
  newest : s.slots.Pairwise fun k _ => k.phase ≠ .active
  reader : ∀ id, s.readId = some id → ∃ k ∈ s.slots, k.id = id
  writer : ∀ id, s.writtenId = some id → ∃ k ∈ s.slots, k.id = id
  closers : ∀ id ∈ s.closerIds, ∃ k ∈ s.slots, k.id = id
  /-- Devices that were never read are newer than the one that is. -/
  oldest : ∀ id, s.readId = some id → ∀ k ∈ s.slots, Unread k → id.number < k.id.number
  reads : s.holdsReads = s.readId.isNone
  writes : s.holdsWrites = s.writtenId.isNone

namespace Coherent

variable {s t : State} {id : DeviceId}

/-- Only slots, tasks, messages and the number of devices matter. -/
theorem congr (h : Coherent s) (hslots : t.slots = s.slots)
    (hnumbers : t.numbers.Sublist s.numbers) (hadded : s.added ≤ t.added)
    (hread : t.readId = s.readId) (hwritten : t.writtenId = s.writtenId)
    (hclosers : t.closerIds = s.closerIds) (hreads : t.holdsReads = s.holdsReads)
    (hwrites : t.holdsWrites = s.holdsWrites) : Coherent t := by
  refine ⟨h.ascending.sublist hnumbers,
    fun n hn => Nat.le_trans (h.counted n (hnumbers.subset hn)) hadded, ?_, hslots ▸ h.newest,
    ?_, ?_, ?_, ?_, by rw [hreads, hread, h.reads], by rw [hwrites, hwritten, h.writes]⟩
  · rw [hslots, hread, hwritten, hclosers]
    exact h.agrees
  · rw [hread, hslots]
    exact h.reader
  · rw [hwritten, hslots]
    exact h.writer
  · rw [hclosers, hslots]
    exact h.closers
  · rw [hread, hslots]
    exact h.oldest

/-- The coordinator has the queue of reads exactly while there is no read pump. -/
theorem holdsReads_iff (h : Coherent s) : s.holdsReads = true ↔ s.reader = none := by
  rw [h.reads, Option.isNone_iff_eq_none, readId_eq_none]

/-- The coordinator has the queue of writes exactly while there is no write pump. -/
theorem holdsWrites_iff (h : Coherent s) : s.holdsWrites = true ↔ s.writer = none := by
  rw [h.writes, Option.isNone_iff_eq_none, writtenId_eq_none]

/-- Where no device is listed no task of one is left. -/
theorem idle (h : Coherent s) (hs : s.slots = []) :
    s.reader = none ∧ s.writer = none ∧ s.closers = [] := by
  have hnone : ∀ id, ¬ ∃ k ∈ s.slots, k.id = id := fun id => by simp [hs]
  refine ⟨?_, ?_, List.eq_nil_iff_forall_not_mem.2 fun k hk =>
    hnone k.id (h.closers k.id (List.mem_map_of_mem hk))⟩
  · by_contra hr
    obtain ⟨pump, hp⟩ := Option.ne_none_iff_exists'.1 hr
    exact hnone pump.id (h.reader pump.id (readId_of_reader hp))
  · by_contra hw
    obtain ⟨pump, hp⟩ := Option.ne_none_iff_exists'.1 hw
    exact hnone pump.id (h.writer pump.id (writtenId_of_writer hp))

/-- An act on slots that keeps ids and never makes a device active again. -/
theorem map (h : Coherent s) {f : Slot → Slot} {r w : Option DeviceId} {cs : List DeviceId}
    (hslots : t.slots = s.slots.map f) (hr : t.readId = r) (hw : t.writtenId = w)
    (hc : t.closerIds = cs) (hid : ∀ k, (f k).id = k.id)
    (hphase : ∀ k, k.phase ≠ .active → (f k).phase ≠ .active) (hcontrol : t.control = s.control)
    (hadded : t.added = s.added) (hagrees : ∀ k ∈ s.slots, (f k).Agrees r w cs)
    (hread : ∀ id, r = some id → ∃ k ∈ s.slots, k.id = id)
    (hwritten : ∀ id, w = some id → ∃ k ∈ s.slots, k.id = id)
    (hclosers : ∀ id ∈ cs, ∃ k ∈ s.slots, k.id = id)
    (holdest : ∀ id, r = some id → ∀ k ∈ s.slots, Unread (f k) → id.number < k.id.number)
    (hreads : t.holdsReads = r.isNone) (hwrites : t.holdsWrites = w.isNone) : Coherent t := by
  subst hr hw hc
  have hnumbers : t.numbers = s.numbers := by
    simp [numbers, hslots, hcontrol, hid, Function.comp_def]
  have hlisted : ∀ id, (∃ k ∈ s.slots, k.id = id) → ∃ k ∈ t.slots, k.id = id := by
    rintro id ⟨k, hk, rfl⟩
    exact ⟨f k, hslots ▸ List.mem_map_of_mem hk, hid k⟩
  refine ⟨hnumbers ▸ h.ascending, hnumbers ▸ hadded ▸ h.counted, ?_, ?_,
    fun id hr => hlisted id (hread id hr), fun id hw => hlisted id (hwritten id hw),
    fun id hc => hlisted id (hclosers id hc), ?_, hreads, hwrites⟩
  · rw [hslots]
    exact List.forall_mem_map.2 hagrees
  · rw [hslots, List.pairwise_map]
    exact h.newest.imp fun {k _} hk => hphase k hk
  · rw [hslots]
    intro id hr
    refine List.forall_mem_map.2 ?_
    intro k hk hu
    rw [hid]
    exact holdest id hr k hk hu

/-- Ids are not used twice. -/
theorem eq_of_id (h : Coherent s) {k l : Slot} (hk : k ∈ s.slots) (hl : l ∈ s.slots)
    (hid : k.id = l.id) : k = l := by
  have hnd : (s.slots.map (·.id.number)).Nodup :=
    (List.pairwise_append.1 h.ascending).1.imp Nat.ne_of_lt
  exact List.inj_on_of_nodup_map hnd hk hl (congrArg DeviceId.number hid)

theorem slot?_eq_some (h : Coherent s) {k : Slot} (hk : k ∈ s.slots) : s.slot? k.id = some k := by
  cases hf : s.slot? k.id with
  | none =>
    have := List.find?_eq_none.1 hf k hk
    simp at this
  | some l =>
    have hl : l.id = k.id := by simpa using List.find?_some hf
    rw [h.eq_of_id (List.mem_of_find?_eq_some hf) hk hl]

/-- An act on the slot of one device. -/
theorem update (h : Coherent s) {f : Slot → Slot} {r w : Option DeviceId} {cs : List DeviceId}
    (hslots : t.slots = (s.updateSlot id f).slots) (hr : t.readId = r) (hw : t.writtenId = w)
    (hc : t.closerIds = cs) (hid : ∀ k, (f k).id = k.id)
    (hphase : ∀ k, k.phase ≠ .active → (f k).phase ≠ .active) (hcontrol : t.control = s.control)
    (hadded : t.added = s.added)
    (hself : ∀ k ∈ s.slots, k.id = id → (f k).Agrees r w cs)
    (hother : ∀ k ∈ s.slots, k.id ≠ id → k.Agrees r w cs)
    (hread : ∀ id, r = some id → ∃ k ∈ s.slots, k.id = id)
    (hwritten : ∀ id, w = some id → ∃ k ∈ s.slots, k.id = id)
    (hclosers : ∀ id ∈ cs, ∃ k ∈ s.slots, k.id = id)
    (holdest : ∀ id', r = some id' → ∀ k ∈ s.slots, Unread (if k.id = id then f k else k) →
      id'.number < k.id.number)
    (hreads : t.holdsReads = r.isNone) (hwrites : t.holdsWrites = w.isNone) : Coherent t := by
  refine h.map hslots hr hw hc ?_ ?_ hcontrol hadded ?_ hread hwritten hclosers holdest hreads
    hwrites
  · intro k
    split
    · exact hid k
    · rfl
  · intro k hk
    split
    · exact hphase k hk
    · exact hk
  · intro k hk
    split
    · rename_i heq
      exact hself k hk heq
    · rename_i hne
      exact hother k hk hne

end Coherent

theorem mem_of_slot? {s : State} {id : DeviceId} {k : Slot} (h : s.slot? id = some k) :
    k ∈ s.slots ∧ k.id = id :=
  ⟨List.mem_of_find?_eq_some h, by simpa using List.find?_some h⟩

end State

/-! ## One slot -/

namespace Slot

/-- A device that is active starts to drain. -/
def drained (k : Slot) : Slot :=
  if k.phase = .active then { k with phase := .draining } else k

section

variable {k : Slot} {r w : Option DeviceId} {cs : List DeviceId} {id : DeviceId}

@[simp] theorem id_drained : k.drained.id = k.id := by grind [drained]
@[simp] theorem device_drained : k.drained.device = k.device := by grind [drained]
@[simp] theorem reading_drained : k.drained.reading = k.reading := by grind [drained]
@[simp] theorem writing_drained : k.drained.writing = k.writing := by grind [drained]
@[simp] theorem closing_drained : k.drained.closing = k.closing := by grind [drained]
@[simp] theorem phase_drained_ne : k.drained.phase ≠ .active := by grind [drained]
@[simp] theorem phase_drained_closed : k.drained.phase = .closed ↔ k.phase = .closed := by
  grind [drained]

@[simp] theorem isRetired_drained : k.drained.isRetired = k.isRetired := by
  grind [isRetired, drained]

theorem Agrees.drained (h : k.Agrees r w cs) : k.drained.Agrees r w cs := by
  refine ⟨?_, ?_, ?_, fun _ => phase_drained_ne, ?_⟩
  · simpa using h.reading
  · simpa using h.writing
  · simpa using h.closers
  · simpa using h.closes

theorem Agrees.close (h : k.Agrees r w cs) (hp : k.phase ≠ .active) (hc : k.phase ≠ .closed) :
    ({ k with closing := true } : Slot).Agrees r w (cs ++ [k.id]) :=
  ⟨h.reading, h.writing, by simp [hc], fun _ => hp, fun _ => rfl⟩

theorem Agrees.append_of_ne (h : k.Agrees r w cs) (hne : k.id ≠ id) :
    k.Agrees r w (cs ++ [id]) :=
  ⟨h.reading, h.writing, by simpa [hne] using h.closers, h.drains, h.closes⟩

theorem Agrees.closed (h : k.Agrees r w cs) (hid : k.id ∈ cs) :
    ({ k with phase := .closed } : Slot).Agrees r w (cs.filter (· != k.id)) :=
  ⟨h.reading, h.writing, by simp, fun _ => by simp, fun _ => (h.closers.1 hid).1⟩

theorem Agrees.filter_of_ne (h : k.Agrees r w cs) (hne : k.id ≠ id) :
    k.Agrees r w (cs.filter (· != id)) :=
  ⟨h.reading, h.writing, by simpa [hne] using h.closers, h.drains, h.closes⟩

theorem Agrees.startReading (h : k.Agrees r w cs) :
    ({ k with reading := .running } : Slot).Agrees (some k.id) w cs :=
  ⟨by simp, h.writing, h.closers, h.drains, h.closes⟩

theorem Agrees.stopReading (h : k.Agrees r w cs) :
    ({ k with reading := .done } : Slot).Agrees none w cs :=
  ⟨by simp, h.writing, h.closers, h.drains, h.closes⟩

theorem Agrees.read_of_ne {r' : Option DeviceId} (h : k.Agrees r w cs) (hr : r ≠ some k.id)
    (hr' : r' ≠ some k.id) : k.Agrees r' w cs :=
  ⟨by simpa [hr, hr'] using h.reading, h.writing, h.closers, h.drains, h.closes⟩

theorem Agrees.startWriting (h : k.Agrees r w cs) :
    ({ k with writing := .running } : Slot).Agrees r (some k.id) cs :=
  ⟨h.reading, by simp, h.closers, h.drains, h.closes⟩

theorem Agrees.stopWriting (h : k.Agrees r w cs) :
    ({ k with writing := .done } : Slot).Agrees r none cs :=
  ⟨h.reading, by simp, h.closers, h.drains, h.closes⟩

theorem Agrees.written_of_ne {w' : Option DeviceId} (h : k.Agrees r w cs) (hw : w ≠ some k.id)
    (hw' : w' ≠ some k.id) : k.Agrees r w' cs :=
  ⟨h.reading, by simpa [hw, hw'] using h.writing, h.closers, h.drains, h.closes⟩

end

end Slot

namespace State

/-! ## Acts -/

/-- The read pump has ended and its queue is back. -/
def freeReader (s : State) (id : DeviceId) : State :=
  { s with reader := none, holdsReads := true }.updateSlot id fun k => { k with reading := .done }

/-- The write pump has ended and its queue is back. -/
def freeWriter (s : State) (id : DeviceId) : State :=
  { s with writer := none, holdsWrites := true }.updateSlot id fun k => { k with writing := .done }

/-- A close has been reported. -/
def markClosed (s : State) (id : DeviceId) : State :=
  { s with closers := s.closers.filter (·.id != id) }.updateSlot id
    fun k => { k with phase := .closed }

namespace Coherent

variable {s : State} {id : DeviceId}

theorem drain (h : Coherent s) : Coherent (s.updateSlot id Slot.drained) := by
  refine h.update rfl rfl rfl rfl (fun _ => Slot.id_drained) (fun _ _ => Slot.phase_drained_ne)
    rfl rfl (fun k hk _ => (h.agrees k hk).drained) (fun k hk _ => h.agrees k hk) h.reader
    h.writer h.closers (fun id' hr k hk hu => h.oldest id' hr k hk ?_) h.reads h.writes
  split at hu
  · simpa [Unread] using hu
  · exact hu

theorem startCloser (h : Coherent s) (hp : ∀ k ∈ s.slots, k.id = id → k.phase ≠ .active) :
    Coherent (s.startCloser id) := by
  unfold State.startCloser
  split
  · exact h
  · rename_i k hf
    obtain ⟨hk, rfl⟩ := mem_of_slot? hf
    split
    · exact h
    · rename_i hc
      simp only [Bool.or_eq_true, decide_eq_true_eq, not_or] at hc
      refine h.update (f := fun k => { k with closing := true }) rfl rfl rfl
        (show _ = s.closerIds ++ [k.id] from List.map_append) (fun _ => rfl) (fun _ hl => hl) rfl rfl
        ?_ (fun l hl hne => (h.agrees l hl).append_of_ne hne) h.reader
        h.writer ?_ (fun id' hr l hl hu => h.oldest id' hr l hl ?_) h.reads h.writes
      · intro l hl he
        obtain rfl := h.eq_of_id hl hk he
        exact (h.agrees l hl).close (hp l hl rfl) hc.2
      · intro id' hid'
        rcases List.mem_append.1 hid' with hid' | hid'
        · exact h.closers id' hid'
        · exact ⟨k, hk, (List.mem_singleton.1 hid').symm⟩
      · split at hu
        · exact hu
        · exact hu

theorem requestClose (h : Coherent s) : Coherent (s.requestClose id) := by
  have hd : Coherent (s.updateSlot id Slot.drained) := h.drain
  show Coherent (if _ then s.updateSlot id Slot.drained
    else (s.updateSlot id Slot.drained).startCloser id)
  split
  · exact hd
  · refine hd.startCloser ?_
    intro k hk he
    obtain ⟨l, -, rfl⟩ := List.mem_map.1 hk
    split at he
    · rename_i hl
      rw [if_pos hl]
      exact Slot.phase_drained_ne
    · contradiction

theorem prune (h : Coherent s) : Coherent s.prune := by
  have hsub : s.prune.slots.Sublist s.slots := List.filter_sublist
  have hkeep : ∀ k ∈ s.slots, k.isRetired = false → k ∈ s.prune.slots := fun k hk hr =>
    List.mem_filter.2 ⟨hk, by simp [hr]⟩
  refine ⟨h.ascending.sublist ((hsub.map _).append (.refl _)),
    fun n hn => h.counted n (((hsub.map _).append (.refl _)).subset hn),
    fun k hk => h.agrees k (hsub.subset hk), h.newest.sublist hsub, ?_,
    ?_, ?_, fun id hr k hk => h.oldest id hr k (hsub.subset hk), h.reads, h.writes⟩
  · intro id hr
    obtain ⟨k, hk, rfl⟩ := h.reader id hr
    exact ⟨k, hkeep k hk (by simp [Slot.isRetired, (h.agrees k hk).reading.2 hr]), rfl⟩
  · intro id hw
    obtain ⟨k, hk, rfl⟩ := h.writer id hw
    exact ⟨k, hkeep k hk (by simp [Slot.isRetired, (h.agrees k hk).writing.2 hw]), rfl⟩
  · intro id hc
    obtain ⟨k, hk, rfl⟩ := h.closers id hc
    exact ⟨k, hkeep k hk (by simp [Slot.isRetired, ((h.agrees k hk).closers.1 hc).2]), rfl⟩

theorem freeReader (h : Coherent s) (hr : s.readId = some id) : Coherent (s.freeReader id) := by
  refine h.update (r := none) (f := fun k => { k with reading := .done }) rfl rfl rfl rfl
    (fun _ => rfl) (fun _ hk => hk) rfl rfl (fun k hk _ => (h.agrees k hk).stopReading)
    (fun k hk hne => (h.agrees k hk).read_of_ne ?_ (by simp)) (fun _ hn => by cases hn) h.writer
    h.closers (fun _ hn => by cases hn) rfl h.writes
  rw [hr]
  exact fun he => hne (Option.some.inj he).symm

theorem freeWriter (h : Coherent s) (hw : s.writtenId = some id) : Coherent (s.freeWriter id) := by
  refine h.update (w := none) (f := fun k => { k with writing := .done }) rfl rfl rfl rfl
    (fun _ => rfl) (fun _ hk => hk) rfl rfl (fun k hk _ => (h.agrees k hk).stopWriting)
    (fun k hk hne => (h.agrees k hk).written_of_ne ?_ (by simp)) h.reader
    (fun _ hn => by cases hn) h.closers (fun id' hr k hk hu => h.oldest id' hr k hk ?_) h.reads rfl
  · rw [hw]
    exact fun he => hne (Option.some.inj he).symm
  · split at hu
    · exact hu
    · exact hu

theorem markClosed (h : Coherent s) (hc : id ∈ s.closerIds) : Coherent (s.markClosed id) := by
  have hcl : (s.closers.filter (·.id != id)).map (·.id) = s.closerIds.filter (· != id) := by
    rw [closerIds, List.filter_map]
    rfl
  refine h.update (f := fun k => { k with phase := .closed }) rfl rfl rfl hcl (fun _ => rfl)
    (fun _ _ => by simp) rfl rfl ?_
    (fun k hk hne => (h.agrees k hk).filter_of_ne hne) h.reader h.writer
    (fun id' hid' => h.closers id' (List.mem_filter.1 hid').1)
    (fun id' hr k hk hu => h.oldest id' hr k hk ?_) h.reads h.writes
  · intro k hk he
    subst he
    exact (h.agrees k hk).closed hc
  · split at hu
    · exact absurd rfl hu.1
    · exact hu

/-- A device is taken in as the newest. -/
theorem append (h : Coherent s) {device : DeviceRef} (hlast : ∀ k ∈ s.slots, k.phase ≠ .active)
    (hlt : ∀ k ∈ s.slots, k.id.number < id.number)
    (hgt : ∀ n ∈ s.control.filterMap (·.number?), id.number < n) (hle : id.number ≤ s.added) :
    Coherent { s with slots := s.slots ++ [({ id, device } : Slot)] } := by
  have hnew : ∀ k ∈ s.slots, k.id ≠ id := fun k hk he => by
    have := hlt k hk
    rw [he] at this
    exact Nat.lt_irrefl _ this
  have hlisted : ¬ ∃ k ∈ s.slots, k.id = id := fun ⟨k, hk, he⟩ => hnew k hk he
  have hagrees : Slot.Agrees { id, device } s.readId s.writtenId s.closerIds :=
    { reading := ⟨fun hr => (by cases hr), fun hr => absurd (h.reader id hr) hlisted⟩
      writing := ⟨fun hw => (by cases hw), fun hw => absurd (h.writer id hw) hlisted⟩
      closers := ⟨fun hc => absurd (h.closers id hc) hlisted, fun hc => (by cases hc.1)⟩
      drains := fun hc => (by cases hc)
      closes := fun hc => (by cases hc) }
  obtain ⟨hasc, hasc', hcross⟩ := List.pairwise_append.1 h.ascending
  have hold : ∀ id', (∃ k ∈ s.slots, k.id = id') →
      ∃ k ∈ s.slots ++ [({ id, device } : Slot)], k.id = id' := by
    rintro id' ⟨k, hk, rfl⟩
    exact ⟨k, List.mem_append_left _ hk, rfl⟩
  refine ⟨?_, ?_, ?_, ?_, fun id' hr => hold id' (h.reader id' hr),
    fun id' hw => hold id' (h.writer id' hw), fun id' hc => hold id' (h.closers id' hc), ?_,
    h.reads, h.writes⟩
  · simp only [numbers, List.map_append, List.map_cons, List.map_nil, List.append_assoc]
    refine List.pairwise_append.2 ⟨hasc, List.pairwise_cons.2 ⟨hgt, hasc'⟩, ?_⟩
    intro a ha b hb
    rcases List.mem_append.1 hb with hb | hb
    · obtain ⟨k, hk, rfl⟩ := List.mem_map.1 ha
      obtain rfl := List.mem_singleton.1 hb
      exact hlt k hk
    · exact hcross a ha b hb
  · intro n hn
    simp only [numbers, List.map_append, List.mem_append, List.map_cons, List.map_nil,
      List.mem_singleton] at hn
    rcases hn with (hn | rfl) | hn
    · exact h.counted n (List.mem_append_left _ hn)
    · exact hle
    · exact h.counted n (List.mem_append_right _ hn)
  · intro k hk
    rcases List.mem_append.1 hk with hk | hk
    · exact h.agrees k hk
    · obtain rfl := List.mem_singleton.1 hk
      exact hagrees
  · exact List.pairwise_append.2 ⟨h.newest, List.pairwise_singleton _ _,
      fun k hk _ _ => hlast k hk⟩
  · intro id' hr k hk hu
    rcases List.mem_append.1 hk with hk | hk
    · exact h.oldest id' hr k hk hu
    · obtain rfl := List.mem_singleton.1 hk
      obtain ⟨l, hl, rfl⟩ := h.reader id' hr
      exact hlt l hl

end Coherent

end State

end SeamlessTunnel.Multiplexer
