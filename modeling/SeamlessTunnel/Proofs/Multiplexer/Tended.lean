import SeamlessTunnel.Proofs.Multiplexer.Acts
/-
  SeamlessTunnel.Proofs.Multiplexer.Tended — the coordinator leaves nothing undone.

  Between two of its steps each pump that can run does run, each device that was superseded
  is being closed or waits for its write pump, and no retired device is listed (`Tended`).
  Each handler keeps this (`Tended.addSlot`, `Tended.onReadExit`, `Tended.onWriteExit`,
  `Tended.onClosed`, `Tended.beginTeardown`), and a teardown lasts only while devices are
  listed (`settled_settleTeardown`).
-/

namespace SeamlessTunnel.Multiplexer

/-- A device that is no longer active is being closed or waits for its write pump, and the
    write pump has not left an active one, as long as someone holds the multiplexer. -/
def Slot.Tended (live : Bool) (k : Slot) : Prop :=
  (k.phase ≠ .active → k.closing = true ∨ k.writing = .running ∨ live = false) ∧
  (k.phase = .active → k.writing = .done → live = false)

namespace State

/-- Whether a device is past its active phase or gone. -/
def Inactive (s : State) (id : DeviceId) : Prop :=
  ∀ k ∈ s.slots, k.id = id → k.phase ≠ .active

/-- Why a read pump may have stopped. -/
def ReadExitFits (s : State) (id : DeviceId) : ReadExit → Prop
  | .drained _ => s.Inactive id
  | .failed => True
  | .disconnected => s.hasHandle = false

/-- Why a write pump may have stopped. -/
def WriteExitFits (s : State) (id : DeviceId) : WriteExit → Prop
  | .drained => s.Inactive id
  | .disconnected => s.hasHandle = false

/-- The read pump has stopped for a reason. -/
def ReadExits (s : State) : Prop :=
  ∀ pump exit, s.reader = some pump → pump.stage = .stopped exit → s.ReadExitFits pump.id exit

/-- The write pump has stopped for a reason. -/
def WriteExits (s : State) : Prop :=
  ∀ pump exit, s.writer = some pump → pump.stage = .stopped exit → s.WriteExitFits pump.id exit

/-- A read pump runs while there is a device for it, and a request is kept only while there
    is none. -/
structure ReaderTended (s : State) : Prop where
  idle : s.reader = none → s.hasHandle = true → ∀ k ∈ s.slots, ¬ Unread k
  parked : s.parked ≠ none → s.reader = none ∧ ∀ k ∈ s.slots, ¬ Unread k
  exits : s.ReadExits

/-- A write pump runs while there is a device for it. -/
structure WriterTended (s : State) : Prop where
  idle : s.writer = none → ∀ k ∈ s.slots, k.phase = .active → k.writing ≠ .idle
  exits : s.WriteExits

def ClosesTended (s : State) : Prop :=
  ∀ k ∈ s.slots, k.Tended s.hasHandle

structure Kept (s : State) : Prop where
  coherent : Coherent s
  reads : ReaderTended s
  writes : WriterTended s
  closes : ClosesTended s
  retired : ∀ k ∈ s.slots, k.isRetired = false

/-- What the devices are like depends on whether all are being closed. -/
structure Tended (s : State) : Prop extends Kept s where
  serving : s.coordinator = .serving → s.slots ≠ [] → .active ∈ s.phases
  tearing : ∀ cause, s.coordinator = .tearingDown cause → .active ∉ s.phases

/-- Nothing is left to do but to wait. -/
structure Settled (s : State) : Prop where
  tended : Tended s
  listed : ∀ cause, s.coordinator = .tearingDown cause → s.slots ≠ []

section

variable {s t : State} {id : DeviceId} {f : Slot → Slot} {carry : Option ReadRequest}

/-! ## Acts on other things -/

theorem Inactive.after (h : s.Inactive id) (ha : After s t) : t.Inactive id := by
  intro k' hk' hid hactive
  obtain ⟨k, hk, hl⟩ := ha k' hk'
  exact h k hk (hl.id.symm.trans hid) (hl.active hactive)

theorem ReadExits.after (h : s.ReadExits) (ha : After s t) (hreader : t.reader = s.reader)
    (hlive : t.hasHandle = s.hasHandle) : t.ReadExits := by
  intro pump exit hp he
  rw [hreader] at hp
  have hfits := h pump exit hp he
  cases exit with
  | drained carry => exact hfits.after ha
  | failed => trivial
  | disconnected => exact hlive.trans hfits

theorem WriteExits.after (h : s.WriteExits) (ha : After s t) (hwriter : t.writer = s.writer)
    (hlive : t.hasHandle = s.hasHandle) : t.WriteExits := by
  intro pump exit hp he
  rw [hwriter] at hp
  have hfits := h pump exit hp he
  cases exit with
  | drained => exact hfits.after ha
  | disconnected => exact hlive.trans hfits

theorem After.not_unread (ha : After s t) (h : ∀ k ∈ s.slots, ¬ Unread k) :
    ∀ k ∈ t.slots, ¬ Unread k := fun k' hk' hu => by
  obtain ⟨k, hk, hl⟩ := ha k' hk'
  exact h k hk (hl.of_unread hu)

theorem ReaderTended.after (h : ReaderTended s) (ha : After s t) (hreader : t.reader = s.reader)
    (hparked : t.parked = s.parked) (hlive : t.hasHandle = s.hasHandle) : ReaderTended t := by
  refine ⟨fun hn hh => ha.not_unread (h.idle (hreader ▸ hn) (hlive ▸ hh)), ?_,
    h.exits.after ha hreader hlive⟩
  intro hp
  obtain ⟨hn, hu⟩ := h.parked (hparked ▸ hp)
  exact ⟨hreader.trans hn, ha.not_unread hu⟩

theorem WriterTended.after (h : WriterTended s) (ha : After s t) (hwriter : t.writer = s.writer)
    (hlive : t.hasHandle = s.hasHandle) : WriterTended t := by
  refine ⟨?_, h.exits.after ha hwriter hlive⟩
  intro hn k' hk' hactive hidle
  obtain ⟨k, hk, hl⟩ := ha k' hk'
  exact h.idle (hwriter ▸ hn) k hk (hl.active hactive) (hl.unwritten hidle)

/-- An act on slots that leaves alone what closes depend on. -/
theorem ClosesTended.update (h : ClosesTended s) (hslots : t.slots = (s.updateSlot id f).slots)
    (hlive : t.hasHandle = s.hasHandle)
    (hf : ∀ k ∈ s.slots, k.id = id → k.Tended s.hasHandle → (f k).Tended s.hasHandle) :
    ClosesTended t := by
  intro k' hk'
  rw [hslots] at hk'
  rw [hlive]
  obtain ⟨k, hk, ⟨he, rfl⟩ | ⟨-, rfl⟩⟩ := mem_updateSlot hk'
  · exact hf k hk he (h k hk)
  · exact h k' hk

theorem ClosesTended.of_slots (h : ClosesTended s) (hslots : t.slots = s.slots)
    (hlive : t.hasHandle = s.hasHandle) : ClosesTended t := by
  intro k hk
  rw [hlive]
  exact h k (hslots ▸ hk)

theorem ClosesTended.prune (h : ClosesTended s) : ClosesTended s.prune :=
  fun k hk => h k (mem_prune.1 hk).1

theorem tended_of_requested {k : Slot} {live : Bool} (h : Requested k) : k.Tended live := by
  refine ⟨?_, fun ha => absurd ha h.1⟩
  intro _
  rcases h.2 with hc | hw
  · exact .inl hc
  · exact .inr (.inl hw)

theorem ClosesTended.requestClose (h : ClosesTended s) (hcoh : Coherent s) :
    ClosesTended (s.requestClose id) := by
  intro k hk
  obtain ⟨slots, closers, he⟩ := requestClose_eq s id
  have hlive : (s.requestClose id).hasHandle = s.hasHandle := by rw [he]; rfl
  rw [hlive]
  rcases mem_requestClose hcoh hk with ⟨-, hk⟩ | ⟨-, hr, -⟩
  · exact h k hk
  · exact tended_of_requested hr

/-! ## Starting pumps -/

theorem hasHandle_ensureReader (hcarry : carry = none ∨ s.holdsReads = true ∧ s.parked = none) :
    (s.ensureReader carry).hasHandle = s.hasHandle := by
  obtain ⟨_, _, _, _, he⟩ := ensureReader_eq hcarry
  rw [he]
  rfl

theorem hasHandle_ensureWriter : s.ensureWriter.hasHandle = s.hasHandle := by
  obtain ⟨_, _, _, he⟩ := ensureWriter_eq s
  rw [he]
  rfl

theorem ReaderTended.ensureReader (hcoh : Coherent s)
    (hcarry : carry = none ∨ s.holdsReads = true ∧ s.parked = none)
    (hparked : s.parked ≠ none → s.reader = none) (hexits : s.ReadExits) :
    ReaderTended (s.ensureReader carry) := by
  rcases ensureReader_cases hcarry with ⟨hr, he⟩ | ⟨hr, hu, he⟩ | ⟨k, hr, hk, he⟩
  · have hbusy : s.reader ≠ none := fun hn => by
      rw [hcoh.holdsReads_iff.2 hn] at hr
      cases hr
    rw [he]
    exact ⟨fun hn => absurd hn hbusy, fun hp => absurd (hparked hp) hbusy, hexits⟩
  · have hn : s.reader = none := hcoh.holdsReads_iff.1 hr
    rw [he]
    exact ⟨fun _ _ => unread?_eq_none hu, fun _ => ⟨hn, unread?_eq_none hu⟩, hexits⟩
  · rw [he]
    refine ⟨fun hn => (by cases hn), fun hp => absurd rfl hp, ?_⟩
    intro pump exit hp hs
    cases hp
    cases hs

theorem WriterTended.ensureWriter (hcoh : Coherent s) (hexits : s.WriteExits) :
    WriterTended s.ensureWriter := by
  rcases ensureWriter_cases hcoh with ⟨he, hidle⟩ | ⟨k, hk, -, -, -, he⟩
  · rw [he]
    exact ⟨hidle, hexits⟩
  · rw [he]
    refine ⟨fun hn => (by cases hn), ?_⟩
    intro pump exit hp hs
    cases hp
    cases hs

theorem ClosesTended.ensureReader (h : ClosesTended s)
    (hcarry : carry = none ∨ s.holdsReads = true ∧ s.parked = none) :
    ClosesTended (s.ensureReader carry) := by
  rcases ensureReader_cases hcarry with ⟨-, he⟩ | ⟨-, -, he⟩ | ⟨k, -, -, he⟩
  · rwa [he]
  · rw [he]
    exact h.of_slots rfl rfl
  · rw [he]
    exact h.update rfl rfl fun _ _ _ hk => hk

theorem ClosesTended.ensureWriter (h : ClosesTended s) (hcoh : Coherent s) :
    ClosesTended s.ensureWriter := by
  rcases ensureWriter_cases hcoh with ⟨he, -⟩ | ⟨k, -, -, -, -, he⟩
  · rwa [he]
  · rw [he]
    exact h.update rfl rfl fun _ _ _ _ => ⟨fun _ => .inr (.inl rfl), fun _ hw => by cases hw⟩

theorem retired_ensureReader (hcarry : carry = none ∨ s.holdsReads = true ∧ s.parked = none)
    (h : ∀ k ∈ s.slots, k.isRetired = false) :
    ∀ k ∈ (s.ensureReader carry).slots, k.isRetired = false := by
  rcases ensureReader_cases hcarry with ⟨-, he⟩ | ⟨-, -, he⟩ | ⟨l, -, -, he⟩
  · rwa [he]
  · rwa [he]
  · rw [he]
    intro k hk
    obtain ⟨k', hk', ⟨-, rfl⟩ | ⟨-, rfl⟩⟩ := mem_updateSlot hk
    · simp [Slot.isRetired]
    · exact h k hk'

theorem retired_ensureWriter (h : ∀ k ∈ s.slots, k.isRetired = false) :
    ∀ k ∈ s.ensureWriter.slots, k.isRetired = false := by
  unfold ensureWriter
  repeat' split
  any_goals exact h
  intro k hk
  obtain ⟨k', hk', ⟨-, rfl⟩ | ⟨-, rfl⟩⟩ := mem_updateSlot hk
  · simp [Slot.isRetired]
  · exact h k hk'

/-! ## Adding a device -/

theorem Kept.requestClose (h : Kept s) : Kept (s.requestClose id) := by
  obtain ⟨slots, closers, he⟩ := requestClose_eq s id
  have hafter : After s (s.requestClose id) := (Steady.requestClose h.coherent).after
  have hlive : (s.requestClose id).hasHandle = s.hasHandle := by
    rw [he]
    rfl
  refine ⟨h.coherent.requestClose, h.reads.after hafter (by rw [he]) (by rw [he]) hlive,
    h.writes.after hafter (by rw [he]) hlive, h.closes.requestClose h.coherent, ?_⟩
  intro k hk
  rcases mem_requestClose h.coherent hk with ⟨-, hk⟩ | ⟨-, -, l, hl, hr⟩
  · exact h.retired k hk
  · exact hr.trans (h.retired l hl)

theorem Kept.supersede (h : Kept s) : Kept s.supersede := by
  unfold State.supersede
  split
  · exact h
  · exact h.requestClose

theorem Steady.supersede (h : Coherent s) : Steady s s.supersede := by
  unfold State.supersede
  split
  · exact .refl
  · exact .requestClose h

/-- The device that was the newest is told to close, so that none is active. -/
theorem Kept.inactive_supersede (h : Kept s) : ∀ k ∈ s.supersede.slots, k.phase ≠ .active := by
  unfold State.supersede
  split
  · rename_i hl
    simp [List.getLast?_eq_none_iff.1 hl]
  · rename_i last hl
    intro k hk ha
    rcases mem_requestClose h.coherent hk with ⟨hne, hk⟩ | ⟨-, hr, -⟩
    · have hlast := h.coherent.last_of_active hk ha
      rw [hl] at hlast
      exact hne (congrArg Slot.id (Option.some.inj hlast)).symm
    · exact hr.1 ha

theorem Inactive.append (h : s.Inactive id) {new : Slot} (hne : new.id ≠ id) :
    Inactive { s with slots := s.slots ++ [new] } id := by
  intro k hk he
  rcases List.mem_append.1 hk with hk | hk
  · exact h k hk he
  · rw [List.mem_singleton.1 hk] at he
    exact absurd he hne

theorem Kept.adopt (h : Kept s) {new : Slot}
    (hcoh : Coherent { s with slots := s.slots ++ [new] }) (hnew : ∀ k ∈ s.slots, k.id ≠ new.id)
    (htended : new.Tended s.hasHandle) (hretired : new.isRetired = false) :
    Kept (s.adopt new) := by
  have hall : ∀ p : Slot → Prop, (∀ k ∈ s.slots, p k) → p new → ∀ k ∈ s.slots ++ [new], p k := by
    intro p hp hn k hk
    rcases List.mem_append.1 hk with hk | hk
    · exact hp k hk
    · rwa [List.mem_singleton.1 hk]
  have hreads : ReadExits { s with slots := s.slots ++ [new] } := by
    intro pump exit hp hs
    have hfits := h.reads.exits pump exit hp hs
    obtain ⟨k, hk, hid⟩ := h.coherent.reader pump.id (readId_of_reader hp)
    cases exit with
    | drained carry => exact Inactive.append hfits fun he => hnew k hk (hid.trans he.symm)
    | failed => trivial
    | disconnected => exact hfits
  have hwrites : WriteExits { s with slots := s.slots ++ [new] } := by
    intro pump exit hp hs
    have hfits := h.writes.exits pump exit hp hs
    obtain ⟨k, hk, hid⟩ := h.coherent.writer pump.id (writtenId_of_writer hp)
    cases exit with
    | drained => exact Inactive.append hfits fun he => hnew k hk (hid.trans he.symm)
    | disconnected => exact hfits
  have hcloses : ClosesTended { s with slots := s.slots ++ [new] } := hall _ h.closes htended
  obtain ⟨slots, writer, _, he⟩ := ensureWriter_eq { s with slots := s.slots ++ [new] }
  have hlive := hasHandle_ensureWriter (s := { s with slots := s.slots ++ [new] })
  have hwcoh := hcoh.ensureWriter
  have hwreads := hreads.after (Steady.ensureWriter hcoh).after (by rw [he]) hlive
  have hparked : { s with slots := s.slots ++ [new] }.ensureWriter.parked ≠ none →
      { s with slots := s.slots ++ [new] }.ensureWriter.reader = none := by
    rw [he]
    exact fun hp => (h.reads.parked hp).1
  have hafter : After { s with slots := s.slots ++ [new] }.ensureWriter _ :=
    (Steady.ensureReader (.inl rfl)).after
  obtain ⟨slots', reader, parked, _, he'⟩ :=
    ensureReader_eq (s := { s with slots := s.slots ++ [new] }.ensureWriter) (.inl rfl)
  exact
    { coherent := hwcoh.ensureReader (.inl rfl)
      reads := .ensureReader hwcoh (.inl rfl) hparked hwreads
      writes := (WriterTended.ensureWriter hcoh hwrites).after hafter (by rw [State.adopt, he'])
        (hasHandle_ensureReader (.inl rfl))
      closes := (hcloses.ensureWriter hcoh).ensureReader (.inl rfl)
      retired := retired_ensureReader (.inl rfl) (retired_ensureWriter (hall _ h.retired hretired)) }

/-- The next message may be taken. -/
theorem Kept.takeControl (h : Kept s) {m : Control} {rest : List Control}
    (hcontrol : s.control = m :: rest) : Kept { s with control := rest } := by
  have hsub : List.Sublist (State.numbers { s with control := rest }) s.numbers := by
    rw [numbers, numbers, hcontrol]
    exact (List.Sublist.refl _).append ((List.sublist_cons_self m rest).filterMap _)
  exact ⟨h.coherent.congr rfl hsub (Nat.le_refl _) rfl rfl rfl rfl rfl,
    h.reads.after .refl rfl rfl rfl, h.writes.after .refl rfl rfl, h.closes, h.retired⟩

/-- The device at the head of the messages is newer than all that are listed. -/
theorem Kept.superseded (h : Kept s) {device : DeviceRef} {rest : List Control}
    (hcontrol : s.control = .add id device :: rest) :
    (∀ k ∈ (State.supersede { s with control := rest }).slots, k.id ≠ id) ∧
    Coherent { State.supersede { s with control := rest } with
      slots := (State.supersede { s with control := rest }).slots ++ [({ id, device } : Slot)] } := by
  have hnumbers : s.numbers =
      s.slots.map (·.id.number) ++ id.number :: rest.filterMap (·.number?) := by
    simp [numbers, hcontrol, Control.number?]
  have hasc := h.coherent.ascending
  rw [hnumbers] at hasc
  obtain ⟨-, hrest, hbefore⟩ := List.pairwise_append.1 hasc
  have htaken := h.takeControl hcontrol
  obtain ⟨slots, closers, he⟩ := supersede_eq { s with control := rest }
  have hlt : ∀ k ∈ (State.supersede { s with control := rest }).slots, k.id.number < id.number :=
    fun k' hk' => by
      obtain ⟨k, hk, hl⟩ := (Steady.supersede htaken.coherent).after k' hk'
      rw [hl.id]
      exact hbefore _ (List.mem_map_of_mem hk) _ (List.mem_cons_self ..)
  refine ⟨?_, htaken.supersede.coherent.append htaken.inactive_supersede hlt
    (by rw [he]; exact (List.pairwise_cons.1 hrest).1)
    (by rw [he]; exact h.coherent.counted id.number (by rw [hnumbers]; simp))⟩
  intro k hk heq
  have := hlt k hk
  rw [heq] at this
  exact Nat.lt_irrefl _ this

theorem Tended.addSlot (h : Tended s) {device : DeviceRef} {rest : List Control}
    (hcontrol : s.control = .add id device :: rest) (hserving : s.coordinator = .serving) :
    Tended ({ s with control := rest }.addSlot id device) := by
  obtain ⟨hne, hcoh⟩ := h.toKept.superseded hcontrol
  have hkept := (h.toKept.takeControl hcontrol).supersede
  obtain ⟨slots, closers, he⟩ := supersede_eq { s with control := rest }
  rw [addSlot_eq]
  refine ⟨hkept.adopt hcoh hne ⟨fun hp => absurd rfl hp, fun _ hw => (by cases hw)⟩ rfl, ?_, ?_⟩
  · intro _ _
    rw [State.adopt, phases_ensureReader (.inl rfl), phases_ensureWriter]
    exact List.mem_map.2 ⟨_, List.mem_append_right _ (List.mem_singleton_self _), rfl⟩
  · intro cause hc
    obtain ⟨_, _, _, _, _, _, ha⟩ := adopt_eq (supersede { s with control := rest }) { id, device }
    rw [ha, he, hserving] at hc
    cases hc

/-! ## Reports -/

theorem After.active (ha : After s t) (h : .active ∈ t.phases) : .active ∈ s.phases := by
  obtain ⟨k', hk', hp⟩ := List.mem_map.1 h
  obtain ⟨k, hk, hl⟩ := ha k' hk'
  exact List.mem_map.2 ⟨k, hk, hl.active hp⟩

/-- A report is dealt with once the devices that are gone for good are taken off the list. -/
theorem Tended.prune (h : Tended s) (ha : After s t) (hne : s.slots ≠ [])
    (hcoord : t.coordinator = s.coordinator) (hactive : .active ∈ s.phases → .active ∈ t.phases)
    (hcoh : Coherent t) (hreads : ReaderTended t) (hwrites : WriterTended t)
    (hcloses : ClosesTended t) : Tended t.prune where
  coherent := hcoh.prune
  reads := hreads.after Steady.prune.after rfl rfl rfl
  writes := hwrites.after Steady.prune.after rfl rfl
  closes := hcloses.prune
  retired := fun _ hk => (mem_prune.1 hk).2
  serving := fun hs _ => active_mem_phases_prune (hactive (h.serving (hcoord ▸ hs) hne))
  tearing := fun cause hc hp => h.tearing cause (hcoord ▸ hc) (ha.active (Steady.prune.after.active hp))

/-- What a new start of the read pump makes of a state without one. -/
structure Restarted (s t : State) : Prop where
  eq : ∃ slots reader parked holdsReads, t = { s with slots, reader, parked, holdsReads }
  steady : Steady s t
  phases : t.phases = s.phases
  coherent : Coherent t
  reads : ReaderTended t
  closes : ClosesTended t

theorem restarted (hcoh : Coherent s) (hcloses : ClosesTended s) (hr : s.reader = none)
    (hp : s.parked = none) {exit : ReadExit} (hfits : s.ReadExitFits id exit) :
    Restarted s (s.restart exit) := by
  have hexits : s.ReadExits := fun pump _ hpump => by
    rw [hr] at hpump
    cases hpump
  have hstart : ∀ carry, Restarted s (s.ensureReader carry) := fun carry => by
    have hcarry : carry = none ∨ s.holdsReads = true ∧ s.parked = none :=
      .inr ⟨hcoh.holdsReads_iff.2 hr, hp⟩
    exact ⟨ensureReader_eq hcarry, .ensureReader hcarry, phases_ensureReader hcarry,
      hcoh.ensureReader hcarry, .ensureReader hcoh hcarry (fun _ => hr) hexits,
      hcloses.ensureReader hcarry⟩
  cases exit with
  | drained carry => exact hstart carry
  | failed => exact hstart none
  | disconnected =>
    refine ⟨⟨_, _, _, _, rfl⟩, .refl, rfl, hcoh, ⟨?_, ?_, hexits⟩, hcloses⟩
    · intro _ hlive
      cases hlive.symm.trans hfits
    · intro hn
      exact absurd hp hn

theorem slots_ne_nil {p : Slot → Prop} (h : ∃ k ∈ s.slots, p k) : s.slots ≠ [] := by
  obtain ⟨k, hk, -⟩ := h
  exact List.ne_nil_of_mem hk

theorem Tended.onReadExit (h : Tended s) {pump : ReadPump} {exit : ReadExit}
    (hr : s.reader = some pump) (hs : pump.stage = .stopped exit) :
    Tended (s.onReadExit pump.id exit) := by
  have hp : s.parked = none := by
    by_contra hp
    rw [(h.reads.parked hp).1] at hr
    cases hr
  have hfree : After s (s.freeReader pump.id) := .freeReader s pump.id
  have hfits : (s.freeReader pump.id).ReadExitFits pump.id exit := by
    have := h.reads.exits pump exit hr hs
    cases exit with
    | drained carry => exact Inactive.after this hfree
    | failed => trivial
    | disconnected => exact this
  have hcloses : ClosesTended (s.freeReader pump.id) := h.closes.update rfl rfl fun _ _ _ hk => hk
  have hdone : Restarted (s.freeReader pump.id) ((s.freeReader pump.id).restart exit) :=
    restarted (h.coherent.freeReader (readId_of_reader hr)) hcloses rfl hp hfits
  obtain ⟨slots, reader, parked, _, he⟩ := hdone.eq
  have hphases : ((s.freeReader pump.id).restart exit).phases = s.phases :=
    hdone.phases.trans (phases_updateSlot fun _ => rfl)
  have hafter := hfree.trans hdone.steady.after
  rw [onReadExit_eq]
  refine h.prune hafter ?_ (by rw [he]; rfl) (by rw [hphases]; exact id) hdone.coherent hdone.reads
    (h.writes.after hafter (by rw [he]; rfl) (by rw [he]; rfl)) hdone.closes
  exact slots_ne_nil (h.coherent.reader pump.id (readId_of_reader hr))

/-- The end of a write pump leaves its device to a closer, if it is no longer active. -/
theorem Tended.closeAfter (h : Tended s) {pump : WritePump} {exit : WriteExit}
    (hw : s.writer = some pump) (hs : pump.stage = .stopped exit) :
    Steady s ((s.freeWriter pump.id).closeAfter pump.id exit) ∧
    Coherent ((s.freeWriter pump.id).closeAfter pump.id exit) ∧
    ClosesTended ((s.freeWriter pump.id).closeAfter pump.id exit) ∧
    ((s.freeWriter pump.id).closeAfter pump.id exit).phases = s.phases := by
  have hfits := h.writes.exits pump exit hw hs
  have hcoh := h.coherent.freeWriter (writtenId_of_writer hw)
  have hfree : Steady s (s.freeWriter pump.id) := .freeWriter s pump.id
  have hphases : (s.freeWriter pump.id).phases = s.phases := phases_updateSlot fun _ => rfl
  cases exit with
  | drained =>
    have hinactive : (s.freeWriter pump.id).Inactive pump.id := Inactive.after hfits hfree.after
    refine ⟨hfree.trans (.startCloser hcoh), hcoh.startCloser hinactive, ?_,
      phases_startCloser.trans hphases⟩
    intro k' hk'
    obtain ⟨slots, closers, he⟩ := startCloser_eq (s.freeWriter pump.id) pump.id
    have hlive : ((s.freeWriter pump.id).startCloser pump.id).hasHandle = s.hasHandle := by
      rw [he]
      rfl
    rw [State.closeAfter, hlive]
    obtain ⟨hne, hk⟩ | ⟨hid, k, hk, rfl⟩ := mem_startCloser hcoh hk'
    · obtain ⟨l, hl, ⟨he, rfl⟩ | ⟨-, rfl⟩⟩ := mem_updateSlot hk
      · exact absurd he hne
      · exact h.closes _ hl
    · exact ⟨fun _ => .inl rfl, fun ha => absurd ha (hinactive k hk hid)⟩
  | disconnected =>
    have hdead : s.hasHandle = false := hfits
    exact ⟨hfree, hcoh, fun _ _ => ⟨fun _ => .inr (.inr hdead), fun _ _ => hdead⟩, hphases⟩

theorem Tended.onWriteExit (h : Tended s) {pump : WritePump} {exit : WriteExit}
    (hw : s.writer = some pump) (hs : pump.stage = .stopped exit) :
    Tended (s.onWriteExit pump.id exit) := by
  obtain ⟨hsteady, hcoh, hcloses, hphases⟩ := h.closeAfter hw hs
  obtain ⟨slots, closers, he⟩ := closeAfter_eq (s.freeWriter pump.id) pump.id exit
  obtain ⟨slots', writer', _, he'⟩ := ensureWriter_eq ((s.freeWriter pump.id).closeAfter pump.id exit)
  have hexits : ((s.freeWriter pump.id).closeAfter pump.id exit).WriteExits := fun pump _ hpump => by
    rw [he] at hpump
    cases hpump
  have hafter := (hsteady.trans (.ensureWriter hcoh)).after
  have hreads := h.reads.after hafter (by rw [he', he]; rfl) (by rw [he', he]; rfl)
    (by rw [he', he]; rfl)
  rw [onWriteExit_eq]
  refine h.prune hafter ?_ (by rw [he', he]; rfl) (by rw [phases_ensureWriter, hphases]; exact id)
    hcoh.ensureWriter hreads (.ensureWriter hcoh hexits) (hcloses.ensureWriter hcoh)
  exact slots_ne_nil (h.coherent.writer pump.id (writtenId_of_writer hw))

theorem Tended.onClosed (h : Tended s) (hc : id ∈ s.closerIds) (error : Option TunnelError) :
    Tended ({ s with closers := s.closers.filter (·.id != id) }.onClosed id error) := by
  have hafter : After s { s.markClosed id with closeError := error.or s.closeError } :=
    (Steady.markClosed s id).after
  have hcoh : Coherent { s.markClosed id with closeError := error.or s.closeError } :=
    (h.coherent.markClosed hc).congr rfl (.refl _) (Nat.le_refl _) rfl rfl rfl rfl rfl
  have hclosing : ∀ k ∈ s.slots, k.id = id → k.closing = true := fun k hk he =>
    ((h.coherent.agrees k hk).closers.1 (he ▸ hc)).1
  rw [onClosed_eq]
  refine h.prune hafter (slots_ne_nil (h.coherent.closers id hc)) rfl ?_ hcoh
    (h.reads.after hafter rfl rfl rfl) (h.writes.after hafter rfl rfl) (h.closes.update rfl rfl ?_)
  · intro ha
    obtain ⟨k, hk, hp⟩ := List.mem_map.1 ha
    have hne : k.id ≠ id := fun he => (h.coherent.agrees k hk).drains (hclosing k hk he) hp
    exact List.mem_map.2 ⟨k, mem_updateSlot_of_ne hk hne, hp⟩
  · intro k hk he _
    exact ⟨fun _ => .inl (hclosing k hk he), fun hp => by cases hp⟩

/-! ## Closing all -/

theorem closeAll_eq (s : State) (cause : Teardown) : ∃ slots closers, s.closeAll cause =
    { s with slots, closers, closeError := none, coordinator := .tearingDown cause } := by
  obtain ⟨slots, closers, he⟩ :=
    requestClose_all_eq s.slots { s with closeError := none, coordinator := .tearingDown cause }
  exact ⟨slots, closers, he⟩

/-- All devices that are listed are told to close. -/
theorem Coherent.requested_closeAll (h : Coherent s) (cause : Teardown) :
    Coherent (s.closeAll cause) ∧ Steady s (s.closeAll cause) ∧
    ∀ k' ∈ (s.closeAll cause).slots, Requested k' ∧ ∃ k ∈ s.slots, k'.isRetired = k.isRetired := by
  have hcoh : Coherent { s with closeError := none, coordinator := .tearingDown cause } :=
    h.congr rfl (.refl _) (Nat.le_refl _) rfl rfl rfl rfl rfl
  obtain ⟨hclosed, hsteady, hall⟩ := requestClose_all s.slots hcoh
  refine ⟨hclosed, hsteady, fun k' hk' => ⟨?_, (hall k' hk').1⟩⟩
  obtain ⟨k, hk, hl⟩ := hsteady k' hk'
  exact (hall k' hk').2.resolve_right fun hn => hn.2 k hk hl.id.symm

theorem Kept.closeAll (h : Kept s) (cause : Teardown) :
    Tended (s.closeAll cause) ∧ Steady s (s.closeAll cause) := by
  obtain ⟨hclosed, hsame, hrequested⟩ := h.coherent.requested_closeAll cause
  obtain ⟨slots, closers, he⟩ := closeAll_eq s cause
  refine ⟨{
    coherent := hclosed
    reads := h.reads.after hsame.after (by rw [he]) (by rw [he]) (by rw [he]; rfl)
    writes := h.writes.after hsame.after (by rw [he]) (by rw [he]; rfl)
    closes := fun k hk => tended_of_requested (hrequested k hk).1
    retired := fun k hk => ?_
    serving := fun hs => by rw [he] at hs; cases hs
    tearing := fun _ _ hp => ?_ }, hsame⟩
  · obtain ⟨l, hl, hr⟩ := (hrequested k hk).2
    exact hr.trans (h.retired l hl)
  · obtain ⟨k, hk, ha⟩ := List.mem_map.1 hp
    exact (hrequested k hk).1.1 ha

/-- Only devices, tasks and the one who serves matter. -/
theorem Tended.congr (h : Tended s) (hcoh : Coherent t) (hslots : t.slots = s.slots)
    (hread : t.readId = s.readId) (hwritten : t.writtenId = s.writtenId)
    (hparked : t.parked = s.parked) (hcoord : t.coordinator = s.coordinator)
    (hlive : t.hasHandle = true → s.hasHandle = true) (hreads : t.ReadExits)
    (hwrites : t.WriteExits) : Tended t := by
  have hreader : t.reader = none ↔ s.reader = none := by
    rw [← readId_eq_none, hread, readId_eq_none]
  have hwriter : t.writer = none ↔ s.writer = none := by
    rw [← writtenId_eq_none, hwritten, writtenId_eq_none]
  have hdead : s.hasHandle = false → t.hasHandle = false := fun hn => by
    by_contra ht
    rw [hlive (by simpa using ht)] at hn
    cases hn
  have hphases : t.phases = s.phases := by
    rw [phases, phases, hslots]
  refine
    { coherent := hcoh
      reads := ⟨fun hn hh => hslots ▸ h.reads.idle (hreader.1 hn) (hlive hh), fun hp => ?_, hreads⟩
      writes := ⟨fun hn => hslots ▸ h.writes.idle (hwriter.1 hn), hwrites⟩
      closes := fun k hk => ?_
      retired := hslots ▸ h.retired
      serving := fun hs hn => hphases ▸ h.serving (hcoord ▸ hs) (hslots ▸ hn)
      tearing := fun cause hc => hphases ▸ h.tearing cause (hcoord ▸ hc) }
  · obtain ⟨hn, hu⟩ := h.reads.parked (hparked ▸ hp)
    exact ⟨hreader.2 hn, hslots ▸ hu⟩
  · obtain ⟨hc, hw⟩ := h.closes k (hslots ▸ hk)
    exact ⟨fun hp => (hc hp).imp_right (.imp_right hdead), fun ha hd => hdead (hw ha hd)⟩

/-! ## The end of a teardown -/

/-- A teardown that is over leaves either nobody to serve or no device. -/
theorem settled_settleTeardown (h : Tended s) :
    s.settleTeardown.isOver = true ∨ Settled s.settleTeardown := by
  rcases settleTeardown_cases s with ⟨he, hl⟩ | ⟨cause, -, hnil, he⟩
  · rw [he]
    exact .inr ⟨h, hl⟩
  · rw [he]
    cases cause with
    | shutdown c =>
      obtain ⟨calls, he⟩ := endShutdown_eq s c
      have hlive := hasHandle_endShutdown s c
      rw [he] at hlive ⊢
      have hempty : ∀ k, k ∉ s.slots := by simp [hnil]
      have hafter : After s _ := .of_slots rfl
      refine .inr ⟨{
        coherent := h.coherent.congr rfl (.refl _) (Nat.le_refl _) rfl rfl rfl rfl rfl
        reads := ⟨fun _ _ k hk => absurd hk (hempty k), fun hp => absurd rfl hp,
          h.reads.exits.after hafter rfl hlive⟩
        writes := h.writes.after hafter rfl hlive
        closes := fun k hk => absurd hk (hempty k)
        retired := h.retired
        serving := fun _ hn => absurd hnil hn
        tearing := fun _ hc => by cases hc }, fun _ hc => by cases hc⟩
    | close c => exact .inl (by simp [isOver, endTeardown, coordinator_finish])
    | released => exact .inl (by simp [isOver, endTeardown, coordinator_finish])

end

end State

end SeamlessTunnel.Multiplexer
