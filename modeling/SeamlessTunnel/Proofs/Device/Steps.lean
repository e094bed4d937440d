import Mathlib.Data.List.Induction
import Mathlib.Data.List.Nodup
import SeamlessTunnel.Device.Sharing
/-
  SeamlessTunnel.Proofs.Device.Steps — what each move at a device in memory does.

  `Progress` lists the steps of a read and `Effect` all moves, with what they need and where
  they lead (`effect_of_step`). A read keeps its ticket and its buffer from its start until
  it comes back or is given up, and then nothing comes from it any more (`Gone.run`), so
  every ticket is returned at most once and with the buffer of the read that was given it
  (`booked_of_run`).
-/

namespace SeamlessTunnel.Device

section

variable {settings : DeviceSettings} {s u : Shared} {m : Move} {ms ms' : List Move}
  {device device' : Memory} {r r' : Reader} {ticket : Nat} {out : Option (Outcome Packet)}

/-! ## Moves -/

/-- The steps of a read: what it found, and what it comes back with. -/
inductive Progress (d : Memory) (r : Reader) : Memory → Option (Outcome Packet) → Prop
  | register (h : r.stage = .registering) : Progress d r (d.register r.ticket) none
  | refused (h : r.stage = .checkingClosed) (hclosed : d.isClosed = true) :
      Progress d r (d.cancelRead r.ticket) (some (.failure (.deviceClosed d.name)))
  | seesOpen (h : r.stage = .checkingClosed) (hopen : d.isClosed = false) :
      Progress d r (d.setStage r.ticket .checkingFaults) none
  | failed (h : r.stage = .checkingFaults) {e : TunnelError} {rest : List TunnelError}
      (hfaults : d.readFaults = e :: rest) :
      Progress d r ({ d with readFaults := rest }.cancelRead r.ticket) (some (.failure e))
  | seesNoFault (h : r.stage = .checkingFaults) (hfaults : d.readFaults = []) :
      Progress d r (d.setStage r.ticket .checkingPackets) none
  | took (h : r.stage = .checkingPackets) {p : Packet} {rest : List Packet}
      (hpackets : d.packets = p :: rest) :
      Progress d r ({ d with packets := rest }.cancelRead r.ticket) (some (.value (p.take r.size)))
  | seesNoPacket (h : r.stage = .checkingPackets) (hpackets : d.packets = []) :
      Progress d r (d.setStage r.ticket .waiting) none
  | woke (h : r.stage = .waiting) (hwoken : r.woken = true) :
      Progress d r (d.setStage r.ticket .registering) none

theorem progress_of_stepReader (hr : device.readers.find? (·.ticket = ticket) = some r)
    (h : device.stepReader ticket = some (device', out)) : Progress device r device' out := by
  obtain rfl : r.ticket = ticket := by simpa using List.find?_some hr
  simp only [Memory.stepReader, hr, bind, Option.bind, pure] at h
  cases hstage : r.stage with
  | registering =>
    simp only [hstage] at h
    cases h
    exact .register hstage
  | checkingClosed =>
    simp only [hstage] at h
    split at h
    · rename_i hclosed
      cases h
      exact .refused hstage hclosed
    · rename_i hopen
      cases h
      exact .seesOpen hstage (by simpa using hopen)
  | checkingFaults =>
    simp only [hstage] at h
    split at h
    · rename_i hfaults
      cases h
      exact .failed hstage hfaults
    · rename_i hfaults
      cases h
      exact .seesNoFault hstage hfaults
  | checkingPackets =>
    simp only [hstage] at h
    split at h
    · rename_i hpackets
      cases h
      exact .took hstage hpackets
    · rename_i hpackets
      cases h
      exact .seesNoPacket hstage hpackets
  | waiting =>
    simp only [hstage] at h
    split at h
    · rename_i hwoken
      cases h
      exact .woke hstage hwoken
    · cases h

/-- What a read comes back with, if it does. -/
def returned (r : Reader) (out : Option (Outcome Packet)) : List Return :=
  (out.map (⟨r.ticket, r.size, r.stage, ·⟩)).toList

/-- The moves, with what they need and where they lead. -/
inductive Effect (s : Shared) : Move → Shared → Prop
  | start (size : Nat) : Effect s (.start size)
      { s with device := s.device.startRead s.started size, started := s.started + 1 }
  | advance {r : Reader} {device : Memory} {out : Option (Outcome Packet)}
      (hr : r ∈ s.device.readers) (hp : Progress s.device r device out) :
      Effect s (.advance r.ticket) { s with device, returns := s.returns ++ returned r out }
  | cancel {r : Reader} (hr : r ∈ s.device.readers) :
      Effect s (.cancel r.ticket) { s with device := s.device.cancelRead r.ticket }
  | queuePacket {p : Packet} {device : Memory} (hqueue : s.device.queuePacket p = some device) :
      Effect s (.queuePacket p) { s with device }
  | queueFault (e : TunnelError) :
      Effect s (.queueFault e) { s with device := s.device.queueFault e }
  | markClosed : Effect s .markClosed { s with device := s.device.markClosed }
  | announce (h : 0 < s.device.unannounced) :
      Effect s .announce { s with device := s.device.announce }

theorem effect_of_step (h : s.step m = some u) : Effect s m u := by
  cases m with
  | start size =>
    cases h
    exact .start size
  | advance ticket =>
    obtain ⟨r, hr, h⟩ := Option.bind_eq_some_iff.1 h
    obtain ⟨⟨device, out⟩, hstep, h⟩ := Option.bind_eq_some_iff.1 h
    obtain rfl : r.ticket = ticket := by simpa using List.find?_some hr
    cases h
    exact .advance (List.mem_of_find?_eq_some hr) (progress_of_stepReader hr hstep)
  | cancel ticket =>
    simp only [Shared.step] at h
    split at h
    · rename_i hany
      obtain ⟨r, hr, hticket⟩ := List.any_eq_true.1 hany
      cases h
      obtain rfl := of_decide_eq_true hticket
      exact .cancel hr
    · cases h
  | queuePacket p =>
    obtain ⟨device, hqueue, rfl⟩ := Option.map_eq_some_iff.1 h
    exact .queuePacket hqueue
  | queueFault e =>
    cases h
    exact .queueFault e
  | markClosed =>
    cases h
    exact .markClosed
  | announce =>
    simp only [Shared.step] at h
    split at h
    · rename_i hcall
      cases h
      exact .announce hcall
    · cases h

theorem queuePacket_eq {p : Packet} (h : device.queuePacket p = some device') :
    device' = { device with
      packets := device.packets ++ [p], unannounced := device.unannounced + 1 } := by
  unfold Memory.queuePacket at h
  split at h
  · exact (Option.some.inj h).symm
  · cases h

theorem run_of_foldlM (h : ms.foldlM Shared.step s = some u) : Run s ms u := by
  induction ms using List.reverseRecOn generalizing u with
  | nil => cases h; exact .nil
  | append_singleton ms m ih =>
    rw [List.foldlM_append] at h
    obtain ⟨t, ht, hm⟩ := Option.bind_eq_some_iff.1 h
    simp only [List.foldlM_cons, List.foldlM_nil, bind_pure] at hm
    exact .snoc (ih ht) hm

/-! ## The device -/

theorem Progress.frame (h : Progress device r device' out) :
    device'.name = device.name ∧ device'.isClosed = device.isClosed := by
  cases h <;> exact ⟨rfl, rfl⟩

/-- A device keeps its name, and stays closed once it is. -/
theorem frame_of_step (h : s.step m = some u) :
    u.device.name = s.device.name ∧
      (s.device.isClosed = true ∨ m = .markClosed → u.device.isClosed = true) := by
  cases effect_of_step h with
  | advance _ hp =>
    obtain ⟨hname, hclosed⟩ := hp.frame
    exact ⟨hname, fun h => h.elim hclosed.trans nofun⟩
  | queuePacket hqueue =>
    rw [queuePacket_eq hqueue]
    exact ⟨rfl, fun h => h.elim id nofun⟩
  | markClosed => exact ⟨rfl, fun _ => rfl⟩
  | start | cancel | queueFault | announce => exact ⟨rfl, fun h => h.elim id nofun⟩

theorem name_of_run (h : Run s ms u) : u.device.name = s.device.name := by
  induction h with
  | nil => rfl
  | snoc _ hm ih => exact (frame_of_step hm).1.trans ih

theorem closed_of_run (h : Run s ms u) (hclose : .markClosed ∈ ms) : u.device.isClosed = true := by
  induction h with
  | nil => cases hclose
  | snoc _ hm ih =>
    refine (frame_of_step hm).2 ?_
    rcases List.mem_append.1 hclose with hclose | hclose
    · exact .inl (ih hclose)
    · exact .inr (List.mem_singleton.1 hclose).symm

/-! ## Tickets and buffers -/

def Reader.buffer (r : Reader) : Nat × Nat :=
  (r.ticket, r.size)

/-- The reads under way: their tickets and the sizes of their buffers. -/
def Memory.buffers (d : Memory) : List (Nat × Nat) :=
  d.readers.map Reader.buffer

def Memory.tickets (d : Memory) : List Nat :=
  d.buffers.map (·.1)

theorem map_buffer_map {f : Reader → Reader} (hf : ∀ r, (f r).buffer = r.buffer)
    (readers : List Reader) : (readers.map f).map Reader.buffer = readers.map Reader.buffer := by
  rw [List.map_map]
  exact List.map_congr_left fun r _ => hf r

theorem buffers_startRead (d : Memory) (ticket size : Nat) :
    (d.startRead ticket size).buffers = d.buffers ++ [(ticket, size)] := by
  simp [Memory.buffers, Memory.startRead, Reader.buffer]

theorem buffers_cancelRead (d : Memory) (ticket : Nat) :
    (d.cancelRead ticket).buffers = d.buffers.filter (·.1 != ticket) := by
  rw [Memory.buffers, Memory.cancelRead, Memory.buffers, List.filter_map]
  rfl

theorem buffers_setStage (d : Memory) (ticket : Nat) (stage : Stage) :
    (d.setStage ticket stage).buffers = d.buffers :=
  map_buffer_map (fun r => by split <;> rfl) d.readers

theorem buffers_register (d : Memory) (ticket : Nat) :
    (d.register ticket).buffers = d.buffers :=
  map_buffer_map (fun r => by split <;> rfl) d.readers

theorem buffers_announce (d : Memory) : d.announce.buffers = d.buffers :=
  map_buffer_map (fun r => by split <;> rfl) d.readers

theorem not_mem_tickets_of_buffers (h : device'.buffers = device.buffers.filter (·.1 != ticket)) :
    ticket ∉ device'.tickets := by
  rw [Memory.tickets, h]
  simp

/-- Who comes back leaves, and nobody else does. -/
theorem Progress.buffers (h : Progress device r device' out) :
    device'.buffers =
      if out.isSome then device.buffers.filter (·.1 != r.ticket) else device.buffers := by
  cases h with
  | register => exact buffers_register _ _
  | refused | failed | took => exact buffers_cancelRead _ _
  | seesOpen | seesNoFault | seesNoPacket | woke => exact buffers_setStage _ _ _

theorem mem_tickets (hr : r ∈ device.readers) : r.ticket ∈ device.tickets :=
  List.mem_map_of_mem (List.mem_map_of_mem hr)

theorem reader_unique (hs : device.tickets.Nodup) (hr : r ∈ device.readers)
    (hr' : r' ∈ device.readers) (h : r'.ticket = r.ticket) : r' = r := by
  have htickets : device.tickets = device.readers.map (·.ticket) := by
    simp [Memory.tickets, Memory.buffers, Reader.buffer]
  rw [htickets] at hs
  exact List.inj_on_of_nodup_map hs hr' hr h

/-- What a move does to the books: who reads, and who came back. -/
structure Posting (s : Shared) (m : Move) (u : Shared) (new : List Return) : Prop where
  returns : u.returns = s.returns ++ new
  started : u.started = s.started + (sizesIn [m]).length
  buffers : List.Sublist u.device.buffers (s.device.buffers ++ (sizesIn [m]).map (s.started, ·))
  underWay : ∀ x ∈ new, (x.ticket, x.size) ∈ s.device.buffers
  left : ∀ x ∈ new, x.ticket ∉ u.device.tickets
  single : new.length ≤ 1

/-- A move that starts no read and brings none back. -/
theorem Posting.silent (hreturns : u.returns = s.returns) (hstarted : u.started = s.started)
    (hbuffers : List.Sublist u.device.buffers s.device.buffers) (hm : sizesIn [m] = []) :
    Posting s m u [] where
  returns := by rw [hreturns, List.append_nil]
  started := by rw [hstarted, hm]; rfl
  buffers := by rwa [hm, List.map_nil, List.append_nil]
  underWay := nofun
  left := nofun
  single := Nat.zero_le 1

theorem posting_of_step (h : s.step m = some u) : ∃ new, Posting s m u new := by
  cases effect_of_step h with
  | start size =>
    exact ⟨[], by simp, rfl, by rw [buffers_startRead]; exact .refl _, nofun, nofun, by simp⟩
  | @advance r device out hr hp =>
    cases out with
    | none =>
      have hbuffers : device.buffers = s.device.buffers := hp.buffers
      exact ⟨[], .silent (List.append_nil _) rfl (hbuffers ▸ .refl _) rfl⟩
    | some out =>
      have hbuffers : device.buffers = s.device.buffers.filter (·.1 != r.ticket) := hp.buffers
      refine ⟨[⟨r.ticket, r.size, r.stage, out⟩], rfl, rfl, ?_, ?_, ?_, Nat.le_refl 1⟩
      · rw [hbuffers]
        exact List.filter_sublist.trans (List.sublist_append_left _ _)
      · exact List.forall_mem_singleton.2 (List.mem_map_of_mem hr)
      · exact List.forall_mem_singleton.2 (not_mem_tickets_of_buffers hbuffers)
  | cancel hr =>
    exact ⟨[], .silent rfl rfl (by rw [buffers_cancelRead]; exact List.filter_sublist) rfl⟩
  | queuePacket hqueue =>
    rw [queuePacket_eq hqueue]
    exact ⟨[], .silent rfl rfl (.refl _) rfl⟩
  | queueFault | markClosed => exact ⟨[], .silent rfl rfl (.refl _) rfl⟩
  | announce => exact ⟨[], .silent rfl rfl (by rw [buffers_announce]) rfl⟩

/-! ## Each ticket once -/

/-- A read that is over: it came back or was given up. -/
structure Gone (ticket : Nat) (s : Shared) : Prop where
  below : ticket < s.started
  left : ticket ∉ s.device.tickets

theorem filter_ticket_eq_nil {xs : List Return} (h : ticket ∉ xs.map (·.ticket)) :
    xs.filter (·.ticket = ticket) = [] := by
  refine List.filter_eq_nil_iff.2 fun x hx heq => h ?_
  rw [← of_decide_eq_true heq]
  exact List.mem_map_of_mem hx

theorem Posting.mem_tickets {new : List Return} (h : Posting s m u new)
    (ht : ticket ∈ u.device.tickets) : ticket ∈ s.device.tickets ∨ ticket = s.started := by
  obtain ⟨b, hb, rfl⟩ := List.mem_map.1 ht
  rcases List.mem_append.1 (h.buffers.subset hb) with hb | hb
  · exact .inl (List.mem_map_of_mem hb)
  · obtain ⟨size, -, rfl⟩ := List.mem_map.1 hb
    exact .inr rfl

theorem Posting.tickets_subset {new : List Return} (h : Posting s m u new)
    (ht : ticket ∈ new.map (·.ticket)) : ticket ∈ s.device.tickets := by
  obtain ⟨x, hx, rfl⟩ := List.mem_map.1 ht
  exact List.mem_map_of_mem (h.underWay x hx)

theorem Gone.step (hg : Gone ticket s) (h : s.step m = some u) :
    Gone ticket u ∧ u.returnsOf ticket = s.returnsOf ticket := by
  obtain ⟨new, hp⟩ := posting_of_step h
  refine ⟨⟨?_, fun ht => ?_⟩, ?_⟩
  · rw [hp.started]
    exact Nat.lt_add_right _ hg.below
  · rcases hp.mem_tickets ht with ht | rfl
    · exact hg.left ht
    · exact absurd hg.below (Nat.lt_irrefl _)
  · have hnone := filter_ticket_eq_nil fun ht => hg.left (hp.tickets_subset ht)
    rw [Shared.returnsOf, hp.returns, List.filter_append, hnone, List.append_nil, Shared.returnsOf]

/-- Nothing comes from a read that is over. -/
theorem Gone.run (hg : Gone ticket s) (h : Run s ms u) :
    Gone ticket u ∧ u.returnsOf ticket = s.returnsOf ticket := by
  induction h with
  | nil => exact ⟨hg, rfl⟩
  | snoc _ hm ih =>
    obtain ⟨hgone, hsame⟩ := ih.1.step hm
    exact ⟨hgone, hsame.trans ih.2⟩

theorem sizesIn_snoc (ms : List Move) (m : Move) :
    sizesIn (ms ++ [m]) = sizesIn ms ++ sizesIn [m] :=
  List.filterMap_append

theorem sizesIn_single (m : Move) : sizesIn [m] = [] ∨ ∃ size, sizesIn [m] = [size] := by
  cases m with
  | start size => exact .inr ⟨size, rfl⟩
  | _ => exact .inl rfl

theorem size_snoc {i size : Nat} (h : (sizesIn ms)[i]? = some size) :
    (sizesIn (ms ++ [m]))[i]? = some size := by
  obtain ⟨hi, -⟩ := List.getElem?_eq_some_iff.1 h
  rwa [sizesIn_snoc, List.getElem?_append_left hi]

/-- Every read has a ticket of its own, keeps its buffer and comes back at most once. -/
structure Booked (ms : List Move) (s : Shared) : Prop where
  started : s.started = (sizesIn ms).length
  underWay : ∀ b ∈ s.device.buffers, (sizesIn ms)[b.1]? = some b.2
  sizes : ∀ x ∈ s.returns, (sizesIn ms)[x.ticket]? = some x.size
  tickets : s.device.tickets.Nodup
  once : (s.returns.map (·.ticket)).Nodup
  left : ∀ x ∈ s.returns, x.ticket ∉ s.device.tickets

theorem Booked.lt_started (h : Booked ms s) {i size : Nat} (hi : (sizesIn ms)[i]? = some size) :
    i < s.started := by
  rw [h.started]
  exact (List.getElem?_eq_some_iff.1 hi).1

theorem Booked.gone (h : Booked ms s) {x : Return} (hx : x ∈ s.returns) : Gone x.ticket s :=
  ⟨h.lt_started (h.sizes x hx), h.left x hx⟩

theorem Booked.nodup_buffers (h : Booked ms s) (m : Move) :
    ((s.device.buffers ++ (sizesIn [m]).map (s.started, ·)).map (·.1)).Nodup := by
  have hfresh : s.started ∉ s.device.tickets := by
    intro hmem
    obtain ⟨b, hb, heq⟩ := List.mem_map.1 hmem
    exact absurd (h.lt_started (h.underWay b hb)) (by omega)
  rcases sizesIn_single m with hm | ⟨size, hm⟩
  · rw [hm, List.map_nil, List.append_nil]
    exact h.tickets
  · rw [hm, List.map_append, List.map_singleton, List.map_singleton]
    refine List.nodup_append.2 ⟨h.tickets, List.pairwise_singleton _ _, fun t ht t' ht' heq => ?_⟩
    rw [heq, List.mem_singleton.1 ht'] at ht
    exact hfresh ht

theorem Booked.snoc (hb : Booked ms s) (h : s.step m = some u) : Booked (ms ++ [m]) u := by
  obtain ⟨new, hp⟩ := posting_of_step h
  constructor
  · rw [hp.started, hb.started, sizesIn_snoc, List.length_append]
  · intro b hmem
    rcases List.mem_append.1 (hp.buffers.subset hmem) with hmem | hmem
    · exact size_snoc (hb.underWay b hmem)
    · obtain ⟨size, hsize, rfl⟩ := List.mem_map.1 hmem
      rcases sizesIn_single m with hm | ⟨n, hm⟩
      · rw [hm] at hsize
        cases hsize
      · rw [sizesIn_snoc, hm, hb.started, List.getElem?_concat_length]
        rw [hm] at hsize
        rw [List.mem_singleton.1 hsize]
  · rw [hp.returns]
    exact List.forall_mem_append.2 ⟨fun x hx => size_snoc (hb.sizes x hx),
      fun x hx => size_snoc (hb.underWay _ (hp.underWay x hx))⟩
  · exact (hp.buffers.map _).nodup (hb.nodup_buffers m)
  · rw [hp.returns, List.map_append]
    refine List.nodup_append.2 ⟨hb.once, ?_, ?_⟩
    · match new, hp.single with
      | [], _ => exact .nil
      | [x], _ => exact List.pairwise_singleton _ _
    · intro t ht t' ht' heq
      obtain ⟨x, hx, rfl⟩ := List.mem_map.1 ht
      exact hb.left x hx (heq ▸ hp.tickets_subset ht')
  · rw [hp.returns]
    exact List.forall_mem_append.2 ⟨fun x hx => ((hb.gone hx).step h).1.left, hp.left⟩

theorem Booked.run (hb : Booked ms s) (h : Run s ms' u) : Booked (ms ++ ms') u := by
  induction h with
  | nil => rwa [List.append_nil]
  | snoc _ hm ih =>
    rw [← List.append_assoc]
    exact ih.snoc hm

theorem booked_of_run (h : Run (.fresh settings) ms s) : Booked ms s := by
  have hfresh : Booked [] (.fresh settings) := ⟨rfl, nofun, nofun, .nil, .nil, nofun⟩
  exact hfresh.run h

/-- A read comes back once, and then nothing comes from it any more. -/
theorem Booked.returnsOf_of_run (hb : Booked ms s) {x : Return} (hx : x ∈ s.returns)
    (h : Run s ms' u) : u.returnsOf x.ticket = [x] := by
  rw [((hb.gone hx).run h).2, Shared.returnsOf]
  obtain ⟨before, after, hsplit⟩ := List.append_of_mem hx
  have honce := hb.once
  rw [hsplit, List.map_append, List.map_cons, List.nodup_middle, List.nodup_cons, List.mem_append,
    not_or] at honce
  obtain ⟨⟨hbefore, hafter⟩, -⟩ := honce
  rw [hsplit, List.filter_append, List.filter_cons_of_pos (by simp), filter_ticket_eq_nil hbefore,
    filter_ticket_eq_nil hafter, List.nil_append]

/-- Nothing comes from a read that is given up. -/
theorem Booked.gone_of_cancel (hb : Booked ms s) (h : s.step (.cancel ticket) = some u) :
    Gone ticket u ∧ u.returnsOf ticket = [] := by
  generalize hm : Move.cancel ticket = m at h
  cases effect_of_step h with
  | @cancel r hr =>
    obtain rfl := Move.cancel.inj hm
    refine ⟨⟨hb.lt_started (hb.underWay _ (List.mem_map_of_mem hr)), ?_⟩, ?_⟩
    · exact not_mem_tickets_of_buffers (buffers_cancelRead _ _)
    · refine filter_ticket_eq_nil fun ht => ?_
      obtain ⟨x, hx, hticket⟩ := List.mem_map.1 ht
      exact hb.left x hx (hticket ▸ mem_tickets hr)
  | _ => cases hm

theorem returnsOf_of_cancel (h : Run (.fresh settings) ms s) (hcancel : .cancel ticket ∈ ms) :
    Gone ticket s ∧ s.returnsOf ticket = [] := by
  induction h with
  | nil => cases hcancel
  | snoc hrun hm ih =>
    rcases List.mem_append.1 hcancel with hcancel | hcancel
    · obtain ⟨hgone, hsame⟩ := (ih hcancel).1.step hm
      exact ⟨hgone, hsame.trans (ih hcancel).2⟩
    · obtain rfl := List.mem_singleton.1 hcancel
      exact (booked_of_run hrun).gone_of_cancel hm

/-- The read that makes a step is the one that has the ticket. -/
theorem progress_of_step (hs : s.device.tickets.Nodup) (hr : r ∈ s.device.readers)
    (h : s.step (.advance r.ticket) = some u) :
    ∃ device out, Progress s.device r device out ∧
      u = { s with device, returns := s.returns ++ returned r out } := by
  generalize hm : Move.advance r.ticket = m at h
  cases effect_of_step h with
  | advance hr' hp =>
    obtain rfl := reader_unique hs hr hr' (Move.advance.inj hm).symm
    exact ⟨_, _, hp, rfl⟩
  | _ => cases hm

/-! ## The reads after a step -/

section

variable {P : Reader → Prop}

/-- What holds of all reads goes on to, if it does of the one that moves. -/
theorem forall_setStage (hs : device.tickets.Nodup) (hr : r ∈ device.readers) {stage : Stage}
    (h : ∀ r' ∈ device.readers, P r') (hmoved : P { r with stage }) :
    ∀ r' ∈ (device.setStage r.ticket stage).readers, P r' := by
  refine List.forall_mem_map.2 fun r' hr' => ?_
  split
  · rename_i hticket
    rwa [reader_unique hs hr hr' hticket]
  · exact h r' hr'

theorem forall_register (hs : device.tickets.Nodup) (hr : r ∈ device.readers)
    (h : ∀ r' ∈ device.readers, P r')
    (hregistered : P { r with stage := .checkingClosed, woken := false }) :
    ∀ r' ∈ (device.register r.ticket).readers, P r' := by
  refine List.forall_mem_map.2 fun r' hr' => ?_
  split
  · rename_i hticket
    rwa [reader_unique hs hr hr' hticket]
  · exact h r' hr'

theorem forall_cancelRead (h : ∀ r' ∈ device.readers, P r') :
    ∀ r' ∈ (device.cancelRead ticket).readers, P r' :=
  fun r' hr' => h r' (List.mem_of_mem_filter hr')

end

end

end SeamlessTunnel.Device
