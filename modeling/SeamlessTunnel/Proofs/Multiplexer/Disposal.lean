import SeamlessTunnel.Proofs.Multiplexer.Finality
/-
  SeamlessTunnel.Proofs.Multiplexer.Disposal — what is taken is closed.

  A device that was taken is closed either from the list or, when the coordinator ended
  before its turn came, as one that came too late. Whichever it is, it happens at most once
  (`disposing_of_run`), to devices that were taken (`owned_of_run`), and has happened to all
  of them once the coordinator has ended (`disposed_of_ended`).
-/

namespace SeamlessTunnel.Multiplexer

/-- The device that a call closes, be it from the list or as one that came too late. -/
def DeviceCall.disposes? : DeviceCall → Option DeviceId
  | .close id | .lateClose id => some id
  | .read _ | .write _ | .nextEvent _ | .ask _ => none

namespace State

/-- The devices whose close goes on. -/
def disposals (s : State) : List (DeviceId × DeviceRef) :=
  s.outstanding.filterMap fun o => o.call.disposes?.map (·, o.device)

/-- The devices whose close a move starts, each as often as it does. -/
def startedDisposals (s : State) (_ : Move) (t : State) : List (DeviceId × DeviceRef) :=
  t.disposals.diff s.disposals

/-- The device that a move hands in, if it is taken. -/
def takenDevices (s : State) (m : Move) (_ : State) : List (DeviceId × DeviceRef) :=
  match m with
  | .add device =>
    match (s.add device).1 with
    | .ok id => [(id, device)]
    | .error _ => []
  | _ => []

/-- All records of devices are of such as were taken. -/
structure Owned (taken : List (DeviceId × DeviceRef)) (s : State) : Prop where
  once : (taken.map (·.1)).Nodup
  numbers : ∀ k ∈ taken, 0 < k.1.number ∧ k.1.number ≤ s.added
  coming : ∀ id device, .add id device ∈ s.control → (id, device) ∈ taken
  listed : ∀ k ∈ s.slots, (k.id, k.device) ∈ taken
  closers : ∀ k ∈ s.closers, (k.id, k.device) ∈ taken
  late : ∀ k ∈ s.lateCloses, k ∈ taken

/-- What is known of the devices whose close was started. -/
structure Disposing (taken : List (DeviceId × DeviceRef)) (closes : List DeviceId)
    (ids : List (DeviceId × DeviceRef)) (s : State) : Prop where
  once : (ids.map (·.1)).Nodup
  owned : ids ⊆ taken
  calls : s.disposals ⊆ ids
  started : closes ⊆ ids.map (·.1)
  /-- Until the coordinator is over devices are closed from the list. -/
  listed : s.isOver = false → ids.map (·.1) ⊆ closes

section

variable {s t u : State} {m : Move} {id : DeviceId} {device : DeviceRef} {ms : List Move}
variable {taken ids : List (DeviceId × DeviceRef)} {settings : MultiplexerSettings}

/-! ## Closes that go on -/

theorem disposals_eq (s : State) : s.disposals =
    (s.closers.filter (·.result.isNone)).map (fun k => (k.id, k.device)) ++ s.lateCloses := by
  have hother : ∀ l : List Outstanding, (∀ o ∈ l, o.call.disposes? = none) →
      (l.filterMap fun o => o.call.disposes?.map (·, o.device)) = [] := fun l h =>
    List.filterMap_eq_nil_iff.2 fun o ho => by rw [h o ho]; rfl
  unfold disposals outstanding
  simp only [List.filterMap_append, List.filterMap_map]
  rw [hother, hother, hother]
  · simp [Function.comp_def, DeviceCall.disposes?]
  · split <;> simp [DeviceCall.disposes?]
  · split <;> simp [DeviceCall.disposes?]
  · split <;> simp [DeviceCall.disposes?]

theorem mem_disposals {k : DeviceId × DeviceRef} : k ∈ s.disposals ↔
    (∃ c ∈ s.closers, (c.id, c.device) = k ∧ c.result = none) ∨ k ∈ s.lateCloses := by
  rw [disposals_eq, List.mem_append, List.mem_map]
  refine or_congr_left (exists_congr fun c => ?_)
  rw [List.mem_filter, Option.isNone_iff_eq_none]
  tauto

/-- A close of the list is one of the closes that go on. -/
theorem closeCalls_eq_disposals (hl : s.lateCloses = []) : s.disposals.map (·.1) = s.closeCalls := by
  rw [disposals_eq, closeCalls_eq, hl, List.append_nil, List.map_map]
  rfl

theorem disposals_of_closers (hc : s.closers = []) : s.disposals = s.lateCloses := by
  rw [disposals_eq, hc]
  rfl

/-! ## Devices that are taken -/

theorem takenDevices_eq (ho : s.isOver = false) :
    takenDevices s (.add device) t = [(s.nextId, device)] := by
  simp [takenDevices, add, ho]

theorem takenDevices_of_over (ho : s.isOver = true) : takenDevices s m t = [] := by
  unfold takenDevices
  split
  · simp [add, ho]
  · rfl

theorem takenDevices_eq_nil (hm : ∀ device, m ≠ .add device) : takenDevices s m t = [] := by
  unfold takenDevices
  split
  · exact absurd rfl (hm _)
  · rfl

/-- A move that hands in no device tells of those that were taken before. -/
theorem Owned.work (h : Owned taken s) (hset : Settled s) (hm : m.isWork = true)
    (hs : s.step m = some t) : Owned taken t := by
  have hfacts : t.added = s.added ∧ (∀ k ∈ t.control, k ∈ s.control) ∧
      ∀ k ∈ t.closers, k ∈ s.closers ∨ (∃ l ∈ s.slots, l.id = k.id ∧ l.device = k.device) ∨
        .add k.id k.device ∈ s.control := by
    rcases hset.before hm hs with rfl | ⟨u, b⟩
    · obtain ⟨_, _, _, _, _, _, _, he, -⟩ := crash_parts s
      rw [he]
      exact ⟨rfl, nofun, nofun⟩
    · refine ⟨?_, fun k hk => ?_, fun k hk => ?_⟩
      · rw [b.eq, added_settleTeardown, b.deed.added]
      · rw [b.eq] at hk
        rcases control_settleTeardown (s := u) with hc | hc
        · exact b.deed.control k (hc ▸ hk)
        · rw [hc] at hk
          cases hk
      · obtain ⟨_, _, _, _, _, _, _, _, _, _, he⟩ := settleTeardown_parts u
        rw [b.eq, he] at hk
        refine (b.deed.opened k hk).imp_right fun hnew => hnew.2.imp_left ?_
        rintro ⟨l, hl, hid, hd, -⟩
        exact ⟨l, hl, hid, hd⟩
  have hbefore : s.isOver = false → Settled s := fun _ => hset
  obtain ⟨hadded, hcontrol, hclosers⟩ := hfacts
  refine ⟨h.once, fun k hk => hadded ▸ h.numbers k hk, fun id device hk =>
    h.coming id device (hcontrol _ hk), fun k' hk' => ?_, fun k hk => ?_, fun k hk => ?_⟩
  · rcases slots_of_step hbefore hs k' hk' with ⟨k, hk, hlater⟩ | hcoming
    · rw [hlater.id, hlater.device]
      exact h.listed k hk
    · exact h.coming _ _ hcoming
  · rcases hclosers k hk with hk | ⟨l, hl, hid, hd⟩ | hcoming
    · exact h.closers k hk
    · rw [← hid, ← hd]
      exact h.listed l hl
    · exact h.coming _ _ hcoming
  · exact (lateCloses_of_step hbefore hs k hk).elim (h.late k) (h.coming _ _)

theorem Owned.add (h : Owned taken s) (device : DeviceRef) :
    Owned (taken ++ takenDevices s (.add device) (s.add device).2) (s.add device).2 := by
  cases ho : s.isOver with
  | true =>
    have he : (s.add device).2 = { s with added := s.added + 1 } := by simp [State.add, ho]
    rw [takenDevices_of_over ho, List.append_nil, he]
    exact { h with numbers := fun k hk => ⟨(h.numbers k hk).1, Nat.le_succ_of_le (h.numbers k hk).2⟩ }
  | false =>
    rw [takenDevices_eq ho, add_eq ho]
    have hold : ∀ {k}, k ∈ taken → k ∈ taken ++ [(s.nextId, device)] := List.mem_append_left _
    refine ⟨?_, fun k hk => ?_, fun id device' hk => ?_, fun k hk => hold (h.listed k hk),
      fun k hk => hold (h.closers k hk), fun k hk => hold (h.late k hk)⟩
    · rw [List.map_append]
      refine List.nodup_append.2 ⟨h.once, List.nodup_singleton _, fun id hid id' hid' he => ?_⟩
      obtain ⟨k, hk, rfl⟩ := List.mem_map.1 hid
      have hnumber := (h.numbers k hk).2
      rw [he, List.mem_singleton.1 hid'] at hnumber
      exact Nat.not_succ_le_self _ hnumber
    · rcases List.mem_append.1 hk with hk | hk
      · exact ⟨(h.numbers k hk).1, Nat.le_succ_of_le (h.numbers k hk).2⟩
      · rw [List.mem_singleton.1 hk]
        exact ⟨Nat.succ_pos _, Nat.le_refl _⟩
    · rcases List.mem_append.1 hk with hk | hk
      · exact hold (h.coming _ _ hk)
      · obtain ⟨rfl, rfl⟩ := Control.add.inj (List.mem_singleton.1 hk)
        exact List.mem_append_right _ (List.mem_singleton_self _)

theorem Owned.aside (h : Owned taken s) (q : Aside s m t) (hs : s.step m = some t) :
    Owned taken t := by
  refine ⟨h.once, fun k hk => q.added ▸ h.numbers k hk, fun id device hk => ?_,
    fun k hk => h.listed k (q.slots ▸ hk), fun k hk => ?_, fun k hk => h.late k (q.late.subset hk)⟩
  · rcases q.messages with he | ⟨c, op, k, -, hk', he⟩
    · exact h.coming _ _ (he ▸ hk)
    · rw [he] at hk
      rcases List.mem_append.1 hk with hk | hk
      · exact h.coming _ _ hk
      · rw [← List.mem_singleton.1 hk] at hk'
        cases op <;> cases hk'
  · rcases q.tasks with he | ⟨id, out, rfl⟩
    · exact h.closers k (he ▸ hk)
    · obtain ⟨-, rfl⟩ := closeReturned_cases hs
      obtain ⟨l, hl, rfl⟩ := List.mem_map.1 hk
      split
      · exact h.closers l hl
      · exact h.closers l hl

theorem owned_of_run (h : Run (.init settings) ms s) :
    Owned ((State.init settings).log takenDevices ms) s := by
  refine h.snocRec (p := fun ms s => Owned ((State.init settings).log takenDevices ms) s) ?_ ?_
  · exact ⟨List.nodup_nil, nofun, nofun, nofun, nofun, nofun⟩
  intro ms s m t hrun ih hm
  rw [hrun.log_snoc hm]
  rcases step_kinds hm with ⟨hwork, ho⟩ | ⟨device, rfl, rfl⟩ | q
  · rw [takenDevices_eq_nil (by rintro device rfl; cases hwork), List.append_nil]
    exact ih.work (settled_of_run hrun ho) hwork hm
  · exact ih.add device
  · by_cases hadd : ∃ device, m = .add device
    · obtain ⟨device, rfl⟩ := hadd
      obtain rfl := step_add hm
      exact ih.add device
    · rw [takenDevices_eq_nil fun device he => hadd ⟨device, he⟩, List.append_nil]
      exact ih.aside q hm

/-! ## Closes of one kind at a time -/

/-- A coordinator that is over has no closers. -/
theorem closers_of_over (h : Run (.init settings) ms s) (ho : s.isOver = true) :
    s.closers = [] := by
  refine h.snocRec (p := fun _ s => s.isOver = true → s.closers = []) (fun ho => by cases ho) ?_ ho
  intro ms s m t hrun ih hm ho
  have hsame : t.closerIds = s.closerIds → s.isOver = true → t.closers = [] := fun he ho => by
    rw [closerIds, closerIds, ih ho] at he
    exact List.map_eq_nil_iff.1 he
  rcases step_kinds hm with ⟨hwork, hopen⟩ | ⟨device, -, rfl⟩ | q
  · rcases (settled_of_run hrun hopen).before hwork hm with rfl | ⟨u, b⟩
    · obtain ⟨_, _, _, _, _, _, _, he, -⟩ := crash_parts s
      rw [he]
    · obtain ⟨_, _, _, _, _, _, _, _, _, _, he⟩ := settleTeardown_parts u
      rw [b.eq, he]
      refine List.eq_nil_iff_forall_not_mem.2 fun c hc => ?_
      obtain ⟨k, hk, -⟩ := b.tended.coherent.closers c.id (List.mem_map_of_mem hc)
      rw [slots_eq_nil_of_over b.working (b.eq ▸ ho)] at hk
      cases hk
  · rw [isOver_add] at ho
    obtain ⟨_, he⟩ := add_parts s device
    exact hsame (by rw [he]; rfl) ho
  · exact hsame q.closers (q.isOver ▸ ho)

theorem nodup_lateDevices (h : Coherent s) : ((lateDevices s.control).map (·.1)).Nodup := by
  have hnumbers : (s.control.filterMap (·.number?)).Nodup :=
    ((List.pairwise_append.1 h.ascending).2.1).imp Nat.ne_of_lt
  have hsame : (lateDevices s.control).map (·.1.number) = s.control.filterMap (·.number?) := by
    rw [lateDevices, List.map_filterMap]
    refine List.filterMap_congr fun m _ => ?_
    cases m <;> rfl
  rw [← hsame] at hnumbers
  refine List.Nodup.of_map DeviceId.number ?_
  rwa [List.map_map]

/-- The devices that came too late are different ones. -/
theorem nodup_lateCloses (h : Run (.init settings) ms s) : (s.lateCloses.map (·.1)).Nodup := by
  refine h.snocRec (p := fun (_ : List Move) (s : State) => (s.lateCloses.map (·.1)).Nodup) ?_ ?_
  · exact List.nodup_nil
  intro ms s m t hrun ih hm
  rcases step_kinds hm with ⟨hwork, hopen⟩ | ⟨device, -, rfl⟩ | q
  · have hnil := lateCloses_eq_nil hrun hopen
    rcases (settled_of_run hrun hopen).before hwork hm with rfl | ⟨u, b⟩
    · obtain ⟨_, _, _, _, _, _, _, he, -⟩ := crash_parts s
      rw [he]
      exact ih
    · have hu : u.lateCloses = [] := b.deed.late.trans hnil
      rw [b.eq]
      rw [lateCloses_settleTeardown b.working, hu, List.nil_append]
      split
      · exact nodup_lateDevices b.tended.coherent
      · exact List.nodup_nil
  · obtain ⟨_, he⟩ := add_parts s device
    rw [he]
    exact ih
  · exact ih.sublist (q.late.map _)

theorem nodup_disposals (h : Run (.init settings) ms s) : (s.disposals.map (·.1)).Nodup := by
  cases ho : s.isOver with
  | false =>
    rw [closeCalls_eq_disposals (lateCloses_eq_nil h ho)]
    exact (guarded_of_run h).1.sublist (closeCalls_sublist s)
  | true =>
    rw [disposals_of_closers (closers_of_over h ho)]
    exact nodup_lateCloses h

theorem mem_startedDisposals (h : Run (.init settings) ms t) {k : DeviceId × DeviceRef} :
    k ∈ startedDisposals s m t ↔ k ∈ t.disposals ∧ k ∉ s.disposals :=
  (nodup_disposals h).of_map.mem_sdiff_iff

/-- A device that is being closed was taken. -/
theorem Owned.disposals (h : Owned taken s) : s.disposals ⊆ taken := fun k hk => by
  rcases mem_disposals.1 hk with ⟨c, hc, rfl, -⟩ | hk
  · exact h.closers c hc
  · exact h.late k hk

/-- An id stands for one device. -/
theorem Owned.unique (h : Owned taken s) {k l : DeviceId × DeviceRef} (hk : k ∈ taken)
    (hl : l ∈ taken) (he : k.1 = l.1) : k = l :=
  List.inj_on_of_nodup_map h.once hk hl he

/-! ## What starts a close -/

/-- A close is started from the list while the coordinator goes on, and as one that comes too
    late with the move with which it ends. -/
theorem startedDisposals_cases (h : Run (.init settings) ms s) (hs : s.step m = some t)
    {k : DeviceId × DeviceRef} (hk : k ∈ startedDisposals s m t) : s.isOver = false ∧
      (t.isOver = false ∧ k.1 ∈ startedCloses s m t ∨
        t.isOver = true ∧ .add k.1 k.2 ∈ s.control) := by
  have hafter := h.snoc hs
  obtain ⟨hk, hnew⟩ := (mem_startedDisposals hafter).1 hk
  cases ho : t.isOver with
  | false =>
    have hopen := isOver_eq_false_of_step hs ho
    refine ⟨hopen, .inl ⟨rfl, (mem_startedCloses (guarded_of_run hafter).1).2 ⟨?_, fun hold => ?_⟩⟩⟩
    · rw [← closeCalls_eq_disposals (lateCloses_eq_nil hafter ho)]
      exact List.mem_map_of_mem hk
    · -- a close of that device would be a close of this one
      rw [← closeCalls_eq_disposals (lateCloses_eq_nil h hopen)] at hold
      obtain ⟨l, hl, he⟩ := List.mem_map.1 hold
      have howned := owned_of_run hafter
      have hbefore : l ∈ (State.init settings).log takenDevices (ms ++ [m]) := by
        rw [h.log_snoc hs]
        exact List.mem_append_left _ ((owned_of_run h).disposals hl)
      rw [howned.unique hbefore (howned.disposals hk) he] at hl
      exact hnew hl
  | true =>
    have hlate : k ∈ t.lateCloses := disposals_of_closers (closers_of_over hafter ho) ▸ hk
    rcases lateCloses_of_step (settled_of_run h) hs k hlate with hold | hcoming
    · exact absurd (mem_disposals.2 (.inr hold)) hnew
    · refine ⟨?_, .inr ⟨rfl, hcoming⟩⟩
      by_contra hover
      have hover : s.isOver = true := by simpa using hover
      refine hnew (mem_disposals.2 (.inr ?_))
      rcases step_kinds hs with ⟨-, hopen⟩ | ⟨device, -, rfl⟩ | q
      · rw [hover] at hopen
        cases hopen
      · obtain ⟨_, he⟩ := add_parts s device
        rw [he] at hlate
        exact hlate
      · exact q.late.subset hlate

/-! ## Over a run -/

theorem disposing_of_run (h : Run (.init settings) ms s) :
    Disposing ((State.init settings).log takenDevices ms) ((State.init settings).log startedCloses ms)
      ((State.init settings).log startedDisposals ms) s := by
  refine h.snocRec (p := fun ms s => Disposing ((State.init settings).log takenDevices ms)
    ((State.init settings).log startedCloses ms) ((State.init settings).log startedDisposals ms) s)
    ?_ ?_
  · exact ⟨List.nodup_nil, nofun, nofun, nofun, fun _ => nofun⟩
  intro ms s m t hrun ih hm
  have hafter := hrun.snoc hm
  have hguard := guarded_of_run hafter
  have hcalls : t.disposals ⊆ (State.init settings).log startedDisposals ms ++
      startedDisposals s m t := fun k hk => by
    by_cases hold : k ∈ s.disposals
    · exact List.mem_append_left _ (ih.calls hold)
    · exact List.mem_append_right _ ((mem_startedDisposals hafter).2 ⟨hk, hold⟩)
  rw [hrun.log_snoc hm, hrun.log_snoc hm, hrun.log_snoc hm]
  refine ⟨?_, fun k hk => ?_, hcalls, fun id hid => ?_, fun ho id hid => ?_⟩
  · rw [List.map_append]
    refine List.nodup_append.2
      ⟨ih.once, (nodup_disposals hafter).sublist ((List.diff_sublist ..).map _), ?_⟩
    rintro id hid _ hid' rfl
    obtain ⟨k, hk, rfl⟩ := List.mem_map.1 hid'
    obtain ⟨ho, ⟨-, hstarted⟩ | ⟨-, hcoming⟩⟩ := startedDisposals_cases hrun hm hk
    · have hclosings := closings_of_run hafter
      rw [hrun.log_snoc hm] at hclosings
      exact (List.nodup_append.1 hclosings.once).2.2 _ (ih.listed ho hid) _ hstarted rfl
    · exact ((closings_of_run hrun).passed _ (ih.listed ho hid)).not_coming (coming_of_add hcoming)
  · rcases List.mem_append.1 hk with hk | hk
    · exact List.mem_append_left _ (ih.owned hk)
    · rw [← hrun.log_snoc hm]
      exact (owned_of_run hafter).disposals ((mem_startedDisposals hafter).1 hk).1
  · rcases List.mem_append.1 hid with hid | hid
    · rw [List.map_append]
      exact List.mem_append_left _ (ih.started hid)
    · have ho := (started_of_step (settled_of_run hrun) hm hguard.1 hid).2.1
      have hcall := ((mem_startedCloses hguard.1).1 hid).1
      rw [← closeCalls_eq_disposals (lateCloses_eq_nil hafter ho)] at hcall
      exact List.map_subset _ hcalls hcall
  · have hopen := isOver_eq_false_of_step hm ho
    rw [List.map_append] at hid
    rcases List.mem_append.1 hid with hid | hid
    · exact List.mem_append_left _ (ih.listed hopen hid)
    · obtain ⟨k, hk, rfl⟩ := List.mem_map.1 hid
      rcases (startedDisposals_cases hrun hm hk).2 with ⟨-, hstarted⟩ | ⟨hover, -⟩
      · exact List.mem_append_right _ hstarted
      · rw [hover] at ho
        cases ho

/-- A device whose close has returned is among those whose close was started. -/
theorem disposed_of_reported (h : Run (.init settings) ms s) {k : DeviceId × DeviceRef}
    (hk : k ∈ (State.init settings).log takenDevices ms) (hr : Reported ms k.1) :
    k ∈ (State.init settings).log startedDisposals ms := by
  have hdisposing := disposing_of_run h
  obtain ⟨l, hl, he⟩ := List.mem_map.1 (hdisposing.started (started_of_reported h hr))
  rwa [← (owned_of_run h).unique (hdisposing.owned hl) hk he]

/-- With the move with which the coordinator ends, whatever was taken is closed or has been. -/
theorem disposed_of_ending (h : Run (.init settings) ms s) (hs : s.step m = some t)
    (hopen : s.isOver = false) (he : t.coordinator = .ended) :
    (State.init settings).log takenDevices ms ⊆
      (State.init settings).log startedDisposals (ms ++ [m]) := by
  intro k hk
  have hafter := h.snoc hs
  have hover : t.isOver = true := by simp [isOver, he]
  have hdisposing := disposing_of_run hafter
  have htaken : k ∈ (State.init settings).log takenDevices (ms ++ [m]) := by
    rw [h.log_snoc hs]
    exact List.mem_append_left _ hk
  rcases step_kinds hs with ⟨hwork, -⟩ | ⟨device, -, rfl⟩ | q
  · rcases (settled_of_run h hopen).before hwork hs with rfl | ⟨u, b⟩
    · rw [coordinator_crash] at he
      cases he
    · have hnil := slots_eq_nil_of_over b.working (b.eq ▸ hover)
      have hcoh := b.tended.coherent
      obtain ⟨hpos, hle⟩ := (owned_of_run h).numbers k hk
      rcases ((known_of_run h hopen).deed b.deed).devices k.1 hpos (b.deed.added ▸ hle) with
        hcoming | hunclosed | hr
      · -- its turn never came
        have hlate : t.lateCloses = u.lateCloses ++ lateDevices u.control := by
          rw [b.eq, lateCloses_settleTeardown b.working, ← b.eq, hover]
          rfl
        obtain ⟨n, hn, hnumber⟩ := List.mem_filterMap.1 hcoming
        obtain ⟨id, device, rfl⟩ : ∃ id device, n = .add id device := by
          cases n with
          | add id device => exact ⟨id, device, rfl⟩
          | _ => cases hnumber
        have hmem : (id, device) ∈ t.lateCloses := by
          rw [hlate]
          exact List.mem_append_right _ (mem_lateDevices.2 hn)
        have hid : id = k.1 := by
          cases id
          exact congrArg DeviceId.mk (Option.some.inj hnumber)
        have howned := owned_of_run hafter
        rw [← howned.unique (howned.late _ hmem) htaken hid]
        exact hdisposing.calls (mem_disposals.2 (.inr hmem))
      · have hlisted : ∃ l ∈ u.slots, l.id = k.1 := by
          rcases hunclosed with hclosing | ⟨l, hl, he, -⟩
          · exact hcoh.closers k.1 hclosing
          · exact ⟨l, hl, he⟩
        obtain ⟨l, hl, -⟩ := hlisted
        rw [hnil] at hl
        cases hl
      · exact disposed_of_reported hafter htaken hr.append
  · rw [isOver_add, hopen] at hover
    cases hover
  · rw [q.isOver, hopen] at hover
    cases hover

/-- Once the coordinator has ended, a close of all that was taken has been started. -/
theorem disposed_of_ended (h : Run (.init settings) ms s) (he : s.coordinator = .ended) :
    (State.init settings).log takenDevices ms ⊆ (State.init settings).log startedDisposals ms := by
  refine h.snocRec (p := fun ms s => s.coordinator = .ended →
    (State.init settings).log takenDevices ms ⊆ (State.init settings).log startedDisposals ms)
    (fun _ => nofun) ?_ he
  intro ms s m t hrun ih hm he
  cases hopen : s.isOver with
  | true =>
    rw [hrun.log_snoc hm, hrun.log_snoc hm, takenDevices_of_over hopen, List.append_nil]
    have hbefore := ih ((coordinator_of_over hopen hm).symm.trans he)
    exact List.Subset.trans hbefore (List.subset_append_left _ _)
  | false =>
    have hnone : takenDevices s m t = [] := takenDevices_eq_nil fun device hadd => by
      subst hadd
      obtain rfl := step_add hm
      have hover : (s.add device).2.isOver = true := by simp [isOver, he]
      rw [isOver_add, hopen] at hover
      cases hover
    have htaken : (State.init settings).log takenDevices (ms ++ [m]) =
        (State.init settings).log takenDevices ms := by rw [hrun.log_snoc hm, hnone, List.append_nil]
    rw [htaken]
    exact disposed_of_ending hrun hm hopen he

/-- A device that was taken and whose close was started is closed once. -/
theorem count_disposals (h : Run (.init settings) ms s) {k : DeviceId × DeviceRef}
    (hk : k ∈ (State.init settings).log startedDisposals ms) :
    ((State.init settings).log startedDisposals ms).count k = 1 :=
  List.count_eq_one_of_mem (disposing_of_run h).once.of_map hk

end

end State

end SeamlessTunnel.Multiplexer
