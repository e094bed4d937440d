import SeamlessTunnel.Proofs.Multiplexer.Clearing
import SeamlessTunnel.Proofs.Multiplexer.Disposal
/-
  SeamlessTunnel.Proofs.Multiplexer.Emptying — when devices that were taken are closed.

  Unless the coordinator has crashed, a close of all of them has been started when a call for
  closing them is answered (`disposed_of_vacated`), and of all but the newest where no task
  can make a move (`disposed_of_stalled`). What the owner of the multiplexer does starts no
  close itself (`disposals_of_owner`), and the newest device is not closed while nothing
  takes its place (`standing_of_moves`).
-/

namespace SeamlessTunnel.Multiplexer.State

/-- What is the case from a call for closing for good on. -/
def Departing (c : Caller) (s : State) : Prop :=
  s.isOver = true ∨ .close c ∈ s.agenda

/-- What is the case from a call for closing all devices on, as long as none is handed in. -/
inductive Vacating (c : Caller) (s : State) : Operation → Prop
  | shutdown (h : Clearing c s) (ha : Asking c s) : Vacating c s .shutdown
  | close (h : Departing c s) : Vacating c s .close

/-- A device that is the newest, or was when the coordinator crashed, with no close started
    before. -/
def Standing (id : DeviceId) (device : DeviceRef) (ids : List (DeviceId × DeviceRef))
    (s : State) : Prop :=
  Newest id device s ∨ s.coordinator = .crashed ∧ id ∉ ids.map (·.1)

section

variable {s t : State} {m : Move} {c : Caller} {id : DeviceId} {device : DeviceRef}
  {op : Operation} {ms ns : List Move} {k l : DeviceId × DeviceRef} {settings : MultiplexerSettings}

/-! ## Calls for closing -/

theorem departing_of_call (hs : s.call c .close = some t) : Departing c t := by
  obtain ⟨-, -, ho | ⟨-, ha⟩⟩ := call_close hs
  · exact .inl (isOver_of_step (m := .call c .close) hs ho)
  · exact .inr ha

theorem departing_of_step (h : Run (.init settings) ms s) (hheld : s.held = true)
    (hd : Departing c s) (hs : s.step m = some t) : Departing c t := by
  rcases hd with ho | hmem
  · exact .inl (isOver_of_step hs ho)
  · cases advance_of_step h hheld hs with
    | same ho ha => exact .inr (ha ▸ hmem)
    | sent hk ho ha => exact .inr (ha ▸ List.mem_append_left _ hmem)
    | @done k rest hk ha hc hd =>
      -- the coordinator is not done with a close while it serves
      rw [hk] at hmem
      rcases List.mem_cons.1 hmem with rfl | hmem
      · exact hd.elim
      · exact .inr (ha ▸ hmem)
    | stopped ha hc hn =>
      refine .inl ?_
      rcases hc with hc | ⟨hc, -⟩ <;> simp [isOver, hc]

theorem departing_of_moves (h : Run (.init settings) ms s) (k : Run s ns t)
    (hheld : t.held = true) (hd : Departing c s) : Departing c t := by
  induction k generalizing ms with
  | nil => exact hd
  | cons hs k ih =>
    exact ih (h.snoc hs) hheld (departing_of_step h (held_of_run h (.cons hs k) hheld) hd hs)

/-- A close that is on the agenda was so before or has been called for since. -/
theorem close_of_moves (h : Run (.init settings) ms s) (k : Run s ns t) (hheld : t.held = true)
    (hc : .close c ∈ t.agenda) : .close c ∈ s.agenda ∨ .call c .close ∈ ns := by
  induction k generalizing ms with
  | nil => exact .inl hc
  | @cons s u t m ns hs k ih =>
    rcases ih (h.snoc hs) hheld hc with hmem | hcall
    · cases advance_of_step h (held_of_run h (.cons hs k) hheld) hs with
      | same ho ha => exact .inl (ha ▸ hmem)
      | @sent k' hk ho ha =>
        rw [ha] at hmem
        rcases List.mem_append.1 hmem with hmem | hmem
        · exact .inl hmem
        · obtain rfl := List.mem_singleton.1 hmem
          rcases hk with ⟨c', op, rfl, hop⟩ | ⟨device, -, he⟩
          · cases op <;> cases hop
            exact .inr (List.mem_cons_self ..)
          · cases he
      | done hk ha hc' hd => exact .inl (hk ▸ ha ▸ List.mem_cons_of_mem _ hmem)
      | stopped ha hc' hn =>
        rw [ha] at hmem
        cases hmem
    · exact .inr (List.mem_cons_of_mem _ hcall)

theorem vacating_of_call (hop : op = .shutdown ∨ op = .close) (hs : s.call c op = some t) :
    Vacating c t op := by
  rcases hop with rfl | rfl
  · obtain ⟨hc, ha⟩ := call_shutdown hs
    exact .shutdown hc ha
  · exact .close (departing_of_call hs)

theorem vacating_of_moves (h : Run (.init settings) ms s) (k : Run s ns t) (hheld : t.held = true)
    (hm : ∀ m ∈ ns, (∀ device, m ≠ .add device) ∧ ∀ op, m ≠ .call c op)
    (hv : Vacating c s op) : Vacating c t op := by
  cases hv with
  | shutdown hc ha =>
    obtain ⟨hc', ha'⟩ := clearing_of_moves h k hheld hm ⟨hc, ha⟩
    exact .shutdown hc' ha'
  | close hd => exact .close (departing_of_moves h k hheld hd)

/-- While all devices are to be closed, none is the newest. -/
theorem Vacating.not_newest (hv : Vacating c s op) : ¬ Newest id device s := by
  intro n
  have hopen := n.isOver
  cases hv with
  | shutdown hc ha =>
    cases hc with
    | finished ho => simp [hopen] at ho
    | @asked before after ha hl => exact hl id device (n.behind ha rfl nofun).1
    | cleared hnil ha =>
      cases n with
      | coming ho ha' hb hl => exact ha id device (by simp [ha'])
      | here hc hk hid hdevice hp hopen ha' => simp [hnil] at hk
  | close hd =>
    obtain ⟨before, after, ha⟩ := List.append_of_mem (hd.resolve_left (by simp [hopen]))
    exact (n.behind ha rfl nofun).2 c rfl

/-! ## What has been closed -/

theorem disposed_of_over (h : Run (.init settings) ms s) (ho : s.isOver = true)
    (hc : s.coordinator ≠ .crashed) :
    (State.init settings).log takenDevices ms ⊆ (State.init settings).log startedDisposals ms := by
  refine disposed_of_ended h ?_
  cases hs : s.coordinator <;> simp_all [isOver]

/-- When a call for closing all devices has been answered, a close of each has been started. -/
theorem disposed_of_vacated (h : Run (.init settings) ms s) (hv : Vacating c s op)
    (hw : s.awaits c = false) (hg : c ∉ s.gone) (hc : s.coordinator ≠ .crashed) :
    (State.init settings).log takenDevices ms ⊆ (State.init settings).log startedDisposals ms := by
  have hanswered : ∀ {k : Control}, k.caller? = some c → k ∉ s.agenda := fun hk hmem => by
    rcases awaits_of_agenda h hmem hk with hw' | hg'
    · rw [hw] at hw'
      cases hw'
    · exact hg hg'
  cases ho : s.isOver with
  | true => exact disposed_of_over h ho hc
  | false =>
    cases hv with
    | close hd => exact absurd (hd.resolve_left (by simp [ho])) (hanswered rfl)
    | shutdown hclearing =>
      cases hclearing with
      | finished hover => simp [ho] at hover
      | @asked before after ha hl => exact absurd (by simp [ha]) (hanswered (k := .shutdown c) rfl)
      | cleared hnil ha =>
        intro k hk
        obtain ⟨hpos, hle⟩ := (owned_of_run h).numbers k hk
        rcases place_of_device h ho hpos hle with ⟨device, hmem⟩ | ⟨l, hl, -⟩ | hr
        · exact absurd (List.mem_append_right _ hmem) (ha k.1 device)
        · rw [hnil] at hl
          cases hl
        · exact disposed_of_reported h hk hr

/-- Joining a close that has crashed crashes the coordinator. -/
theorem crashed_of_joinCloser (hn : s.closerIds.Nodup) {k : Closer} (hk : k ∈ s.closers)
    (hr : k.result = some .crash) (hs : s.joinCloser k.id = some t) : t.coordinator = .crashed := by
  have hfind : s.closers.find? (·.id = k.id) = some k := by
    cases hf : s.closers.find? (·.id = k.id) with
    | none => simpa using List.find?_eq_none.1 hf k hk
    | some l =>
      have hid : l.id = k.id := by simpa using List.find?_some hf
      rw [List.inj_on_of_nodup_map hn (List.mem_of_find?_eq_some hf) hk hid]
  unfold joinCloser at hs
  split at hs
  · cases hs
  · rw [hfind] at hs
    simp only [Option.bind_eq_bind, Option.bind_some, hr] at hs
    obtain rfl := Option.some.inj hs
    exact coordinator_crash _

/-- A close that has crashed is waited for until the coordinator crashes with it. -/
theorem crash_awaited (h : Run (.init settings) ms s) (hc : s.coordinator ≠ .crashed)
    (hm : .closeReturned id .crash ∈ ms) : ∃ k ∈ s.closers, k.id = id ∧ k.result = some .crash := by
  refine h.snocRec (p := fun ms s => s.coordinator ≠ .crashed → .closeReturned id .crash ∈ ms →
    ∃ k ∈ s.closers, k.id = id ∧ k.result = some .crash) (fun _ hm => by cases hm) ?_ hc hm
  intro ms s m t hrun ih hs hc hm
  have hguard := (guarded_of_run hrun).1
  have hold : (∀ out, m ≠ .closeReturned id out) → .closeReturned id .crash ∈ ms := fun hn =>
    (List.mem_append.1 hm).resolve_right fun hm => hn _ (List.mem_singleton.1 hm).symm
  rcases step_kinds hs with ⟨hwork, ho⟩ | ⟨device, rfl, rfl⟩ | q
  · obtain ⟨k, hk, rfl, hr⟩ := ih (fun hn => by simp [isOver, hn] at ho) (hold fun _ he => by
      rw [he] at hwork
      cases hwork)
    rcases (settled_of_run hrun ho).before hwork hs with rfl | ⟨u, b⟩
    · exact absurd (coordinator_crash s) hc
    · have hku : k ∈ u.closers := b.deed.kept hk fun he => by
        subst he
        exact hc (crashed_of_joinCloser hguard hk hr hs)
      rcases settleTeardown_cases u with ⟨he, -⟩ | ⟨cause, -, hnil, -⟩
      · exact ⟨k, by rwa [b.eq, he], rfl, hr⟩
      · -- a teardown does not end before all closes are joined
        obtain ⟨l, hl, -⟩ := b.tended.coherent.closers k.id (List.mem_map_of_mem hku)
        rw [hnil] at hl
        cases hl
  · obtain ⟨_, he⟩ := add_parts s device
    rw [he] at hc ⊢
    exact ih hc (hold fun _ he => by cases he)
  · rw [q.coordinator] at hc
    by_cases hreturned : ∃ id' out, m = .closeReturned id' out
    · obtain ⟨id', out, rfl⟩ := hreturned
      obtain ⟨⟨closer, hcl, rfl, hnone⟩, rfl⟩ := closeReturned_cases hs
      by_cases hid : closer.id = id
      · subst hid
        rcases List.mem_append.1 hm with hm | hm
        · obtain ⟨k, hk, hid, hr⟩ := ih hc hm
          obtain rfl := List.inj_on_of_nodup_map hguard hk hcl hid
          rw [hnone] at hr
          cases hr
        · obtain ⟨-, rfl⟩ := Move.closeReturned.inj (List.mem_singleton.1 hm)
          exact ⟨_, List.mem_map_of_mem hcl, by rw [if_pos rfl], by rw [if_pos rfl]⟩
      · obtain ⟨k, hk, rfl, hr⟩ := ih hc (hold fun _ he => hid (Move.closeReturned.inj he).1)
        exact ⟨k, List.mem_map.2 ⟨k, hk, if_neg fun he => hid he.symm⟩, rfl, hr⟩
    · have he : t.closers = s.closers := q.tasks.resolve_right hreturned
      rw [he]
      exact ih hc (hold fun out he => hreturned ⟨id, out, he⟩)

/-- Once no device is left, each close that has returned has come to its end. -/
theorem not_crash_of_emptied (h : Run (.init settings) ms s) (hc : s.coordinator ≠ .crashed)
    (hnil : s.slots = []) : .closeReturned id .crash ∉ ms := by
  intro hm
  obtain ⟨k, hk, -⟩ := crash_awaited h hc hm
  cases ho : s.isOver with
  | true =>
    rw [closers_of_over h ho] at hk
    cases hk
  | false =>
    obtain ⟨l, hl, -⟩ := (settled_of_run h ho).tended.coherent.closers k.id (List.mem_map_of_mem hk)
    rw [hnil] at hl
    cases hl

/-- A close is started of devices that were taken in, as long as the coordinator goes on. -/
theorem accepted_of_started (h : Run (.init settings) ms s) :
    (State.init settings).log startedCloses ms ⊆ (State.init settings).log acceptedDevices ms := by
  refine h.snocRec (p := fun ms _ => (State.init settings).log startedCloses ms ⊆
    (State.init settings).log acceptedDevices ms) (List.Subset.refl _) ?_
  intro ms s m t hrun ih hm id hid
  have hafter := hrun.snoc hm
  have hguard := (guarded_of_run hafter).1
  have hlisted := (taken_of_run hafter).listed
  rw [hrun.log_snoc hm] at hid hlisted ⊢
  rcases List.mem_append.1 hid with hid | hid
  · exact List.mem_append_left _ (ih hid)
  · have ho := (started_of_step (settled_of_run hrun) hm hguard hid).2.1
    obtain ⟨k, hk, rfl, -⟩ := (settled_of_run hafter ho).tended.coherent.closing
      ((mem_startedCloses hguard).1 hid).1
    exact hlisted k hk

/-- Where all is done that can be done, a close has been started of each device with a newer
    one after it. -/
theorem disposed_of_stalled (h : Run (.init settings) ms s) (hlive : s.hasHandle = true)
    (hc : s.coordinator ≠ .crashed) (hstalled : s.Stalled) (hlistening : s.Listening)
    (hk : k ∈ (State.init settings).log takenDevices ms)
    (hl : l ∈ (State.init settings).log takenDevices ms) (hlt : k.1.number < l.1.number) :
    k ∈ (State.init settings).log startedDisposals ms := by
  cases ho : s.isOver with
  | true => exact disposed_of_over h ho hc hk
  | false =>
    have hset := settled_of_run h ho
    have hcontrol := hstalled.control_eq_nil (hstalled.serving ho hlive hlistening hset)
    have hplace : ∀ {k}, k ∈ (State.init settings).log takenDevices ms →
        (∃ d ∈ s.slots, d.id = k.1) ∨ k ∈ (State.init settings).log startedDisposals ms := by
      intro k hk
      obtain ⟨hpos, hle⟩ := (owned_of_run h).numbers k hk
      rcases place_of_device h ho hpos hle with ⟨device, hmem⟩ | hlisted | hr
      · rw [hcontrol] at hmem
        cases hmem
      · exact .inl hlisted
      · exact .inr (disposed_of_reported h hk hr)
    refine (hplace hk).resolve_left ?_
    rintro ⟨d, hd, he⟩
    -- what is listed is active, and no device newer than that was ever taken in
    have hactive := hstalled.all_active ho hlive hlistening hset.tended d hd
    have hle : l.1.number ≤ d.id.number := by
      rcases hplace hl with ⟨d', hd', he'⟩ | hclosed
      · rw [← he']
        exact hset.tended.coherent.newest_of_active hd hactive hd'
      · exact (taken_of_run h).newest ho _ (accepted_of_started h
          ((disposing_of_run h).listed ho (List.mem_map_of_mem hclosed))) d hd hactive
    rw [he] at hle
    exact Nat.not_lt.2 hle hlt

/-! ## The owner's moves -/

/-- The owner's moves start no close. -/
theorem disposals_of_holder (hm : m.isHolder = true) (hs : s.step m = some t) :
    t.disposals = s.disposals := by
  have hsame : ∀ {t : State}, t.closers = s.closers → t.lateCloses = s.lateCloses →
      t.disposals = s.disposals := fun hc hl => by rw [disposals_eq, disposals_eq, hc, hl]
  cases m with
  | call c op =>
    obtain ⟨-, ⟨_, -, rfl⟩ | ⟨_, -, rfl⟩ | ⟨-, rfl⟩ | ⟨_, -, -, rfl⟩ | rfl⟩ := call_cases hs
    · exact hsame rfl rfl
    · exact hsame rfl rfl
    · exact hsame rfl rfl
    · exact hsame rfl rfl
    · obtain ⟨_, he⟩ := refuse_eq (s.enlist c) [c]
      exact hsame (by rw [he]; rfl) (by rw [he]; rfl)
  | leave c =>
    obtain ⟨_, -, rfl⟩ := leave_cases hs
    obtain ⟨_, he⟩ := releaseEvents_eq { s with calls := s.calls.filter (·.caller != c) }
    exact hsame (by rw [he]) (by rw [he])
  | cancel c =>
    obtain ⟨-, rfl⟩ := cancel_cases hs
    obtain ⟨_, he⟩ := releaseEvents_eq (s.quit c)
    exact hsame (by rw [he]; rfl) (by rw [he]; rfl)
  | release =>
    obtain ⟨_, rfl⟩ := release_cases hs
    exact hsame rfl rfl
  | _ => cases hm

theorem disposals_add (s : State) (device : DeviceRef) :
    (s.add device).2.disposals = s.disposals := by
  obtain ⟨_, he⟩ := add_parts s device
  rw [he, disposals_eq, disposals_eq]

/-- A move that leaves the closes that go on as they are starts none. -/
theorem diff_disposals (h : Run (.init settings) ms t) (he : t.disposals = s.disposals) :
    t.disposals.diff s.disposals = [] := by
  refine List.eq_nil_iff_forall_not_mem.2 fun k hk => ?_
  obtain ⟨hk, hn⟩ := (nodup_disposals h).of_map.mem_sdiff_iff.1 hk
  exact hn (he ▸ hk)

theorem disposals_of_owner (h : Run (.init settings) ms s) (k : Run s ns t)
    (hm : ∀ m ∈ ns, m.isHolder = true ∨ ∃ device, m = .add device) :
    t.disposals = s.disposals ∧ s.log startedDisposals ns = [] := by
  induction k generalizing ms with
  | nil => exact ⟨rfl, rfl⟩
  | @cons s u t m ns hs k ih =>
    have hsame : u.disposals = s.disposals := by
      rcases hm m (List.mem_cons_self ..) with hm | ⟨device, rfl⟩
      · exact disposals_of_holder hm hs
      · obtain rfl := step_add hs
        exact disposals_add s device
    obtain ⟨he, hlog⟩ := ih (h.snoc hs) fun m' hm' => hm m' (List.mem_cons_of_mem _ hm')
    refine ⟨he.trans hsame, ?_⟩
    rw [log_cons hs, hlog, List.append_nil]
    exact diff_disposals (h.snoc hs) hsame

theorem log_takenDevices_eq_nil (k : Run s ns t) (hm : ∀ m ∈ ns, ∀ device, m ≠ .add device) :
    s.log takenDevices ns = [] := by
  induction k with
  | nil => rfl
  | @cons s u t m ns hs k ih =>
    rw [log_cons hs, ih fun m' hm' => hm m' (List.mem_cons_of_mem _ hm'),
      takenDevices_eq_nil (hm m (List.mem_cons_self ..)), List.append_nil]

/-! ## What is not closed -/

/-- No close of the newest device has been started. -/
theorem Newest.not_disposed (n : Newest id device s) (h : Run (.init settings) ms s) :
    id ∉ ((State.init settings).log startedDisposals ms).map (·.1) := by
  intro hid
  have hclosings := closings_of_run h
  have hstarted := (disposing_of_run h).listed n.isOver hid
  cases n with
  | @coming before after ho ha hb hl =>
    have hmem : .add id device ∈ s.agenda := by simp [ha]
    rcases List.mem_append.1 hmem with hmem | hmem
    · cases hs : s.coordinator with
      | tearingDown cause =>
        rw [hs] at hmem
        cases cause <;> simp [Coordinator.message?, Teardown.message?] at hmem
      | _ => simp [hs, Coordinator.message?] at hmem
    · exact (hclosings.passed id hstarted).not_coming (coming_of_add hmem)
  | here hc hk hid' hdevice hp hopen ha =>
    rw [hclosings.marked (by simp [State.isOver, hc]) id hstarted _ (List.mem_of_getLast? hk) hid'] at hopen
    cases hopen

/-- A coordinator that crashes starts no close. -/
theorem startedDisposals_of_crashed (h : Run (.init settings) ms s) (hs : s.step m = some t)
    (hc : t.coordinator = .crashed) : startedDisposals s m t = [] := by
  refine List.eq_nil_iff_forall_not_mem.2 fun k hk => ?_
  have hover : t.isOver = true := by simp [isOver, hc]
  obtain ⟨ho, -⟩ := startedDisposals_cases h hs hk
  have hmem := ((mem_startedDisposals (h.snoc hs)).1 hk).1
  rw [disposals_of_closers (closers_of_over (h.snoc hs) hover)] at hmem
  rcases step_kinds hs with ⟨hwork, -⟩ | ⟨device, -, rfl⟩ | q
  · rcases (settled_of_run h ho).before hwork hs with rfl | ⟨u, b⟩
    · obtain ⟨_, _, _, _, _, _, _, he, -⟩ := crash_parts s
      rw [he] at hmem
      have hold : k ∈ s.lateCloses := hmem
      rw [lateCloses_eq_nil h ho] at hold
      cases hold
    · rcases settleTeardown_cases u with ⟨he, -⟩ | ⟨cause, -, -, he⟩
      · rw [b.eq, he, b.working] at hover
        cases hover
      · rw [b.eq, he, coordinator_endTeardown] at hc
        cases cause <;> cases hc
  · rw [isOver_add, ho] at hover
    cases hover
  · rw [q.isOver, ho] at hover
    cases hover

theorem disposals_of_crashed (h : Run (.init settings) ms s) (k : Run s ns t)
    (hc : s.coordinator = .crashed) :
    t.coordinator = .crashed ∧ s.log startedDisposals ns = [] := by
  induction k generalizing ms with
  | nil => exact ⟨hc, rfl⟩
  | cons hs k ih =>
    have hlater := crashed_of_step hc hs
    obtain ⟨hend, hnone⟩ := ih (h.snoc hs) hlater
    refine ⟨hend, ?_⟩
    rw [log_cons hs, startedDisposals_of_crashed h hs hlater, hnone]
    rfl

theorem Standing.not_disposed (n : Standing id device ((State.init settings).log startedDisposals ms) s)
    (h : Run (.init settings) ms s) :
    id ∉ ((State.init settings).log startedDisposals ms).map (·.1) :=
  n.elim (·.not_disposed h) (·.2)

/-- A device stands while nothing takes its place. -/
theorem standing_of_moves (h : Run (.init settings) ms s) (k : Run s ns t) (hheld : t.held = true)
    (hm : ∀ m ∈ ns, m.spares = true)
    (n : Standing id device ((State.init settings).log startedDisposals ms) s) :
    Standing id device ((State.init settings).log startedDisposals (ms ++ ns)) t := by
  induction k generalizing ms with
  | nil => simpa using n
  | @cons s u t m ns hs k ih =>
    have hafter := h.snoc hs
    have hlater := ih hafter hheld (fun m' hm' => hm m' (List.mem_cons_of_mem _ hm'))
    rw [List.append_assoc] at hlater
    refine hlater ?_
    have hcrashed : u.coordinator = .crashed →
        u.coordinator = .crashed ∧ id ∉ ((State.init settings).log startedDisposals (ms ++ [m])).map
          (·.1) := fun hc => by
      rw [h.log_snoc hs, startedDisposals_of_crashed h hs hc, List.append_nil]
      exact ⟨hc, n.not_disposed h⟩
    rcases n with n | ⟨hc, -⟩
    · exact (newest_of_step h (held_of_run h (.cons hs k) hheld) (held_of_run hafter k hheld) n
        (hm m (List.mem_cons_self ..)) hs).symm.imp_right hcrashed
    · exact .inr (hcrashed (crashed_of_step hc hs))

end

end SeamlessTunnel.Multiplexer.State
