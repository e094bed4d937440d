import SeamlessTunnel.Proofs.Multiplexer.Dismissal
import SeamlessTunnel.Proofs.Multiplexer.Newest
import SeamlessTunnel.Proofs.Multiplexer.Progress
/-
  SeamlessTunnel.Proofs.Multiplexer.Clearing — waiting until all devices are closed.

  A caller that asks for a shutdown is answered, at the latest, where devices owe nothing any
  more (`answered_of_stalled`). If no device is handed in meanwhile, then each device that
  was has been closed, unless the coordinator has crashed or the device came when the
  multiplexer was about to close for good (`emptied_of_answered`).
-/

namespace SeamlessTunnel.Multiplexer

namespace State

/-- Whether a device was handed in when the multiplexer was closed or about to close. -/
def HandedInLate (s₀ : State) (ms : List Move) (id : DeviceId) : Prop :=
  ∃ ms₁ ms₂ u device, ms = ms₁ ++ .add device :: ms₂ ∧ Run s₀ ms₁ u ∧ u.nextId = id ∧
    (u.isOver = true ∨ u.ClosingSoon)

/-- What is the case from a call for shutdown on, as long as no device is handed in. -/
inductive Clearing (c : Caller) (s : State) : Prop
  | finished (ho : s.isOver = true)
  | asked {before after : List Control} (ha : s.agenda = before ++ .shutdown c :: after)
      (hl : ∀ id device, .add id device ∉ after)
  | cleared (hs : s.slots = []) (ha : ∀ id device, .add id device ∉ s.agenda)

/-- A caller that still waits has its message on the agenda. -/
def Asking (c : Caller) (s : State) : Prop :=
  s.awaits c = true → s.isOver = false ∧ .shutdown c ∈ s.agenda

section

variable {s₀ s t : State} {m : Move} {c : Caller} {id : DeviceId} {ms ns : List Move}
  {settings : MultiplexerSettings}

theorem HandedInLate.append (h : HandedInLate s₀ ms id) : HandedInLate s₀ (ms ++ ns) id := by
  obtain ⟨ms₁, ms₂, u, device, rfl, hu⟩ := h
  exact ⟨ms₁, ms₂ ++ ns, u, device, by simp, hu⟩

/-- A device that was handed in late was so in the first or in the second part of a run. -/
theorem HandedInLate.append_inv (h : HandedInLate s₀ (ms ++ ns) id) (hrun : Run s₀ ms s) :
    HandedInLate s₀ ms id ∨ HandedInLate s ns id := by
  obtain ⟨ms₁, ms₂, u, device, he, hu, hlate⟩ := h
  have hsecond : ∀ l, ms₁ = ms ++ l → ns = l ++ .add device :: ms₂ → HandedInLate s ns id := by
    rintro l rfl hns
    obtain ⟨s', hs', hl⟩ := hu.append_inv
    obtain rfl := hs'.unique hrun
    exact ⟨l, ms₂, u, device, hns, hl, hlate⟩
  rcases List.append_eq_append_iff.1 he with ⟨l, hms, hns⟩ | ⟨l, hms, hns⟩
  · exact .inr (hsecond l hms hns)
  · cases l with
    | nil => exact .inr (hsecond [] (by simpa using hms.symm) (by simpa using hns.symm))
    | cons m l =>
      obtain ⟨rfl, -⟩ := List.cons.inj hns
      exact .inl ⟨ms₁, l, u, device, hms, hu, hlate⟩

/-! ## Asking -/

theorem call_shutdown (hs : s.call c .shutdown = some t) : Clearing c t ∧ Asking c t := by
  unfold call at hs
  split at hs
  · cases hs
  · change (if s.isOver then some ((s.enlist c).refuse [c]) else
      some { s.enlist c with control := s.control ++ [.shutdown c] }) = some t at hs
    split at hs
    · rename_i ho
      obtain rfl := Option.some.inj hs
      refine ⟨.finished (by rwa [isOver, coordinator_refuse]), fun hw => ?_⟩
      exact absurd (List.mem_singleton_self c) (awaits_refuse.1 hw).2
    · rename_i ho
      have hopen : s.isOver = false := by simpa using ho
      obtain rfl := Option.some.inj hs
      have hagenda : agenda { s.enlist c with control := s.control ++ [.shutdown c] } =
          s.agenda ++ .shutdown c :: [] := by simp [agenda, enlist]
      refine ⟨.asked hagenda fun _ _ hk => (by cases hk), fun _ => ⟨hopen, ?_⟩⟩
      rw [hagenda]
      exact List.mem_append_right _ (List.mem_cons_self ..)

/-- A message of a caller is on the agenda only until the caller is answered. -/
theorem awaits_of_agenda (h : Run (.init settings) ms s) {k : Control} (hk : k ∈ s.agenda)
    (hc : k.caller? = some c) : s.awaits c = true ∨ c ∈ s.gone := by
  refine (accounted_of_run h).placed c ?_
  have hmem : c ∈ s.askers :=
    List.mem_append_left _ (mem_askers_of_agenda hk hc)
  simp [places, hmem]

theorem asking_of_step (h : Run (.init settings) ms s) (hheld : s.held = true) (ha : Asking c s)
    (hm : ∀ op, m ≠ .call c op) (hs : s.step m = some t) : Asking c t := by
  intro hw
  obtain ⟨hover, hmem⟩ := ha (awaits_of_step (settled_of_run h) hs hm hw)
  cases advance_of_step h hheld hs with
  | same ho he => exact ⟨ho.trans hover, he ▸ hmem⟩
  | sent hk ho he => exact ⟨ho.trans hover, he ▸ List.mem_append_left _ hmem⟩
  | done he ha' hc hd =>
    rw [he] at hmem
    rcases List.mem_cons.1 hmem with rfl | hmem
    · rw [hd.2] at hw
      cases hw
    · exact ⟨by simp [isOver, hc], ha' ▸ hmem⟩
  | stopped ha' hc hn =>
    rw [hn _ hmem c rfl] at hw
    cases hw

/-- Where no task can make a move and devices owe no close, the shutdown has been answered. -/
theorem answered_of_stalled (h : start settings = .ok s₀) (hrun : Run s₀ ms s)
    (hheld : s.held = true) (ha : Asking c s) (hc : c ∈ s.callers) (hstalled : s.Stalled)
    (hlistening : s.Listening) : ∃ a, s.answer? c = some a := by
  obtain ⟨rfl, -⟩ := start_eq h
  have hw : s.awaits c ≠ true := fun hw => by
    obtain ⟨ho, hmem⟩ := ha hw
    have hserving := hstalled.serving ho (by simp [hasHandle, hheld]) hlistening
      (settled_of_run hrun ho)
    rw [agenda_of_message?_eq_none (by rw [hserving]; rfl), hstalled.control_eq_nil hserving] at hmem
    cases hmem
  obtain ⟨k, hk, rfl⟩ := List.mem_map.1 hc
  rw [answer?_of_mem (accounted_of_run hrun).callers hk]
  refine Option.ne_none_iff_exists'.1 fun hn => hw ?_
  exact awaits_iff.2 ⟨k, hk, rfl, hn⟩

/-! ## What is left -/

theorem clearing_of_step (h : Run (.init settings) ms s) (hheld : s.held = true)
    (hc : Clearing c s) (hm : ∀ device, m ≠ .add device) (hs : s.step m = some t) :
    Clearing c t := by
  have hsent : ∀ {k}, s.Sends m k → ∀ id device, k ≠ .add id device := by
    rintro k (⟨c', op, -, hk⟩ | ⟨device, rfl, -⟩) id device' rfl
    · cases op <;> cases hk
    · exact hm device rfl
  cases hc with
  | finished ho => exact .finished (isOver_of_step hs ho)
  | @asked before after ha hl =>
    cases advance_of_step h hheld hs with
    | same ho he => exact .asked (he.trans ha) hl
    | @sent k hk ho he =>
      have hagenda : t.agenda = before ++ .shutdown c :: (after ++ [k]) := by simp [he, ha]
      refine .asked hagenda fun id device hmem => ?_
      rcases List.mem_append.1 hmem with hmem | hmem
      · exact hl id device hmem
      · exact hsent hk id device (List.mem_singleton.1 hmem).symm
    | done he ha' hc hd =>
      rw [ha] at he
      cases before with
      | nil =>
        obtain ⟨rfl, rfl⟩ := List.cons.inj he
        exact .cleared hd.1 (ha' ▸ hl)
      | cons k' before =>
        exact .asked (ha'.trans (List.cons.inj he).2.symm) hl
    | stopped ha' hc hn =>
      refine .finished ?_
      rcases hc with hc | ⟨hc, -⟩ <;> simp [isOver, hc]
  | cleared hnil ha =>
    have hslots : t.slots = [] := by
      refine List.eq_nil_iff_forall_not_mem.2 fun k hk => ?_
      rcases slots_of_step (settled_of_run h) hs k hk with ⟨l, hl, -⟩ | hcoming
      · rw [hnil] at hl
        cases hl
      · exact ha _ _ (List.mem_append_right _ hcoming)
    refine .cleared hslots fun id device hmem => ?_
    cases advance_of_step h hheld hs with
    | same ho he => exact ha id device (he ▸ hmem)
    | sent hk ho he =>
      rw [he] at hmem
      rcases List.mem_append.1 hmem with hmem | hmem
      · exact ha id device hmem
      · exact hsent hk id device (List.mem_singleton.1 hmem).symm
    | done he ha' hc hd => exact ha id device (he ▸ List.mem_cons_of_mem _ (ha' ▸ hmem))
    | stopped ha' hc hn =>
      rw [ha'] at hmem
      cases hmem

theorem clearing_of_moves (h : Run (.init settings) ms s) (k : Run s ns t) (hheld : t.held = true)
    (hm : ∀ m ∈ ns, (∀ device, m ≠ .add device) ∧ ∀ op, m ≠ .call c op)
    (hc : Clearing c s ∧ Asking c s) : Clearing c t ∧ Asking c t := by
  induction k generalizing ms with
  | nil => exact hc
  | @cons s u t m ns hs k ih =>
    have hbefore := held_of_run h (.cons hs k) hheld
    obtain ⟨hadd, hcall⟩ := hm m (List.mem_cons_self ..)
    exact ih (h.snoc hs) hheld (fun m' hm' => hm m' (List.mem_cons_of_mem _ hm'))
      ⟨clearing_of_step h hbefore hc.1 hadd hs, asking_of_step h hbefore hc.2 hcall hs⟩

/-! ## Where devices are -/

/-- A device that waits behind a close was handed in late. -/
theorem late_of_behind (h : Run (.init settings) ms s) (hheld : s.held = true)
    {device : DeviceRef} (hb : List.Sublist [.close c, .add id device] s.agenda) :
    HandedInLate (.init settings) ms id := by
  refine h.snocRec (p := fun ms s => s.held = true → ∀ c id device,
    List.Sublist [.close c, .add id device] s.agenda → HandedInLate (.init settings) ms id)
    (fun _ _ _ _ hb => by cases hb) ?_ hheld c id device hb
  intro ms s m t hrun ih hm hheld c id device hb
  have hbefore := held_of_after (settled_of_run hrun) hm hheld
  have hold : List.Sublist [.close c, .add id device] s.agenda →
      HandedInLate (.init settings) (ms ++ [m]) id := fun hb => (ih hbefore c id device hb).append
  cases advance_of_step hrun hbefore hm with
  | same ho he => exact hold (he ▸ hb)
  | @sent k hk ho he =>
    rw [he] at hb
    obtain ⟨l₁, l₂, hl, h₁, h₂⟩ := List.sublist_append_iff.1 hb
    rcases List.sublist_singleton.1 h₂ with rfl | rfl
    · exact hold (by rw [hl, List.append_nil]; exact h₁)
    · have hsplit : [Control.close c] ++ [.add id device] = l₁ ++ [k] := hl
      obtain ⟨rfl, hlast⟩ := List.append_inj' hsplit rfl
      obtain rfl := List.singleton_inj.1 hlast
      rcases hk with ⟨c', op, -, hk⟩ | ⟨device', rfl, hk⟩
      · cases op <;> cases hk
      · obtain ⟨rfl, rfl⟩ := Control.add.inj hk
        exact ⟨ms, [], s, device, rfl, hrun, rfl, .inr ⟨c, List.singleton_sublist.1 h₁⟩⟩
  | done he ha hc hd => exact hold (by rw [he, ← ha]; exact hb.cons _)
  | stopped ha hc hn =>
    rw [ha] at hb
    cases hb

/-- A device that was handed in is on its way, or is listed, or has been closed, unless it
    came too late. -/
theorem place_of_device (h : Run (.init settings) ms s) (ho : s.isOver = false)
    (hp : 0 < id.number) (hle : id.number ≤ s.added) :
    (∃ device, .add id device ∈ s.control) ∨ (∃ k ∈ s.slots, k.id = id) ∨ Reported ms id := by
  rcases (known_of_run h ho).devices id hp hle with hc | hu | hr
  · obtain ⟨n, hn, he⟩ := List.mem_filterMap.1 hc
    cases n with
    | add id' device =>
      obtain rfl : id' = id := by
        cases id'
        cases id
        exact congrArg _ (Option.some.inj he)
      exact .inl ⟨device, hn⟩
    | _ => cases he
  · have hcoh := (settled_of_run h ho).tended.coherent
    exact .inr (.inl (hu.elim (hcoh.closers id) fun ⟨k, hk, he, _⟩ => ⟨k, hk, he⟩))
  · exact .inr (.inr hr)

/-- The move with which the coordinator stops hands in no device. -/
theorem added_of_over (hset : s.isOver = false → Settled s) (hs : s.step m = some t)
    (ho : s.isOver = false) (hover : t.isOver = true) : t.added = s.added := by
  refine added_eq_of_step hset hs ?_
  rintro device rfl
  obtain rfl := step_add hs
  rw [isOver_add, ho] at hover
  cases hover

/-- A coordinator that has ended leaves no device open but those that came too late. -/
theorem reported_of_ended (h : Run (.init settings) ms s) (hheld : s.held = true)
    (hc : s.coordinator = .ended) (hp : 0 < id.number) (hle : id.number ≤ s.added) :
    Reported ms id ∨ HandedInLate (.init settings) ms id := by
  refine h.snocRec (p := fun ms s => s.held = true → s.coordinator = .ended →
    id.number ≤ s.added → Reported ms id ∨ HandedInLate (.init settings) ms id)
    (fun _ hc => by cases hc) ?_ hheld hc hle
  intro ms s m t hrun ih hm hheld hc hle
  have hset := settled_of_run hrun
  have hbefore := held_of_after hset hm hheld
  cases ho : s.isOver with
  | true =>
    rcases step_kinds hm with ⟨-, hopen⟩ | ⟨device, rfl, rfl⟩ | q
    · rw [ho] at hopen
      cases hopen
    · obtain ⟨_, he⟩ := add_parts s device
      rw [he] at hc hle
      by_cases hold : id.number ≤ s.added
      · exact (ih hbefore hc hold).imp .append .append
      · -- the number is that of the device that is refused
        have hid : s.nextId = id := by
          cases id
          simp only [nextId, DeviceId.mk.injEq]
          exact Nat.le_antisymm (Nat.lt_of_not_le hold) hle
        exact .inr ⟨ms, [], s, device, rfl, hrun, hid, .inl ho⟩
    · exact (ih hbefore (q.coordinator ▸ hc) (q.added ▸ hle)).imp .append .append
  | false =>
    have hover : t.isOver = true := by simp [isOver, hc]
    cases advance_of_step hrun hbefore hm with
    | same ho' he => simp [ho', ho] at hover
    | sent hk ho' he => simp [ho', ho] at hover
    | done he ha hc' hd => simp [isOver, hc'] at hover
    | stopped ha hc' hn =>
      obtain ⟨-, c, rest, hagenda⟩ := hc'.resolve_left fun hcrashed => by
        rw [hc] at hcrashed
        cases hcrashed
      have hadded : t.added = s.added := added_of_over hset hm ho hover
      rcases place_of_device hrun ho hp (hadded ▸ hle) with ⟨device, hmem⟩ | ⟨k, hk, rfl⟩ | hr
      · -- all that is still on the way is behind the close
        have hmem' : .add id device ∈ s.agenda := List.mem_append_right _ hmem
        have hb : List.Sublist [.close c, .add id device] s.agenda := by
          rw [hagenda] at hmem' ⊢
          exact .cons_cons _ (List.singleton_sublist.2 ((List.mem_cons.1 hmem').resolve_left (by simp)))
        exact .inr (late_of_behind hrun hbefore hb).append
      · refine .inl ((listed_or_reported (hrun.snoc hm) k.id ?_).resolve_left ?_)
        · rw [hrun.log_snoc hm]
          exact List.mem_append_left _ ((taken_of_run hrun).listed k hk)
        · rintro ⟨l, hl, -⟩
          rw [slots_of_ended (hrun.snoc hm) hc] at hl
          cases hl
      · exact .inl hr.append

/-- Once a shutdown has been answered while no device was handed in, all have been closed but
    those that came too late, or the coordinator has crashed. -/
theorem emptied_of_answered (h : Run (.init settings) ms s) (hheld : s.held = true)
    (hclearing : Clearing c s) (hw : s.awaits c = false) (hg : c ∉ s.gone)
    (hc : s.coordinator ≠ .crashed) : s.slots = [] ∧
      ∀ id : DeviceId, 0 < id.number → id.number ≤ s.added →
        Reported ms id ∨ HandedInLate (.init settings) ms id := by
  cases ho : s.isOver with
  | true =>
    have hended : s.coordinator = .ended := by
      cases hs : s.coordinator <;> simp_all [isOver]
    exact ⟨slots_of_ended h hended, fun id hp hle => reported_of_ended h hheld hended hp hle⟩
  | false =>
    cases hclearing with
    | finished hover => simp [ho] at hover
    | @asked before after ha hl =>
      have hmem : .shutdown c ∈ s.agenda := by simp [ha]
      rcases awaits_of_agenda h hmem rfl with hw' | hg'
      · simp [hw] at hw'
      · exact absurd hg' hg
    | cleared hnil ha =>
      refine ⟨hnil, fun id hp hle => ?_⟩
      rcases place_of_device h ho hp hle with ⟨device, hmem⟩ | ⟨k, hk, -⟩ | hr
      · exact absurd (List.mem_append_right _ hmem) (ha id device)
      · rw [hnil] at hk
        cases hk
      · exact .inl hr

end

end State

end SeamlessTunnel.Multiplexer
