import SeamlessTunnel.Proofs.Multiplexer.Agenda
/-
  SeamlessTunnel.Proofs.Multiplexer.Newest — the device that was handed in last.

  A device that is handed in while no close is on its way becomes the newest, and is active
  then. It stays so until another device is handed in, all are closed, or the coordinator
  crashes (`newest_of_step`). Nor does a device become the newest but by being handed in
  (`Newest.before`).
-/

namespace SeamlessTunnel.Multiplexer

/-- Whether a message leaves the newest device in its place. -/
def Control.spares : Control → Bool
  | .mtu _ | .name _ | .count _ => true
  | .add _ _ | .shutdown _ | .close _ => false

/-- Whether a move sends no message but such. -/
def Move.spares : Move → Bool
  | .call _ .shutdown | .call _ .close | .add _ => false
  | _ => true

namespace State

/-- Whether the multiplexer is about to close for good. -/
def ClosingSoon (s : State) : Prop :=
  ∃ c, .close c ∈ s.agenda

/-- The device is the newest one, active and not about to be closed, or will be when the
    coordinator gets to it. -/
inductive Newest (id : DeviceId) (device : DeviceRef) (s : State) : Prop
  | coming {before after : List Control} (ho : s.isOver = false)
      (ha : s.agenda = before ++ .add id device :: after) (hb : ∀ c, .close c ∉ before)
      (hl : ∀ k ∈ after, k.spares = true)
  | here {k : Slot} (hc : s.coordinator = .serving) (hk : s.slots.getLast? = some k)
      (hid : k.id = id) (hdevice : k.device = device) (hp : k.phase = .active)
      (hopen : k.closing = false) (ha : ∀ k ∈ s.agenda, k.spares = true)

section

variable {s t : State} {m : Move} {id : DeviceId} {device : DeviceRef} {ms : List Move}
  {settings : MultiplexerSettings}

theorem Sends.spares {k : Control} (h : s.Sends m k) (hm : m.spares = true) : k.spares = true := by
  rcases h with ⟨c, op, rfl, hk⟩ | ⟨device, rfl, -⟩
  · cases op <;> cases hk <;> first | rfl | cases hm
  · cases hm

/-- Without a message that asks for a teardown none goes on. -/
theorem serving_of_spares (h : Run (.init settings) ms s) (hheld : s.held = true)
    (ho : s.isOver = false) (ha : ∀ k ∈ s.agenda, k.spares = true) : s.coordinator = .serving := by
  cases hc : s.coordinator with
  | serving => rfl
  | tearingDown cause =>
    have hspares : ∀ k, cause.message? = some k → k.spares = true := fun k hk => by
      refine ha k (List.mem_append_left _ ?_)
      rw [hc]
      exact Option.mem_toList.2 hk
    cases cause with
    | shutdown c => cases hspares _ rfl
    | close c => cases hspares _ rfl
    | released =>
      have hdead : s.hasHandle = false := ((grounded_of_run h).1 ho).teardown _ hc
      simp [hasHandle, hheld] at hdead
  | ended => simp [isOver, hc] at ho
  | crashed => simp [isOver, hc] at ho

theorem newest_add (ho : s.isOver = false) (hc : ¬ s.ClosingSoon) :
    Newest s.nextId device (s.add device).2 := by
  have hagenda : (s.add device).2.agenda = s.agenda ++ .add s.nextId device :: [] := by
    rw [add_eq ho]
    simp [agenda]
  exact .coming ((isOver_add device).trans ho) hagenda (fun c hm => hc ⟨c, hm⟩) (fun _ hk => by cases hk)

/-- A device that is listed last stays so while nothing takes its place. -/
theorem last_of_step (h : Run (.init settings) ms s) (hheld : t.held = true)
    (hs : s.step m = some t) (ho : t.isOver = false) {k : Slot}
    (hk : s.slots.getLast? = some k) (hopen : k.closing = false)
    (ha : ∀ k ∈ s.agenda, k.spares = true) (ha' : ∀ k ∈ t.agenda, k.spares = true) :
    Newest k.id k.device t := by
  have hbefore := isOver_eq_false_of_step hs ho
  have hset := settled_of_run h hbefore
  have hset' := settled_of_run (h.snoc hs) ho
  have hserving := serving_of_spares (h.snoc hs) hheld ho ha'
  have hmem : k ∈ s.slots := List.mem_of_getLast? hk
  have hafter : ∀ k' ∈ t.slots, ∃ k ∈ s.slots, Slot.Later k k' := fun k' hk' => by
    refine (slots_of_step (settled_of_run h) hs k' hk').resolve_right fun hcoming => ?_
    cases ha _ (List.mem_append_right _ hcoming)
  have hunclosed : t.Unclosed k.id := by
    rcases step_kinds hs with ⟨hwork, -⟩ | ⟨device, -, rfl⟩ | q
    · exact (hset.deed hwork hs ho).unclosed hset.tended.coherent hmem hopen
    · obtain ⟨_, he⟩ := add_parts s device
      exact .inr ⟨k, by rw [he]; exact hmem, rfl, hopen⟩
    · exact .inr ⟨k, q.slots ▸ hmem, rfl, hopen⟩
  obtain ⟨k', hk', hid, hdevice⟩ :=
    newest_of_after hset'.tended hserving hset.tended.coherent hafter hk hunclosed
  obtain ⟨hp', hopen'⟩ := hset'.newest hserving hk'
  exact .here hserving hk' hid hdevice hp' hopen' ha'

/-- The newest device stays the newest, unless the coordinator crashes. -/
theorem newest_of_step (h : Run (.init settings) ms s) (hheld : s.held = true)
    (hheld' : t.held = true) (n : Newest id device s) (hm : m.spares = true)
    (hs : s.step m = some t) : t.coordinator = .crashed ∨ Newest id device t := by
  have hadvance := advance_of_step h hheld hs
  cases n with
  | @coming before after hopen ha hb hl =>
    cases hadvance with
    | same ho ha' => exact .inr (.coming (ho.trans hopen) (ha'.trans ha) hb hl)
    | @sent k hk ho ha' =>
      have hagenda : t.agenda = before ++ .add id device :: (after ++ [k]) := by simp [ha', ha]
      refine .inr (.coming (ho.trans hopen) hagenda hb ?_)
      intro k' hk'
      rcases List.mem_append.1 hk' with hk' | hk'
      · exact hl k' hk'
      · rw [List.mem_singleton.1 hk']
        exact hk.spares hm
    | @done k rest hs' ha' hc hd =>
      refine .inr ?_
      rw [ha] at hs'
      cases before with
      | nil =>
        obtain ⟨rfl, rfl⟩ := List.cons.inj hs'
        obtain ⟨l, hlast, hid, hdevice⟩ := hd
        have hset := settled_of_run (h.snoc hs) (by simp [isOver, hc])
        obtain ⟨hp, hopen⟩ := hset.newest hc hlast
        exact .here hc hlast hid hdevice hp hopen (ha' ▸ hl)
      | cons k' before =>
        obtain ⟨rfl, hrest⟩ := List.cons.inj hs'
        exact .coming (by simp [isOver, hc]) (ha'.trans hrest.symm) (fun c hmem => hb c (List.mem_cons_of_mem _ hmem)) hl
    | stopped ha' hc hn =>
      refine hc.imp_right ?_
      rintro ⟨-, c, rest, hclose⟩
      rw [ha] at hclose
      cases before with
      | nil => cases (List.cons.inj hclose).1
      | cons k' before =>
        obtain ⟨rfl, -⟩ := List.cons.inj hclose
        exact absurd (List.mem_cons_self ..) (hb c)
  | @here k hc hk hid hdevice hp hopen ha =>
    subst hid hdevice
    have hbefore : s.isOver = false := by simp [isOver, hc]
    cases hadvance with
    | same ho ha' =>
      exact .inr (last_of_step h hheld' hs (ho.trans hbefore) hk hopen ha (ha' ▸ ha))
    | sent hsent ho ha' =>
      refine .inr (last_of_step h hheld' hs (ho.trans hbefore) hk hopen ha ?_)
      intro k' hk'
      rw [ha'] at hk'
      rcases List.mem_append.1 hk' with hk' | hk'
      · exact ha k' hk'
      · rw [List.mem_singleton.1 hk']
        exact hsent.spares hm
    | done hs' ha' hc' hd =>
      refine .inr (last_of_step h hheld' hs (by simp [isOver, hc']) hk hopen ha ?_)
      intro k' hk'
      refine ha k' ?_
      rw [hs', ← ha']
      exact List.mem_cons_of_mem _ hk'
    | stopped ha' hc' hn =>
      refine hc'.imp_right ?_
      rintro ⟨-, c, rest, hclose⟩
      cases ha (.close c) (hclose ▸ List.mem_cons_self ..)

theorem Newest.isOver (n : Newest id device s) : s.isOver = false := by
  cases n with
  | coming ho ha hb hl => exact ho
  | here hc hk hid hdevice hp hopen ha => simp [State.isOver, hc]

/-! ## Where the newest device comes from -/

theorem not_newest_init : ¬ Newest id device (.init settings) := by
  intro n
  cases n with
  | @coming before after ho ha hb hl =>
    cases before <;> cases ha
  | here hc hk hid hdevice hp hopen ha => cases hk

/-- The newest device comes behind all that it would not be spared by, and never behind a
    close. -/
theorem Newest.behind (n : Newest id device s) {before after : List Control} {k : Control}
    (ha : s.agenda = before ++ k :: after) (hk : k.spares = false) (hne : k ≠ .add id device) :
    .add id device ∈ after ∧ ∀ c, k ≠ .close c := by
  cases n with
  | @coming before' after' ho ha' hb hl =>
    rw [ha] at ha'
    rcases List.append_eq_append_iff.1 ha' with ⟨l, hbefore, hafter⟩ | ⟨l, hbefore, hafter⟩
    · cases l with
      | nil => exact absurd (List.cons.inj hafter).1 hne
      | cons k' l =>
        obtain ⟨rfl, rfl⟩ := List.cons.inj hafter
        exact ⟨by simp, fun c he => hb c (by simp [hbefore, he])⟩
    · cases l with
      | nil => exact absurd (List.cons.inj hafter).1.symm hne
      | cons k' l =>
        obtain ⟨-, rfl⟩ := List.cons.inj hafter
        rw [hl k (by simp)] at hk
        cases hk
  | here hc hlast hid hdevice hp hopen ha' =>
    rw [ha' k (by simp [ha])] at hk
    cases hk

/-- A device is the newest after another was handed in only if it is that one. -/
theorem Newest.of_add {d : DeviceRef} (n : Newest id device (s.add d).2) :
    id = s.nextId ∧ device = d := by
  have ho : s.isOver = false := (isOver_add d).symm.trans n.isOver
  have hagenda : (s.add d).2.agenda = s.agenda ++ .add s.nextId d :: [] := by
    rw [add_eq ho]
    simp [agenda]
  by_contra hne
  refine List.not_mem_nil (n.behind hagenda rfl fun he => hne ?_).1
  obtain ⟨rfl, rfl⟩ := Control.add.inj he
  exact ⟨rfl, rfl⟩

/-- The device that is listed last was so before, unless a device came in. -/
theorem newest_of_last (h : Run (.init settings) ms s) (hheld : s.held = true)
    (hs : s.step m = some t) {k : Slot} (hc : t.coordinator = .serving)
    (hk : t.slots.getLast? = some k) (hp : k.phase = .active)
    (ha : ∀ k ∈ s.agenda, k.spares = true) : Newest k.id k.device s := by
  have hbefore := isOver_eq_false_of_step hs (by simp [isOver, hc])
  have hserving := serving_of_spares h hheld hbefore ha
  have hset := settled_of_run h hbefore
  obtain ⟨l, hl, hlater⟩ := (slots_of_step (settled_of_run h) hs k (List.mem_of_getLast? hk)).resolve_right
    fun hcoming => by cases ha _ (List.mem_append_right _ hcoming)
  have hlast := hset.tended.coherent.last_of_active hl (hlater.active hp)
  obtain ⟨hactive, hopen⟩ := hset.newest hserving hlast
  exact .here hserving hlast hlater.id.symm hlater.device.symm hactive hopen ha

/-- The newest device was the newest before each move that hands in none. -/
theorem Newest.before (n : Newest id device t) (h : Run (.init settings) ms s)
    (hheld : s.held = true) (hm : ∀ d, m ≠ .add d) (hs : s.step m = some t) :
    Newest id device s := by
  have ho := isOver_eq_false_of_step hs n.isOver
  have hadvance := advance_of_step h hheld hs
  have hsent : ∀ {k}, s.Sends m k → k ≠ .add id device := by
    rintro k (⟨c, op, -, hk⟩ | ⟨d, rfl, -⟩) rfl
    · cases op <;> cases hk
    · exact hm d rfl
  cases n with
  | @coming before after ho' ha hb hl =>
    cases hadvance with
    | same _ he => exact .coming ho (he.symm.trans ha) hb hl
    | @sent k hk _ he =>
      rw [he] at ha
      rcases List.eq_nil_or_concat after with rfl | ⟨after, k', rfl⟩
      · exact absurd (List.singleton_inj.1 (List.append_inj_right' ha rfl)) (hsent hk)
      · rw [List.concat_eq_append, ← List.cons_append, ← List.append_assoc] at ha
        exact .coming ho (List.append_inj_left' ha rfl) hb fun k' hk' =>
          hl k' (by simp [hk'])
    | @done k rest hs' ha' hc hd =>
      have hagenda : s.agenda = (k :: before) ++ .add id device :: after := by
        rw [hs', ← ha', ha, List.cons_append]
      refine .coming ho hagenda ?_ hl
      rintro c hmem
      rcases List.mem_cons.1 hmem with rfl | hmem
      · exact hd
      · exact hb c hmem
    | stopped ha' hc hn => simp [ha] at ha'
  | @here k hc hk hid hdevice hp hopen ha =>
    subst hid hdevice
    cases hadvance with
    | same _ he => exact newest_of_last h hheld hs hc hk hp (he ▸ ha)
    | sent _ _ he =>
      exact newest_of_last h hheld hs hc hk hp fun k hk => ha k (he ▸ List.mem_append_left _ hk)
    | @done k' rest hs' ha' hc' hd =>
      cases k' with
      | add id' device' =>
        obtain ⟨l, hl, rfl, rfl⟩ := hd
        obtain rfl := Option.some.inj (hl.symm.trans hk)
        have hagenda : s.agenda = [] ++ .add l.id l.device :: rest := hs'
        exact .coming ho hagenda nofun (ha' ▸ ha)
      | shutdown c =>
        rw [hd.1] at hk
        cases hk
      | close c => exact hd.elim
      | _ =>
        refine newest_of_last h hheld hs hc hk hp fun k hk => ?_
        rw [hs', ← ha'] at hk
        rcases List.mem_cons.1 hk with rfl | hk
        · rfl
        · exact ha k hk
    | stopped ha' hc' hn =>
      rw [hc] at hc'
      rcases hc' with hc' | ⟨hc', -⟩ <;> cases hc'

theorem Newest.before_moves {ns : List Move} (n : Newest id device t)
    (h : Run (.init settings) ms s) (k : Run s ns t) (hheld : t.held = true)
    (hm : ∀ m ∈ ns, ∀ d, m ≠ .add d) : Newest id device s := by
  induction k generalizing ms with
  | nil => exact n
  | @cons s u t m ns hs k ih =>
    have hlater := ih n (h.snoc hs) hheld fun m' hm' => hm m' (List.mem_cons_of_mem _ hm')
    exact hlater.before h (held_of_run h (.cons hs k) hheld) (hm m (List.mem_cons_self ..)) hs

theorem crashed_of_step (hc : s.coordinator = .crashed) (hs : s.step m = some t) :
    t.coordinator = .crashed := by
  rcases step_kinds hs with ⟨-, ho⟩ | ⟨device, -, rfl⟩ | q
  · simp [State.isOver, hc] at ho
  · obtain ⟨_, he⟩ := add_parts s device
    rw [he]
    exact hc
  · exact q.coordinator.trans hc

theorem crashed_of_moves {ns : List Move} (k : Run s ns t) (hc : s.coordinator = .crashed) :
    t.coordinator = .crashed :=
  k.invariant (p := fun t => t.coordinator = .crashed) hc fun _ _ _ hc hs => crashed_of_step hc hs

theorem newest_of_moves (h : Run (.init settings) ms s) {ns : List Move} (k : Run s ns t)
    (hheld : t.held = true) (hm : ∀ m ∈ ns, m.spares = true)
    (n : s.coordinator = .crashed ∨ Newest id device s) :
    t.coordinator = .crashed ∨ Newest id device t := by
  induction k generalizing ms with
  | nil => exact n
  | @cons s u t m ns hs k ih =>
    have hafter := h.snoc hs
    refine ih hafter hheld (fun m' hm' => hm m' (List.mem_cons_of_mem _ hm')) ?_
    rcases n with hc | n
    · exact .inl (crashed_of_step hc hs)
    · exact newest_of_step h (held_of_run h (.cons hs k) hheld) (held_of_run hafter k hheld) n
        (hm m (List.mem_cons_self ..)) hs

end

end State

end SeamlessTunnel.Multiplexer
