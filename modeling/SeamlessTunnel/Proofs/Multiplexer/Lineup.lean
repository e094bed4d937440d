import SeamlessTunnel.Proofs.Multiplexer.Messages
import SeamlessTunnel.Proofs.Multiplexer.Newest
/-
  SeamlessTunnel.Proofs.Multiplexer.Lineup — which device the messages leave as the newest.

  Of a sequence of messages the latest device counts, unless a shutdown came behind it
  (`newestOf`). The list of devices bears that out: whatever is closed, retired and pruned
  meanwhile, while the coordinator serves the last device on its list is the one that the
  messages taken up so far leave as the newest (`lineup_of_run`).
-/

namespace SeamlessTunnel.Multiplexer

/-- The newest device after one more message. -/
def newestAfter (newest : Option (DeviceId × DeviceRef)) : Control → Option (DeviceId × DeviceRef)
  | .add id device => some (id, device)
  | .shutdown _ | .close _ => none
  | .mtu _ | .name _ | .count _ => newest

/-- The device that a sequence of messages leaves as the newest. -/
def newestOf (ks : List Control) : Option (DeviceId × DeviceRef) :=
  ks.foldl newestAfter none

/-- Whether messages, none of them a close, leave this as the newest device. -/
def Leaves (ks : List Control) (newest : Option (DeviceId × DeviceRef)) : Prop :=
  newestOf ks = newest ∧ ∀ c, .close c ∉ ks

section

variable {k : Control} {ks after : List Control} {newest : Option (DeviceId × DeviceRef)}
variable {id : DeviceId} {device : DeviceRef}

theorem newestAfter_of_spares (h : k.spares = true) : newestAfter newest k = newest := by
  cases k <;> first | rfl | cases h

theorem newestOf_snoc : newestOf (ks ++ [k]) = newestAfter (newestOf ks) k := by
  rw [newestOf, List.foldl_append]
  rfl

theorem newestOf_append (h : ∀ k ∈ after, k.spares = true) : newestOf (ks ++ after) = newestOf ks := by
  induction after using List.reverseRecOn with
  | nil => rw [List.append_nil]
  | append_singleton after k ih =>
    rw [← List.append_assoc, newestOf_snoc, newestAfter_of_spares (h k (by simp)),
      ih fun k' hk' => h k' (List.mem_append_left _ hk')]

theorem newestOf_append_eq_none (h : newestOf ks = none)
    (ha : ∀ k ∈ after, ∀ id device, k ≠ .add id device) : newestOf (ks ++ after) = none := by
  induction after using List.reverseRecOn with
  | nil => rwa [List.append_nil]
  | append_singleton after k ih =>
    rw [← List.append_assoc, newestOf_snoc, ih fun k' hk' => ha k' (List.mem_append_left _ hk')]
    cases k with
    | add id device => exact absurd rfl (ha _ (by simp) id device)
    | _ => rfl

theorem Leaves.snoc (h : Leaves ks newest) (hopen : ∀ c, k ≠ .close c) :
    Leaves (ks ++ [k]) (newestAfter newest k) := by
  refine ⟨by rw [newestOf_snoc, h.1], fun c hmem => ?_⟩
  rcases List.mem_append.1 hmem with hmem | hmem
  · exact h.2 c hmem
  · exact hopen c (List.mem_singleton.1 hmem).symm

end

namespace State

/-- The last device on the list. -/
def newest? (s : State) : Option (DeviceId × DeviceRef) :=
  s.slots.getLast?.map fun k => (k.id, k.device)

/-- What the list of devices has to do with the messages that were taken up. -/
structure Lineup (taken : List Control) (s : State) : Prop where
  serving : s.coordinator = .serving → Leaves taken s.newest?
  clearing : ∀ c, s.coordinator = .tearingDown (.shutdown c) → Leaves taken none
  begun : ∀ cause k, s.coordinator = .tearingDown cause → cause.message? = some k → k ∈ taken

section

variable {s t u : State} {m : Move} {k : Control} {taken : List Control} {ms : List Move}
variable {cause : Teardown} {settings : MultiplexerSettings}

/-! ## Moves -/

theorem newest?_congr (h : t.slots = s.slots) : t.newest? = s.newest? := by
  rw [newest?, newest?, h]

theorem newest?_eq_none : s.newest? = none ↔ s.slots = [] := by
  rw [newest?, Option.map_eq_none_iff, List.getLast?_eq_none_iff]

theorem Lineup.of_stopped (h : t.coordinator = .crashed ∨ t.coordinator = .ended) :
    Lineup taken t := by
  constructor
  · intro hc
    rcases h with h | h <;> cases h.symm.trans hc
  · intro c hc
    rcases h with h | h <;> cases h.symm.trans hc
  · intro cause k hc
    rcases h with h | h <;> cases h.symm.trans hc

theorem Lineup.congr (l : Lineup taken s) (hc : t.coordinator = s.coordinator)
    (hn : t.coordinator = .serving → t.newest? = s.newest?) : Lineup taken t where
  serving h := (hn h).symm ▸ l.serving (hc.symm.trans h)
  clearing c h := l.clearing c (hc.symm.trans h)
  begun cause k h := l.begun cause k (hc.symm.trans h)

/-- A teardown that ends leaves no device. -/
theorem Lineup.settleTeardown (l : Lineup taken s) : Lineup taken s.settleTeardown := by
  rcases settleTeardown_cases s with ⟨he, -⟩ | ⟨cause, hc, hnil, he⟩
  · rwa [he]
  · rw [he]
    cases cause with
    | shutdown c =>
      obtain ⟨_, hend⟩ := endShutdown_eq s c
      have hempty : (s.endTeardown (.shutdown c)).newest? = none := by
        rw [newest?_eq_none, hend]
        exact hnil
      have hserving : (s.endTeardown (.shutdown c)).coordinator = .serving :=
        coordinator_endTeardown _
      exact
        { serving := fun _ => hempty.symm ▸ l.clearing c hc
          clearing := fun d hd => by cases hserving.symm.trans hd
          begun := fun cause k hd => by cases hserving.symm.trans hd }
    | close c => exact .of_stopped (.inr (coordinator_endTeardown _))
    | released => exact .of_stopped (.inr (coordinator_endTeardown _))

/-- A message that asks for a teardown leaves no device as the newest. -/
theorem Lineup.closeAll {rest : List Control} (l : Lineup taken s) (cause : Teardown)
    (hserving : s.coordinator = .serving) (hk : cause.message? = some k) :
    Lineup (taken ++ [k]) (State.closeAll { s with control := rest } cause) := by
  have hc := coordinator_closeAll (s := { s with control := rest }) cause
  constructor
  · intro h
    cases hc.symm.trans h
  · intro c h
    obtain rfl := Coordinator.tearingDown.inj (hc.symm.trans h)
    obtain rfl := Option.some.inj hk
    exact (l.serving hserving).snoc fun c hc => by cases hc
  · intro cause' k' h hk'
    obtain rfl := Coordinator.tearingDown.inj (hc.symm.trans h)
    obtain rfl := Option.some.inj (hk.symm.trans hk')
    exact List.mem_append_right _ (List.mem_singleton_self _)

/-- A message that asks for no teardown leaves the last device on the list in accord. -/
theorem Lineup.snoc (l : Lineup taken s) (hserving : s.coordinator = .serving)
    (hopen : ∀ c, k ≠ .close c) (hc : t.coordinator = .serving)
    (hn : t.newest? = newestAfter s.newest? k) : Lineup (taken ++ [k]) t where
  serving _ := hn.symm ▸ (l.serving hserving).snoc hopen
  clearing c h := by cases hc.symm.trans h
  begun cause k h := by cases hc.symm.trans h

theorem Settled.lineup_control (h : Settled s) (l : Lineup taken s) (hs : s.takeControl = some t) :
    Lineup (taken ++ takenMessages s .control t) t := by
  obtain ⟨hserving, ⟨k, rest, hm, rfl⟩ | ⟨hm, -, rfl⟩⟩ := takeControl_cases hs
  · have htaken : takenMessages s .control ({ s with control := rest }.handle k) = [k] := by
      rw [takenMessages, hm]
      rfl
    have hquery : ∀ {c : Caller} {question : Question} {default : Answer},
        (State.query { s with control := rest } c question default).newest? = s.newest? :=
      newest?_congr Quiet.query.slots
    rw [htaken]
    cases k with
    | add id device =>
      refine l.snoc hserving (fun c hc => by cases hc) ((coordinator_addSlot _ id device).trans hserving) ?_
      obtain ⟨k, hk, rfl, rfl⟩ := h.done_addSlot hm hserving
      rw [newest?, handle, hk]
      rfl
    | mtu c => exact l.snoc hserving (fun c hc => by cases hc) (coordinator_query.trans hserving) hquery
    | name c => exact l.snoc hserving (fun c hc => by cases hc) (coordinator_query.trans hserving) hquery
    | count c => exact l.snoc hserving (fun c hc => by cases hc) hserving rfl
    | shutdown c => exact (l.closeAll (.shutdown c) hserving rfl).settleTeardown
    | close c => exact (l.closeAll (.close c) hserving rfl).settleTeardown
  · have htaken : takenMessages s .control (s.beginTeardown .released) = [] := by
      rw [takenMessages, hm]
      rfl
    have hc := coordinator_closeAll (s := s) .released
    rw [htaken, List.append_nil]
    refine Lineup.settleTeardown ⟨fun h => ?_, fun c h => ?_, fun cause k h hk => ?_⟩
    · cases hc.symm.trans h
    · cases hc.symm.trans h
    · obtain rfl := Coordinator.tearingDown.inj (hc.symm.trans h)
      cases hk

/-- A task that is joined takes no device away that is not being closed. -/
theorem Settled.newest?_of_join (h : Settled s) (j : Joined s m u) (hm : m.isWork = true)
    (hs : s.step m = some u.settleTeardown) (hc : u.coordinator = .serving)
    (hserving : s.coordinator = .serving) : u.newest? = s.newest? := by
  have hcoh := h.tended.coherent
  cases hk : s.slots.getLast? with
  | none =>
    rw [newest?_eq_none.2 (List.getLast?_eq_none_iff.1 hk), newest?_eq_none]
    refine List.eq_nil_iff_forall_not_mem.2 fun k' hk' => ?_
    obtain ⟨k, hmem, -⟩ := j.after k' hk'
    rw [List.getLast?_eq_none_iff.1 hk] at hmem
    cases hmem
  | some k =>
    have hmem : k ∈ s.slots := List.mem_of_getLast? hk
    have he : u.settleTeardown = u := by rw [State.settleTeardown, hc]
    rw [he] at hs
    have hunclosed := (h.deed hm hs (by simp [isOver, hc])).unclosed hcoh hmem
      (h.newest hserving hk).2
    obtain ⟨k', hk', hid, hdevice⟩ := newest_of_after j.tended hc hcoh j.after hk hunclosed
    rw [newest?, newest?, hk', hk, Option.map_some, Option.map_some, hid, hdevice]

theorem Lineup.step (l : Lineup taken s) (hset : s.isOver = false → Settled s)
    (hs : s.step m = some t) : Lineup (taken ++ takenMessages s m t) t := by
  by_cases hcontrol : m = .control
  · subst hcontrol
    exact (hset (isOver_of_isWork rfl hs)).lineup_control l hs
  rw [takenMessages_eq_nil hcontrol, List.append_nil]
  cases hm : m.isWork with
  | true =>
    have h := hset (isOver_of_isWork hm hs)
    rcases h.joined hm hcontrol hs with rfl | ⟨u, j, rfl⟩
    · exact .of_stopped (.inl (coordinator_crash s))
    · obtain ⟨_, _, _, _, _, _, _, _, hu⟩ := j.handled.eq
      have hc : u.coordinator = s.coordinator := by rw [hu]
      exact (l.congr hc fun hserving => h.newest?_of_join j hm hs hserving
        (hc.symm.trans hserving)).settleTeardown
  | false =>
    obtain ⟨hc, hslots⟩ := records_of_step hm hs
    exact l.congr hc fun _ => newest?_congr hslots

/-- While the coordinator serves, the last device on its list is the one that the messages
    taken up leave as the newest. -/
theorem lineup_of_run (h : Run (.init settings) ms s) :
    Lineup ((State.init settings).log takenMessages ms) s := by
  refine h.snocRec (p := fun ms s => Lineup ((State.init settings).log takenMessages ms) s) ?_ ?_
  · exact
      { serving := fun _ => ⟨rfl, fun c hm => by cases hm⟩
        clearing := fun c hc => by cases hc
        begun := fun cause k hc => by cases hc }
  · intro ms s m t hrun ih hm
    rw [hrun.log_snoc hm]
    exact ih.step (settled_of_run hrun) hm

end

end State

end SeamlessTunnel.Multiplexer
