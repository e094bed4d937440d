import SeamlessTunnel.Proofs.Manager.Order
import SeamlessTunnel.Proofs.Multiplexer.Clearing
/-
  SeamlessTunnel.Proofs.Manager.Runs — what can be said of a whole run of a manager.

  Jobs keep in order over any run, and the multiplexer of the manager makes a run of its own,
  in which closes return and devices come too late as they do in the manager's
  (`orderly_of_run`).
-/

namespace SeamlessTunnel.Manager

open Multiplexer (Caller DeviceRef)
open Multiplexer.State (Settled)
open State

/-- A run of a manager, with its moves in order. -/
inductive Run (s₀ : State) : List Move → State → Prop
  | nil : Run s₀ [] s₀
  | snoc {ms : List Move} {t u : State} {m : Move} {e : Effects} (h : Run s₀ ms t)
      (ha : t.allows m = true) (hs : t.step m = some (u, e)) : Run s₀ (ms ++ [m]) u

/-- Whether the close of a device has returned. -/
def Reported (ms : List Move) (id : DeviceId) : Prop :=
  ∃ out, .multiplexer (.closeReturned id out) ∈ ms

/-- Whether a device was handed in when the multiplexer was closed or about to close. -/
def HandedInLate (s₀ : State) (ms : List Move) (id : DeviceId) : Prop :=
  ∃ ms₁ m ms₂ u v e, ms = ms₁ ++ m :: ms₂ ∧ Run s₀ ms₁ u ∧ u.step m = some (v, e) ∧
    v.multiplexer.added = u.multiplexer.added + 1 ∧ u.multiplexer.nextId = id ∧
    (u.multiplexer.isOver = true ∨ u.multiplexer.ClosingSoon)

/-- The run that the multiplexer makes in a run of its manager. -/
structure Underlies (s₀ : State) (ms : List Move) (ns : List Multiplexer.Move) (s : State) :
    Prop where
  run : Multiplexer.Run s₀.multiplexer ns s.multiplexer
  returned : ∀ id out, .closeReturned id out ∈ ns → .multiplexer (.closeReturned id out) ∈ ms
  late : ∀ id, Multiplexer.State.HandedInLate s₀.multiplexer ns id → HandedInLate s₀ ms id

section

variable {s₀ s t u : State} {m : Move} {e : Effects} {ms ns : List Move} {id : DeviceId}
  {options : Options}

theorem Run.append (h : Run s ms t) (k : Run t ns u) : Run s (ms ++ ns) u := by
  induction k with
  | nil => simpa using h
  | snoc k ha hs ih =>
    rw [← List.append_assoc]
    exact .snoc ih ha hs

theorem Run.snoc_inv (h : Run s (ms ++ [m]) t) :
    ∃ u e, Run s ms u ∧ u.allows m = true ∧ u.step m = some (t, e) := by
  generalize hl : ms ++ [m] = l at h
  cases h with
  | nil => simp at hl
  | snoc h ha hs =>
    obtain ⟨rfl, hm⟩ := List.append_inj' hl rfl
    obtain rfl := List.singleton_inj.1 hm
    exact ⟨_, _, h, ha, hs⟩

theorem Run.append_inv (h : Run s (ms ++ ns) t) : ∃ u, Run s ms u ∧ Run u ns t := by
  induction ns using List.reverseRecOn generalizing t with
  | nil => exact ⟨t, by simpa using h, .nil⟩
  | append_singleton ns m ih =>
    rw [← List.append_assoc] at h
    obtain ⟨u, e, h, ha, hs⟩ := h.snoc_inv
    obtain ⟨v, hv, k⟩ := ih h
    exact ⟨v, hv, .snoc k ha hs⟩

theorem Run.cons_inv (h : Run s (m :: ms) t) :
    ∃ u e, s.allows m = true ∧ s.step m = some (u, e) ∧ Run u ms t := by
  have hparts : Run s ([] ++ [m] ++ ms) t := h
  obtain ⟨u, hm, k⟩ := hparts.append_inv
  obtain ⟨v, e, hnil, ha, hs⟩ := hm.snoc_inv
  generalize hl : ([] : List Move) = l at hnil
  cases hnil with
  | nil => exact ⟨u, e, ha, hs, k⟩
  | snoc _ _ _ => simp at hl

theorem Run.unique (h : Run s ms t) (h' : Run s ms u) : t = u := by
  induction h generalizing u with
  | nil =>
    generalize hl : ([] : List Move) = l at h'
    cases h' with
    | nil => rfl
    | snoc h ha hs => simp at hl
  | snoc h ha hs ih =>
    obtain ⟨v, e, hv, -, hs'⟩ := h'.snoc_inv
    obtain rfl := ih hv
    exact congrArg Prod.fst (Option.some.inj (hs.symm.trans hs'))

/-- A run goes on from where one of its parts ends. -/
theorem Run.split (h : Run s (ms ++ m :: ns) t) (hu : Run s ms u) :
    ∃ v e, u.allows m = true ∧ u.step m = some (v, e) ∧ Run v ns t := by
  obtain ⟨u', hu', k⟩ := h.append_inv
  obtain rfl := hu'.unique hu
  exact k.cons_inv

/-- Makes moves in turn. -/
def State.play : State → List Move → Option State
  | s, [] => some s
  | s, m :: ms => if s.allows m then (s.step m).bind fun x => x.1.play ms else none

theorem Run.of_play (h : s.play ms = some t) : Run s ms t := by
  induction ms generalizing s with
  | nil =>
    obtain rfl := Option.some.inj h
    exact .nil
  | cons m ms ih =>
    unfold State.play at h
    split at h
    · rename_i ha
      obtain ⟨⟨u, e⟩, hs, h⟩ := Option.bind_eq_some_iff.1 h
      exact Run.append (.snoc .nil ha hs) (ih h)
    · cases h

theorem Reported.append (h : Reported ms id) : Reported (ms ++ ns) id := by
  obtain ⟨out, h⟩ := h
  exact ⟨out, List.mem_append_left _ h⟩

theorem HandedInLate.append (h : HandedInLate s₀ ms id) : HandedInLate s₀ (ms ++ ns) id := by
  obtain ⟨ms₁, m, ms₂, u, v, e, rfl, hu⟩ := h
  exact ⟨ms₁, m, ms₂ ++ ns, u, v, e, by simp, hu⟩

theorem start_eq (h : Manager.start options = .ok s₀) :
    Multiplexer.start options.multiplexer = .ok s₀.multiplexer ∧
      s₀ = { options, multiplexer := s₀.multiplexer } := by
  unfold Manager.start at h
  split at h
  · cases h
  · split at h
    · cases h
    · cases h
    · rename_i hm
      obtain rfl := Except.ok.inj h
      exact ⟨hm, rfl⟩

theorem multiplexer_start (h : Manager.start options = .ok s₀) :
    s₀.multiplexer = .init options.multiplexer :=
  (Multiplexer.State.start_eq (start_eq h).1).1

theorem Orderly.start (h : Manager.start options = .ok s₀) : Orderly s₀ := by
  obtain ⟨-, he⟩ := start_eq h
  have hheld : s₀.multiplexer.held = true := by rw [multiplexer_start h]; rfl
  rw [he]
  exact ⟨hheld, List.nodup_nil, nofun, nofun, nofun, nofun, nofun⟩

/-! ## The multiplexer's run -/

theorem Begins.multiplexer {c : Caller} {p : Platform} {j : Job} {pre : List Multiplexer.Move}
    (b : Begins s c m p j pre u) :
    ∃ calls events, u.multiplexer = { s.multiplexer with calls, events } := by
  cases b with
  | enter hj hh hs => exact ⟨_, _, rfl⟩
  | resume hj hs hl =>
    obtain ⟨a, ha, -⟩ := Multiplexer.State.leave_cases hl
    obtain ⟨calls, events, he⟩ := Multiplexer.State.leave_eq ha
    exact ⟨calls, events, (Option.some.inj (he.symm.trans hl)).symm⟩

/-- A device is handed in last of all that a move does. -/
theorem Begins.before {c : Caller} {p : Platform} {j : Job}
    {pre ns₁ ns₂ : List Multiplexer.Move} {device device' : DeviceRef}
    (b : Begins s c m p j pre u) (h : pre ++ [.add device] = ns₁ ++ .add device' :: ns₂) :
    ns₁ = pre := by
  cases b with
  | enter hj hh hs =>
    cases ns₁ with
    | nil => rfl
    | cons n ns₁ => simp at h
  | resume hj hs hl =>
    match ns₁, h with
    | [], h => simp at h
    | [n], h => rw [(List.cons.inj h).1]
    | _ :: _ :: _, h => simp at h

theorem Deed.late {mux : List Multiplexer.Move} (d : Deed s m mux t e) (ha : s.allows m = true)
    (hl : Multiplexer.State.HandedInLate s.multiplexer mux id) :
    t.multiplexer.added = s.multiplexer.added + 1 ∧ s.multiplexer.nextId = id ∧
      (s.multiplexer.isOver = true ∨ s.multiplexer.ClosingSoon) := by
  obtain ⟨ns₁, ns₂, w, device, he, hw, hid, hlate⟩ := hl
  have hbuilt : ∀ {c p j pre u device'} {t : State}, Begins s c m p j pre u →
      pre ++ [.add device'] = ns₁ ++ .add device :: ns₂ →
      t.multiplexer = (u.multiplexer.add device').2 →
      t.multiplexer.added = s.multiplexer.added + 1 ∧ s.multiplexer.nextId = id ∧
        (s.multiplexer.isOver = true ∨ s.multiplexer.ClosingSoon) := by
    intro c p j pre u device' t b he ht
    obtain rfl := b.before he
    obtain rfl := hw.unique b.run
    obtain ⟨_, hadd⟩ := Multiplexer.State.add_parts u.multiplexer device'
    obtain ⟨_, _, hu⟩ := b.multiplexer
    rw [hu] at hid hlate
    exact ⟨by rw [ht, hadd, hu], hid, hlate⟩
  have hmem : .add device ∈ mux := by simp [he]
  cases d with
  | attaches b ht hb haddr ho => exact hbuilt b he (by simp)
  | refused b ht hb ho => exact hbuilt b he rfl
  | asks b hasks hs =>
    cases b <;> simp at hmem
  | fails b ht hb hf =>
    cases b <;> simp at hmem
  | engine hs =>
    obtain rfl := List.mem_singleton.1 hmem
    cases ha
  | _ => simp at hmem

theorem Deed.returned {mux : List Multiplexer.Move} {out : Outcome Unit}
    (d : Deed s m mux t e) (hmem : .closeReturned id out ∈ mux) :
    m = .multiplexer (.closeReturned id out) := by
  cases d with
  | engine hs => exact congrArg _ (List.mem_singleton.1 hmem).symm
  | asks b ha hs => cases b <;> simp at hmem
  | fails b ht hb hf => cases b <;> simp at hmem
  | attaches b ht hb haddr ho => cases b <;> simp at hmem
  | refused b ht hb ho => cases b <;> simp at hmem
  | _ => simp at hmem

theorem orderly_of_run (hstart : Manager.start options = .ok s₀) (h : Run s₀ ms s) :
    Orderly s ∧ ∃ ns, Underlies s₀ ms ns s := by
  have hinit := multiplexer_start hstart
  induction h with
  | nil => exact ⟨.start hstart, [], .nil _, nofun, fun _ hl => by
      obtain ⟨ns₁, _, _, _, he, -⟩ := hl
      cases ns₁ <;> cases he⟩
  | @snoc ms s t m e h ha hs ih =>
    obtain ⟨hord, ns, hu⟩ := ih
    obtain ⟨ns', d⟩ := deed_of_step hord hs
    have hrun := d.run hord
    have hset : s.multiplexer.isOver = false → Settled s.multiplexer :=
      Multiplexer.State.settled_of_run (hinit ▸ hu.run)
    refine ⟨hord.of_deed hset ha d, ns ++ ns', hu.run.append hrun, ?_, ?_⟩
    · intro id out hout
      rcases List.mem_append.1 hout with hout | hout
      · exact List.mem_append_left _ (hu.returned id out hout)
      · exact List.mem_append_right _ (d.returned hout ▸ List.mem_singleton_self _)
    · intro id hl
      rcases hl.append_inv hu.run with hl | hl
      · exact (hu.late id hl).append
      · exact ⟨ms, m, [], s, t, e, rfl, h, hs, d.late ha hl⟩

theorem multiplexer_run (hstart : Manager.start options = .ok s₀) (h : Run s₀ ms s) :
    ∃ ns, Multiplexer.Run (.init options.multiplexer) ns s.multiplexer := by
  obtain ⟨-, ns, hu⟩ := orderly_of_run hstart h
  have hrun := hu.run
  rw [multiplexer_start hstart] at hrun
  exact ⟨ns, hrun⟩

/-- Each step of a run is a deed that keeps the order, after a run of the multiplexer. -/
theorem deed_of_run (hstart : Manager.start options = .ok s₀) (h : Run s₀ ms s)
    (ha : s.allows m = true) (hs : s.step m = some (t, e)) : Orderly s ∧ Orderly t ∧
      (∃ mux, Deed s m mux t e) ∧
      ∃ ns, Multiplexer.Run (.init options.multiplexer) ns s.multiplexer := by
  have hord := (orderly_of_run hstart h).1
  exact ⟨hord, (orderly_of_run hstart (.snoc h ha hs)).1, deed_of_step hord hs,
    multiplexer_run hstart h⟩

end

end SeamlessTunnel.Manager
