import Mathlib.Data.List.Nodup
import SeamlessTunnel.Multiplexer.Step
/-
  SeamlessTunnel.Proofs.Multiplexer.Calls — calls and their answers.

  Answering changes calls and nothing else. A caller that is answered no longer waits, all
  others wait as before (`awaits_answer`, `awaits_refuse`), and what it may take is the
  answer it was given (`answer?_answer_self`).
-/

namespace SeamlessTunnel.Multiplexer.State

variable {s : State} {c d : Caller} {a : Answer} {cs : List Caller}

/-! ## What answering leaves alone -/

@[simp] theorem reads_answer : (s.answer c a).reads = s.reads := rfl
@[simp] theorem reader_answer : (s.answer c a).reader = s.reader := rfl
@[simp] theorem held_answer : (s.answer c a).held = s.held := rfl

@[simp] theorem refuse_nil : s.refuse [] = s := rfl

theorem refuse_cons : s.refuse (c :: cs) = (s.answer c (.failed .closed)).refuse cs := rfl

/-- What holds of a state and after every answer holds after a refusal. -/
theorem refuse_rec {p : State → Prop} (h : p s)
    (step : ∀ s c, p s → p (s.answer c (.failed .closed))) : p (s.refuse cs) := by
  induction cs generalizing s with
  | nil => exact h
  | cons c cs ih => exact ih (step s c h)

@[simp] theorem slots_refuse : (s.refuse cs).slots = s.slots :=
  refuse_rec (p := (·.slots = s.slots)) rfl fun _ _ h => h
@[simp] theorem reads_refuse : (s.refuse cs).reads = s.reads :=
  refuse_rec (p := (·.reads = s.reads)) rfl fun _ _ h => h
@[simp] theorem writes_refuse : (s.refuse cs).writes = s.writes :=
  refuse_rec (p := (·.writes = s.writes)) rfl fun _ _ h => h
@[simp] theorem control_refuse : (s.refuse cs).control = s.control :=
  refuse_rec (p := (·.control = s.control)) rfl fun _ _ h => h
@[simp] theorem parked_refuse : (s.refuse cs).parked = s.parked :=
  refuse_rec (p := (·.parked = s.parked)) rfl fun _ _ h => h
@[simp] theorem reader_refuse : (s.refuse cs).reader = s.reader :=
  refuse_rec (p := (·.reader = s.reader)) rfl fun _ _ h => h
@[simp] theorem writer_refuse : (s.refuse cs).writer = s.writer :=
  refuse_rec (p := (·.writer = s.writer)) rfl fun _ _ h => h
@[simp] theorem closers_refuse : (s.refuse cs).closers = s.closers :=
  refuse_rec (p := (·.closers = s.closers)) rfl fun _ _ h => h
@[simp] theorem queries_refuse : (s.refuse cs).queries = s.queries :=
  refuse_rec (p := (·.queries = s.queries)) rfl fun _ _ h => h
@[simp] theorem listeners_refuse : (s.refuse cs).listeners = s.listeners :=
  refuse_rec (p := (·.listeners = s.listeners)) rfl fun _ _ h => h
@[simp] theorem coordinator_refuse : (s.refuse cs).coordinator = s.coordinator :=
  refuse_rec (p := (·.coordinator = s.coordinator)) rfl fun _ _ h => h
@[simp] theorem added_refuse : (s.refuse cs).added = s.added :=
  refuse_rec (p := (·.added = s.added)) rfl fun _ _ h => h
@[simp] theorem gone_refuse : (s.refuse cs).gone = s.gone :=
  refuse_rec (p := (·.gone = s.gone)) rfl fun _ _ h => h
@[simp] theorem held_refuse : (s.refuse cs).held = s.held :=
  refuse_rec (p := (·.held = s.held)) rfl fun _ _ h => h

/-- Refusals change calls only. -/
theorem refuse_eq (s : State) (cs : List Caller) : ∃ calls, s.refuse cs = { s with calls } :=
  refuse_rec (p := fun t => ∃ calls, t = { s with calls }) ⟨s.calls, rfl⟩ fun t c ⟨calls, h⟩ => by
    rw [h]
    exact ⟨_, rfl⟩

/-- Refusals look at calls only. -/
theorem calls_refuse {t : State} (h : t.calls = s.calls) :
    (t.refuse cs).calls = (s.refuse cs).calls := by
  induction cs generalizing s t with
  | nil => exact h
  | cons c cs ih =>
    rw [refuse_cons, refuse_cons]
    refine ih ?_
    rw [answer, answer, h]

@[simp] theorem reads_shutReads : s.shutReads.reads = s.reads.shut := by
  simp [shutReads]

@[simp] theorem writes_shutReads : s.shutReads.writes = s.writes := by
  simp [shutReads]

@[simp] theorem reads_shutWrites : s.shutWrites.reads = s.reads := by
  simp [shutWrites]

@[simp] theorem writes_shutWrites : s.shutWrites.writes = s.writes.shut := by
  simp [shutWrites]

/-! ## Callers -/

/-- Those who have made a call and not taken its answer. -/
def callers (s : State) : List Caller :=
  s.calls.map (·.caller)

@[simp] theorem callers_answer : (s.answer c a).callers = s.callers := by
  simp only [callers, answer, List.map_map]
  refine List.map_congr_left ?_
  intro k _
  simp only [Function.comp]
  split <;> rfl

@[simp] theorem callers_refuse : (s.refuse cs).callers = s.callers :=
  refuse_rec (p := (·.callers = s.callers)) rfl fun _ _ h => callers_answer.trans h

theorem hasHandle_eq : s.hasHandle = (s.held || !s.callers.isEmpty) := by
  simp [hasHandle, callers]

@[simp] theorem hasHandle_answer : (s.answer c a).hasHandle = s.hasHandle := by
  simp [hasHandle_eq]

@[simp] theorem hasHandle_refuse : (s.refuse cs).hasHandle = s.hasHandle := by
  simp [hasHandle_eq]

/-! ## Waiting -/

theorem awaits_iff : s.awaits c = true ↔ ∃ k ∈ s.calls, k.caller = c ∧ k.answer = none := by
  simp [awaits]

theorem mem_callers_of_awaits (h : s.awaits c = true) : c ∈ s.callers := by
  obtain ⟨k, hk, hc, -⟩ := awaits_iff.1 h
  exact List.mem_map.2 ⟨k, hk, hc⟩

theorem awaits_answer :
    (s.answer c a).awaits d = true ↔ s.awaits d = true ∧ d ≠ c := by
  simp only [awaits_iff, answer, List.mem_map]
  constructor
  · rintro ⟨_, ⟨k, hk, rfl⟩, hd, hn⟩
    split at hd
    · rename_i hc
      rw [if_pos hc] at hn
      cases hn
    · rename_i hc
      rw [if_neg hc] at hn
      refine ⟨⟨k, hk, hd, hn⟩, ?_⟩
      rintro rfl
      simp [hd, hn] at hc
  · rintro ⟨⟨k, hk, hd, hn⟩, hne⟩
    have hc : ¬ (decide (k.caller = c) && k.answer.isNone) = true := by
      simp [hd, hne]
    exact ⟨k, ⟨k, hk, if_neg hc⟩, hd, hn⟩

theorem awaits_refuse :
    (s.refuse cs).awaits d = true ↔ s.awaits d = true ∧ d ∉ cs := by
  induction cs generalizing s with
  | nil => simp
  | cons c cs ih =>
    rw [refuse_cons, ih, awaits_answer, List.mem_cons, not_or, and_assoc]

/-! ## Answers -/

theorem find?_calls_answer : (s.answer c a).calls.find? (fun k => decide (k.caller = d)) =
    (s.calls.find? fun k => decide (k.caller = d)).map fun k =>
      if k.caller = c && k.answer.isNone then { k with answer := some a } else k := by
  have hp : ((fun k : Call => decide (k.caller = d)) ∘ fun k =>
      if k.caller = c && k.answer.isNone then { k with answer := some a } else k) =
      fun k => decide (k.caller = d) := by
    funext k
    simp only [Function.comp]
    split <;> rfl
  rw [answer, List.find?_map, hp]

theorem answer?_answer_of_ne (h : d ≠ c) : (s.answer c a).answer? d = s.answer? d := by
  rw [answer?, answer?, find?_calls_answer]
  cases hf : s.calls.find? fun k => decide (k.caller = d) with
  | none => rfl
  | some k =>
    have hk : k.caller = d := by simpa using List.find?_some hf
    simp [hk, h]

/-- An answer that is there stays. -/
theorem answer?_answer_of_some {b : Answer} (h : s.answer? d = some b) :
    (s.answer c a).answer? d = some b := by
  rw [answer?] at h
  rw [answer?, find?_calls_answer]
  cases hf : s.calls.find? fun k => decide (k.caller = d) with
  | none => simp [hf] at h
  | some k =>
    have hk : k.answer = some b := by simpa [hf] using h
    simp [hk]

theorem answer?_refuse_of_some {b : Answer} (h : s.answer? d = some b) :
    (s.refuse cs).answer? d = some b :=
  refuse_rec (p := (·.answer? d = some b)) h fun _ _ h => answer?_answer_of_some h

theorem answer?_eq_none_of_not_mem (h : c ∉ s.callers) : s.answer? c = none := by
  have hf : s.calls.find? (fun k => decide (k.caller = c)) = none := by
    rw [List.find?_eq_none]
    intro k hk hc
    exact h (List.mem_map.2 ⟨k, hk, of_decide_eq_true hc⟩)
  simp [answer?, hf]

/-- With one call a caller, what a caller may take is the answer of its call. -/
theorem answer?_of_mem (hu : s.callers.Nodup) {k : Call} (hk : k ∈ s.calls) :
    s.answer? k.caller = k.answer := by
  cases hf : s.calls.find? fun k' => decide (k'.caller = k.caller) with
  | none => exact absurd (decide_eq_true rfl) (List.find?_eq_none.1 hf k hk)
  | some k' =>
    have hk' : k'.caller = k.caller := by simpa using List.find?_some hf
    have heq : k' = k := List.inj_on_of_nodup_map hu (List.mem_of_find?_eq_some hf) hk hk'
    subst heq
    simp [answer?, hf]

theorem answer?_eq_none_of_awaits (hu : s.callers.Nodup) (h : s.awaits c = true) :
    s.answer? c = none := by
  obtain ⟨k, hk, rfl, hn⟩ := awaits_iff.1 h
  rw [answer?_of_mem hu hk, hn]

theorem answer?_answer_self (hu : s.callers.Nodup) (h : s.awaits c = true) :
    (s.answer c a).answer? c = some a := by
  obtain ⟨k, hk, rfl, hn⟩ := awaits_iff.1 h
  have hmem : ({ k with answer := some a } : Call) ∈ (s.answer k.caller a).calls := by
    refine List.mem_map.2 ⟨k, hk, ?_⟩
    simp [hn]
  have hu' : (s.answer k.caller a).callers.Nodup := by rwa [callers_answer]
  exact answer?_of_mem hu' hmem

theorem answer?_refuse_of_mem (hu : s.callers.Nodup) (h : s.awaits c = true) (hc : c ∈ cs) :
    (s.refuse cs).answer? c = some (.failed .closed) := by
  induction cs generalizing s with
  | nil => cases hc
  | cons d cs ih =>
    rw [refuse_cons]
    by_cases hd : c = d
    · subst hd
      exact answer?_refuse_of_some (answer?_answer_self hu h)
    · exact ih (by rwa [callers_answer]) (awaits_answer.2 ⟨h, hd⟩)
        ((List.mem_cons.1 hc).resolve_left hd)

end SeamlessTunnel.Multiplexer.State
