import Mathlib.Data.List.Induction
import SeamlessTunnel.Multiplexer.Step
/-
  SeamlessTunnel.Proofs.Multiplexer.Runs — what can be said of a whole run.

  `Run.snocRec` proves a property of runs move by move, each move being the last of the run
  so far. `log` collects what the moves of a run show; it grows at its end
  (`Run.log_snoc`).
-/

namespace SeamlessTunnel.Multiplexer

theorem Run.snoc {s t u : State} {ms : List Move} {m : Move} (h : Run s ms t)
    (hm : t.step m = some u) : Run s (ms ++ [m]) u :=
  h.append (.cons hm (.nil u))

theorem Run.snoc_inv {s u : State} {ms : List Move} {m : Move} (h : Run s (ms ++ [m]) u) :
    ∃ t, Run s ms t ∧ t.step m = some u := by
  induction ms generalizing s with
  | nil =>
    cases h with
    | cons hm h =>
      cases h
      exact ⟨s, .nil s, hm⟩
  | cons m' ms ih =>
    cases h with
    | cons hm h =>
      obtain ⟨t, ht, hu⟩ := ih h
      exact ⟨t, .cons hm ht, hu⟩

/-- A run can be split at one of its moves. -/
theorem Run.split {s u : State} {ms₁ ms₂ : List Move} {m : Move}
    (h : Run s (ms₁ ++ m :: ms₂) u) : ∃ t v, Run s ms₁ t ∧ t.step m = some v ∧ Run v ms₂ u := by
  induction ms₁ generalizing s with
  | nil =>
    cases h with
    | @cons _ t _ _ _ hm h => exact ⟨s, t, .nil s, hm, h⟩
  | cons m' ms₁ ih =>
    cases h with
    | cons hm h =>
      obtain ⟨t, v, ht, hv, hu⟩ := ih h
      exact ⟨t, v, .cons hm ht, hv, hu⟩

theorem Run.append_inv {s u : State} {ms ns : List Move} (h : Run s (ms ++ ns) u) :
    ∃ t, Run s ms t ∧ Run t ns u := by
  induction ms generalizing s with
  | nil => exact ⟨s, .nil s, h⟩
  | cons m ms ih =>
    cases h with
    | cons hm h =>
      obtain ⟨t, ht, hu⟩ := ih h
      exact ⟨t, .cons hm ht, hu⟩

/-- Where a run comes to is determined by its moves. -/
theorem Run.unique {s t u : State} {ms : List Move} (h : Run s ms t) (k : Run s ms u) : t = u := by
  induction h with
  | nil => cases k; rfl
  | cons hm _ ih =>
    cases k with
    | cons hm' k =>
      obtain rfl := Option.some.inj (hm.symm.trans hm')
      exact ih k

/-- A run can be looked at where one of its moves is made. -/
theorem Run.at_move {s u : State} {ms₁ ms₂ : List Move} {m : Move}
    (h : Run s (ms₁ ++ m :: ms₂) u) : ∃ t v, Run s ms₁ t ∧ t.step m = some v := by
  obtain ⟨t, v, ht, hv, -⟩ := h.split
  exact ⟨t, v, ht, hv⟩

theorem Run.of_foldlM {s t : State} {ms : List Move} (h : ms.foldlM State.step s = some t) :
    Run s ms t := by
  induction ms generalizing s with
  | nil =>
    cases h
    exact .nil _
  | cons m ms ih =>
    obtain ⟨u, hu, h⟩ := Option.bind_eq_some_iff.1 h
    exact .cons hu (ih h)

/-- A property of runs that holds of the empty run and is kept by each last move. -/
theorem Run.snocRec {s : State} {p : List Move → State → Prop} (nil : p [] s)
    (snoc : ∀ ms t m u, Run s ms t → p ms t → t.step m = some u → p (ms ++ [m]) u)
    {ms : List Move} {t : State} (h : Run s ms t) : p ms t := by
  induction ms using List.reverseRecOn generalizing t with
  | nil => cases h; exact nil
  | append_singleton ms m ih =>
    obtain ⟨r, hr, hm⟩ := h.snoc_inv
    exact snoc ms r m t hr (ih hr) hm

/-- What holds at the start and is kept by every move holds in every state of a run. -/
theorem Run.invariant {s t : State} {ms : List Move} {p : State → Prop} (h : Run s ms t)
    (hs : p s) (step : ∀ s m t, p s → s.step m = some t → p t) : p t :=
  h.snocRec (p := fun _ t => p t) hs fun _ t m u _ ht hm => step t m u ht hm

/-- All that the moves of a run show, in order. -/
def State.log {α : Type} (shows : State → Move → State → List α) : State → List Move → List α
  | _, [] => []
  | s, m :: ms =>
    match s.step m with
    | none => []
    | some t => shows s m t ++ t.log shows ms

theorem State.log_cons {α : Type} {shows : State → Move → State → List α} {s t : State}
    {ms : List Move} {m : Move} (hm : s.step m = some t) :
    s.log shows (m :: ms) = shows s m t ++ t.log shows ms := by
  simp [State.log, hm]

theorem Run.log_snoc {α : Type} {shows : State → Move → State → List α} {s t u : State}
    {ms : List Move} {m : Move} (h : Run s ms t) (hm : t.step m = some u) :
    s.log shows (ms ++ [m]) = s.log shows ms ++ shows t m u := by
  induction h with
  | nil s => simp [State.log, hm]
  | cons hs _ ih =>
    rw [List.cons_append, State.log_cons hs, State.log_cons hs, ih hm, List.append_assoc]

theorem Run.log_append {α : Type} {shows : State → Move → State → List α} {s t : State}
    {ms ns : List Move} (h : Run s ms t) :
    s.log shows (ms ++ ns) = s.log shows ms ++ t.log shows ns := by
  induction h with
  | nil s => rfl
  | cons hs _ ih =>
    rw [List.cons_append, State.log_cons hs, State.log_cons hs, ih, List.append_assoc]

end SeamlessTunnel.Multiplexer
