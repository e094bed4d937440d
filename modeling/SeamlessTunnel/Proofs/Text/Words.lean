import Mathlib.Data.List.TakeWhile
import SeamlessTunnel.Text.Blank
/-
  SeamlessTunnel.Proofs.Text.Words — what is left of a text that is cut or trimmed.

  A separator cuts a text into the pieces of its two sides (`pieces_append`); every other
  character belongs to the piece that it touches (`pieces_cons`, `pieces_concat`). Words are
  therefore found again between any separators, those at the two ends included
  (`wordsAt_spaced`). Trimming takes blanks away and nothing else (`exists_trim`), and a
  text without blanks at its ends is as it was (`trim_of_ends`).
-/

namespace SeamlessTunnel.Text

section

variable {isSep : Char → Bool} {c sep : Char} {cs w gap before after rest : List Char}

/-- No visible character of ASCII is blank. -/
theorem notBlank_of_visible (h : 33 ≤ c.toNat ∧ c.toNat ≤ 126) : isBlank c = false := by
  simp only [isBlank, Bool.or_eq_false_iff, Bool.and_eq_false_iff, decide_eq_false_iff_not]
  omega

/-! ## Pieces -/

theorem pieces_cons_of_sep (h : isSep c = true) :
    pieces isSep (c :: cs) = [] :: pieces isSep cs := by
  rw [pieces, if_pos h]

variable (isSep cs) in
/-- A character that separates nothing goes to the first piece of what follows it. -/
theorem pieces_cons (h : isSep c = false) :
    ∃ p ps, pieces isSep cs = p :: ps ∧ pieces isSep (c :: cs) = (c :: p) :: ps := by
  obtain ⟨p, ps, hcs⟩ := List.exists_cons_of_ne_nil (pieces_ne_nil isSep cs)
  refine ⟨p, ps, hcs, ?_⟩
  simp [pieces, h, hcs]

/-- A separator cuts a text into the pieces of its two sides. -/
theorem pieces_append (h : isSep c = true) :
    pieces isSep (cs ++ c :: rest) = pieces isSep cs ++ pieces isSep rest := by
  induction cs with
  | nil => exact pieces_cons_of_sep h
  | cons d cs ih =>
    rw [List.cons_append]
    by_cases hd : isSep d = true
    · rw [pieces_cons_of_sep hd, pieces_cons_of_sep hd, ih, List.cons_append]
    · have hd : isSep d = false := by simpa using hd
      obtain ⟨p, ps, hcs, hcons⟩ := pieces_cons isSep cs hd
      obtain ⟨q, qs, hwhole, hwhole'⟩ := pieces_cons isSep (cs ++ c :: rest) hd
      rw [ih, hcs, List.cons_append] at hwhole
      obtain ⟨rfl, rfl⟩ := List.cons.inj hwhole
      rw [hwhole', hcons, List.cons_append]

variable (isSep cs) in
/-- A character that separates nothing goes to the last piece of what precedes it. -/
theorem pieces_concat (h : isSep c = false) :
    ∃ ps p, pieces isSep cs = ps ++ [p] ∧ pieces isSep (cs ++ [c]) = ps ++ [p ++ [c]] := by
  induction cs with
  | nil => exact ⟨[], [], rfl, by simp [pieces, h]⟩
  | cons d cs ih =>
    obtain ⟨ps, p, hcs, hconcat⟩ := ih
    rw [List.cons_append]
    by_cases hd : isSep d = true
    · refine ⟨[] :: ps, p, ?_, ?_⟩
      · rw [pieces_cons_of_sep hd, hcs, List.cons_append]
      · rw [pieces_cons_of_sep hd, hconcat, List.cons_append]
    · cases ps with
      | nil => exact ⟨[], d :: p, by simp [pieces, hd, hcs], by simp [pieces, hd, hconcat]⟩
      | cons q ps => exact ⟨(d :: q) :: ps, p, by simp [pieces, hd, hcs], by simp [pieces, hd, hconcat]⟩

theorem pieces_of_none (h : ∀ c ∈ w, isSep c = false) : pieces isSep w = [w] := by
  induction w with
  | nil => rfl
  | cons c w ih =>
    obtain ⟨hc, hw⟩ := List.forall_mem_cons.1 h
    simp [pieces, hc, ih hw]

/-! ## Words -/

theorem wordsAt_append (h : isSep c = true) :
    wordsAt isSep (cs ++ c :: rest) = wordsAt isSep cs ++ wordsAt isSep rest := by
  rw [wordsAt, pieces_append h, List.filter_append]
  rfl

theorem wordsAt_cons (h : isSep c = true) : wordsAt isSep (c :: cs) = wordsAt isSep cs := by
  have hsplit : wordsAt isSep ([] ++ c :: cs) = wordsAt isSep [] ++ wordsAt isSep cs :=
    wordsAt_append h
  exact hsplit

theorem wordsAt_gap_append (h : ∀ c ∈ gap, isSep c = true) :
    wordsAt isSep (gap ++ cs) = wordsAt isSep cs := by
  induction gap with
  | nil => rfl
  | cons c gap ih =>
    obtain ⟨hc, hgap⟩ := List.forall_mem_cons.1 h
    rw [List.cons_append, wordsAt_cons hc, ih hgap]

theorem wordsAt_append_gap (h : ∀ c ∈ gap, isSep c = true) :
    wordsAt isSep (cs ++ gap) = wordsAt isSep cs := by
  cases gap with
  | nil => rw [List.append_nil]
  | cons c gap =>
    obtain ⟨hc, hgap⟩ := List.forall_mem_cons.1 h
    have hnone : wordsAt isSep gap = [] := by
      have hgap : wordsAt isSep (gap ++ []) = wordsAt isSep [] := wordsAt_gap_append hgap
      rwa [List.append_nil] at hgap
    rw [wordsAt_append hc, hnone, List.append_nil]

theorem wordsAt_word (hne : w ≠ []) (h : ∀ c ∈ w, isSep c = false) : wordsAt isSep w = [w] := by
  rw [wordsAt, pieces_of_none h]
  simp [hne]

/-- A word ends at the first separator. -/
theorem wordsAt_word_append (hne : w ≠ []) (h : ∀ c ∈ w, isSep c = false)
    (hrest : ∀ c, rest.head? = some c → isSep c = true) :
    wordsAt isSep (w ++ rest) = w :: wordsAt isSep rest := by
  cases rest with
  | nil => rw [List.append_nil, wordsAt_word hne h]; rfl
  | cons c rest =>
    have hc := hrest c rfl
    rw [wordsAt_append hc, wordsAt_word hne h, wordsAt_cons hc]
    rfl

/-- Words are found again, whatever separators stand in front of each and at the end. Only
    the first may have none in front. -/
theorem wordsAt_spaced {ws : List (List Char × List Char)}
    (hgap : ∀ x ∈ ws, ∀ c ∈ x.1, isSep c = true) (hne : ∀ x ∈ ws.tail, x.1 ≠ [])
    (hword : ∀ x ∈ ws, x.2 ≠ [] ∧ ∀ c ∈ x.2, isSep c = false)
    (hafter : ∀ c ∈ after, isSep c = true) :
    wordsAt isSep (ws.flatMap (fun x => x.1 ++ x.2) ++ after) = ws.map (·.2) := by
  induction ws with
  | nil =>
    have hafter : wordsAt isSep ([] ++ after) = wordsAt isSep [] := wordsAt_append_gap hafter
    exact hafter
  | cons x ws ih =>
    obtain ⟨hgap, hgaps⟩ := List.forall_mem_cons.1 hgap
    obtain ⟨⟨hx, hword⟩, hwords⟩ := List.forall_mem_cons.1 hword
    have hrest : ∀ c, (ws.flatMap (fun x => x.1 ++ x.2) ++ after).head? = some c →
        isSep c = true := by
      intro c hc
      cases ws with
      | nil => exact hafter c (List.mem_of_head? hc)
      | cons y ws =>
        obtain ⟨d, gap, hd⟩ := List.exists_cons_of_ne_nil (hne y List.mem_cons_self)
        have hmem : c ∈ y.1 := by
          simp only [List.flatMap_cons, hd, List.cons_append, List.head?_cons, Option.some.injEq] at hc
          simp [hd, hc]
        exact hgaps y List.mem_cons_self c hmem
    have ih := ih hgaps (fun y hy => hne y (List.mem_of_mem_tail hy)) hwords
    rw [List.flatMap_cons, List.append_assoc, List.append_assoc, wordsAt_gap_append hgap,
      wordsAt_word_append hx hword hrest, ih, List.map_cons]

/-! ## Trimming -/

theorem trimEnd_append (h : ∀ c ∈ after, isBlank c = true) : trimEnd (cs ++ after) = trimEnd cs := by
  have hreverse : ∀ c ∈ after.reverse, isBlank c = true := fun c hc => h c (List.mem_reverse.1 hc)
  rw [trimEnd, List.reverse_append, List.dropWhile_append_of_pos hreverse, trimEnd]

/-- Blanks at the two ends do not show in a trimmed text. -/
theorem trim_padded (hbefore : ∀ c ∈ before, isBlank c = true)
    (hafter : ∀ c ∈ after, isBlank c = true) : trim (before ++ (cs ++ after)) = trim cs := by
  rw [trim, List.dropWhile_append_of_pos hbefore, List.dropWhile_append]
  split
  · rename_i hcs
    rw [trim, List.isEmpty_iff.1 hcs, List.dropWhile_eq_nil_iff.2 hafter]
  · exact trimEnd_append hafter

theorem trim_of_ends (hfirst : ∀ c, cs.head? = some c → isBlank c = false)
    (hlast : ∀ c, cs.getLast? = some c → isBlank c = false) : trim cs = cs := by
  have hdrop : ∀ cs : List Char, (∀ c, cs.head? = some c → isBlank c = false) →
      cs.dropWhile isBlank = cs := by
    intro cs h
    cases cs with
    | nil => rfl
    | cons c cs => rw [List.dropWhile_cons, h c rfl]; rfl
  have hreverse : ∀ c, cs.reverse.head? = some c → isBlank c = false := by
    intro c hc
    rw [List.head?_reverse] at hc
    exact hlast c hc
  rw [trim, hdrop cs hfirst, trimEnd, hdrop _ hreverse, List.reverse_reverse]

theorem trimEnd_cons (h : isBlank c = false) : trimEnd (c :: cs) = c :: trimEnd cs := by
  rw [trimEnd, List.reverse_cons, List.dropWhile_append]
  split
  · rename_i hcs
    simp [trimEnd, List.isEmpty_iff.1 hcs, h]
  · rw [List.reverse_append, trimEnd]
    rfl

theorem head?_trim : (trim cs).head? = cs.find? (!isBlank ·) := by
  rw [List.find?_not_eq_head?_dropWhile, trim]
  cases hcs : cs.dropWhile isBlank with
  | nil => rfl
  | cons c rest =>
    have hc := List.head?_dropWhile_not isBlank cs
    rw [hcs] at hc
    rw [trimEnd_cons hc]
    rfl

theorem notBlank_of_getLast?_trim (h : (trim cs).getLast? = some c) : isBlank c = false := by
  rw [trim, trimEnd, List.getLast?_reverse, ← List.find?_not_eq_head?_dropWhile] at h
  simpa using List.find?_some h

theorem trim_trim : trim (trim cs) = trim cs := by
  apply trim_of_ends
  · intro c hc
    rw [head?_trim] at hc
    simpa using List.find?_some hc
  · intro c hc
    exact notBlank_of_getLast?_trim hc

/-- A text is its trimmed form between blanks. -/
theorem exists_trim (cs : List Char) : ∃ before after, (∀ c ∈ before, isBlank c = true) ∧
    (∀ c ∈ after, isBlank c = true) ∧ cs = before ++ (trim cs ++ after) := by
  have hall : ∀ cs : List Char, ∀ c ∈ cs.takeWhile isBlank, isBlank c = true := fun cs c hc =>
    List.all_eq_true.1 List.all_takeWhile c hc
  refine ⟨cs.takeWhile isBlank, ((cs.dropWhile isBlank).reverse.takeWhile isBlank).reverse,
    hall cs, fun c hc => hall _ c (List.mem_reverse.1 hc), ?_⟩
  rw [trim, trimEnd, ← List.reverse_append, List.takeWhile_append_dropWhile, List.reverse_reverse,
    List.takeWhile_append_dropWhile]

/-! ## Cutting once -/

theorem cutAt_append (h : ∀ c ∈ cs, c ≠ sep) : cutAt sep (cs ++ sep :: rest) = some (cs, rest) := by
  have hcs : ∀ c ∈ cs, (c != sep) = true := fun c hc => bne_iff_ne.2 (h c hc)
  simp [cutAt, List.dropWhile_append_of_pos hcs, List.takeWhile_append_of_pos hcs]

theorem cutAt_eq_none (h : ∀ c ∈ cs, c ≠ sep) : cutAt sep cs = none := by
  have hcs : ∀ c ∈ cs, (c != sep) = true := fun c hc => bne_iff_ne.2 (h c hc)
  simp [cutAt, List.dropWhile_eq_nil_iff.2 hcs]

end

end SeamlessTunnel.Text
