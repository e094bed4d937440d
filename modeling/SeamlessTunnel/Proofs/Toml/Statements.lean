import SeamlessTunnel.Proofs.Toml.Values
/-
  SeamlessTunnel.Proofs.Toml.Statements — written lines read back as statements.

  `Says text statements` counts the turns that the loop over statements makes for a text;
  they are no more than its characters, so that the fuel that a whole text gives is enough
  (`statements?_of_says`). Texts that say something are put one after another by
  `Says.append`.
-/

namespace SeamlessTunnel.Toml

/-- A text that reads as these statements, whatever comes behind it. -/
def Says (text : List Char) (statements : List Statement) : Prop :=
  ∃ turns ≤ text.length, ∀ fuel rest,
    readStatements (turns + fuel) (text ++ rest) =
      (readStatements fuel rest).map (statements ++ ·)

/-- Whether a key needs no quotes. -/
def IsBareKey (key : Key) : Prop :=
  key ≠ [] ∧ ∀ c ∈ key, isBare c

section

variable {text text' : List Char} {ss ss' : List Statement} {key : Key} {name : String} {v : Value}
  {rest : List Char} {s : Statement}

/-! ## One after another -/

theorem Says.nil : Says [] [] :=
  ⟨0, Nat.le_refl 0, fun fuel rest => by simp⟩

theorem Says.append (h : Says text ss) (h' : Says text' ss') :
    Says (text ++ text') (ss ++ ss') := by
  obtain ⟨turns, hturns, hread⟩ := h
  obtain ⟨turns', hturns', hread'⟩ := h'
  refine ⟨turns + turns', ?_, fun fuel rest => ?_⟩
  · rw [List.length_append]
    omega
  · rw [Nat.add_assoc, List.append_assoc, hread, hread', Option.map_map]
    exact congrFun (congrArg _ (funext fun _ => (List.append_assoc ..).symm)) _

/-- A text that reads as one statement in one turn. -/
theorem Says.one (hne : text ≠ []) (hspace : ∀ rest, skipSpaces (text ++ rest) = text ++ rest)
    (hidle : ∀ rest, isIdle (text ++ rest) = false)
    (hread : ∀ rest, readStatement (text ++ rest) = some (s, rest)) : Says text [s] := by
  refine ⟨1, List.length_pos_iff.2 hne, fun fuel rest => ?_⟩
  rw [Nat.add_comm, readStatements, hspace, hidle, hread]
  cases h : readStatements fuel rest <;> simp [hne, h]

theorem Says.blank : Says ['\n'] [] := by
  refine ⟨1, Nat.le_refl 1, fun fuel rest => ?_⟩
  rw [Nat.add_comm]
  change readStatements fuel rest = _
  simp

/-- The statements of a whole text. -/
theorem statements?_of_says (h : Says text ss) (hmark : text.head? ≠ some '\uFEFF') :
    statements? text = some ss := by
  obtain ⟨turns, hturns, hread⟩ := h
  obtain ⟨fuel, hfuel⟩ := Nat.exists_eq_add_of_le hturns
  have hend : readStatements fuel [] = some [] := by
    cases fuel <;> rfl
  have hall := hread fuel []
  rw [List.append_nil, ← hfuel, hend] at hall
  have hskip : statements? text = readStatements text.length text := by
    rw [statements?]
    rintro rest rfl
    exact hmark rfl
  rw [hskip, hall]
  simp

/-! ## Pairs -/

theorem not_mem_of_isBare {c : Char} (marks : List Char) (hc : isBare c)
    (hmarks : marks.any isBare = false) : c ∉ marks := fun hmem =>
  List.any_eq_false.1 hmarks c hmem hc

/-- A bare key begins with none of the marks that begin something else. -/
theorem IsBareKey.head (h : IsBareKey key) : ∃ c cs, key = c :: cs ∧ isSpace c = false ∧
    c ∉ ['"', '\'', '#', '\n', '\r', '['] := by
  obtain ⟨hne, hall⟩ := h
  obtain ⟨c, cs, rfl⟩ := List.exists_cons_of_ne_nil hne
  have hc := hall c List.mem_cons_self
  have hspace := not_mem_of_isBare [' ', '\t'] hc (by decide)
  exact ⟨c, cs, rfl, by simpa [isSpace] using hspace, not_mem_of_isBare _ hc (by decide)⟩

theorem skipSpaces_of_not {c : Char} (h : isSpace c = false) :
    skipSpaces (c :: rest) = c :: rest := by
  rw [skipSpaces, List.dropWhile_cons, h]
  rfl

theorem IsBareKey.skipSpaces (h : IsBareKey key) : skipSpaces (key ++ rest) = key ++ rest := by
  obtain ⟨c, cs, rfl, hspace, -⟩ := h.head
  exact skipSpaces_of_not hspace

theorem readKey_bare (h : IsBareKey key) :
    readKey (key ++ ' ' :: rest) = some (key, ' ' :: rest) := by
  have htake : (key ++ ' ' :: rest).takeWhile isBare = key := by
    rw [List.takeWhile_append_of_pos h.2, List.takeWhile_cons_of_neg (by decide), List.append_nil]
  have hdrop : (key ++ ' ' :: rest).dropWhile isBare = ' ' :: rest := by
    rw [List.dropWhile_append_of_pos h.2, List.dropWhile_cons_of_neg (by decide)]
  obtain ⟨c, cs, rfl, -, hc⟩ := h.head
  simp only [List.mem_cons, List.not_mem_nil, or_false, not_or] at hc
  rw [readKey, htake, hdrop]
  all_goals simp [hc]

theorem readPath_bare (h : IsBareKey key) :
    readPath (key ++ ' ' :: '=' :: ' ' :: rest) = some (⟨[], key⟩, '=' :: ' ' :: rest) := by
  have hlength : 0 < (key ++ ' ' :: '=' :: ' ' :: rest).length := by simp
  obtain ⟨fuel, hfuel⟩ := Nat.exists_eq_add_one_of_ne_zero (Nat.ne_of_gt hlength)
  have hkeys : readKeys (fuel + 1) (key ++ ' ' :: '=' :: ' ' :: rest) =
      some ([key], '=' :: ' ' :: rest) := by
    rw [readKeys, h.skipSpaces, readKey_bare h]
    rfl
  rw [readPath, hfuel, hkeys]
  rfl

theorem Writes.skipSpaces {room : Nat} (hv : Writes room text v) :
    skipSpaces (text ++ rest) = text ++ rest := by
  obtain ⟨c, cs, rfl, hspace, -⟩ := hv.starts
  exact skipSpaces_of_not hspace

/-- A line of a bare key and a written value is their pair. -/
theorem Says.line (h : IsBareKey name.toList) (hv : Writes (depthLimit - 1) text v) :
    Says (line name text) [.pair ⟨[], name.toList⟩ v] := by
  have htext : ∀ rest, Toml.line name text ++ rest =
      name.toList ++ ' ' :: '=' :: ' ' :: (text ++ '\n' :: rest) := by
    simp [Toml.line]
  have hpair : ∀ rest, readPair (readValue (depthLimit - 1)) (Toml.line name text ++ rest) =
      some (⟨[], name.toList⟩, v, '\n' :: rest) := by
    intro rest
    have hvalue := hv.reads ('\n' :: rest) .newline
    have hspaces : Toml.skipSpaces (' ' :: (text ++ '\n' :: rest)) = text ++ '\n' :: rest :=
      hv.skipSpaces
    rw [htext, readPair, readPath_bare h]
    simp [expect, hspaces, hvalue, skipSpaces_of_not (show isSpace '\n' = false by decide)]
  obtain ⟨c, cs, hname, hspace, hc⟩ := h.head
  simp only [List.mem_cons, List.not_mem_nil, or_false, not_or] at hc
  refine .one (by simp [Toml.line]) (fun rest => ?_) (fun rest => ?_) fun rest => ?_
  · rw [htext]
    exact h.skipSpaces
  · rw [htext, hname]
    simp [isIdle, hc]
  · have hread := hpair rest
    rw [htext, hname, List.cons_append] at hread ⊢
    rw [readStatement, hread]
    · rfl
    all_goals simp [hc]

end

end SeamlessTunnel.Toml
