import SeamlessTunnel.Interface.Listing
import SeamlessTunnel.Proofs.Text.Words
/-
  SeamlessTunnel.Proofs.Interface.Lines — every line of a listing stands alone.

  What a line says does not hang on blanks at its ends, and a carriage return in front of a
  line feed is one of them (`reading?_cons`, `reading?_concat`). So a listing is what the
  pieces between line feeds say (`ofLines_eq`): two texts with a line feed between them
  give the one listing and then the other, with the counts added up, and trimming a text
  first changes nothing. A text is taken for JSON by its first character that is no blank,
  which is why the reader of JSON never finds anything else (`lines_standAlone`).
-/

namespace SeamlessTunnel.Interface

/-- What a line says. A blank line says nothing. -/
def reading? (line : List Char) : Option (Option Entry) :=
  if line.all Text.isBlank then none else some (readLine line)

/-- What the pieces of a text between line feeds say. -/
def readings (cs : List Char) : List (Option Entry) :=
  (Text.pieces (· = '\n') cs).filterMap reading?

def Tally.add (a b : Tally) : Tally :=
  ⟨a.total + b.total, a.parsed + b.parsed, a.skipped + b.skipped⟩

/-- The tally of a list in which `none` stands for what could not be read. -/
def Tally.ofReadings {α : Type} (rs : List (Option α)) : Tally where
  total := rs.length
  parsed := (rs.filter (·.isSome)).length
  skipped := (rs.filter (·.isNone)).length

/-- One listing and then another. The counts add up. -/
def Listing.append (a b : Listing) : Listing where
  interfaces := a.interfaces ++ b.interfaces
  stats := ⟨a.stats.interfaces.add b.stats.interfaces, a.stats.addresses.add b.stats.addresses⟩

/-- The listing of a line that cannot be read. -/
def Listing.skipped : Listing where
  stats.interfaces := { total := 1, skipped := 1 }

section

variable {c : Char} {a b cs line before after : List Char}

/-! ## One line -/

theorem words_cons (h : Text.isBlank c = true) : Text.words (c :: cs) = Text.words cs :=
  Text.wordsAt_cons h

theorem words_concat (h : Text.isBlank c = true) : Text.words (cs ++ [c]) = Text.words cs :=
  Text.wordsAt_append_gap (by simpa using h)

theorem notBar_of_isBlank (h : Text.isBlank c = true) : decide (c = '|') = false := by
  rw [decide_eq_false_iff_not]
  rintro rfl
  exact absurd h (by decide)

theorem readLine_cons (h : Text.isBlank c = true) : readLine (c :: line) = readLine line := by
  obtain ⟨p, ps, hline, hcons⟩ :=
    Text.pieces_cons (· = '|') line (notBar_of_isBlank h)
  have hheader : readHeader (c :: p) = readHeader p := by
    unfold readHeader
    rw [words_cons h]
  unfold readLine
  rw [hline, hcons]
  cases ps with
  | nil => rfl
  | cons q ps =>
    cases ps with
    | nil => simp only [hheader]
    | cons r ps => rfl

theorem readLine_concat (h : Text.isBlank c = true) : readLine (line ++ [c]) = readLine line := by
  obtain ⟨ps, p, hline, hconcat⟩ :=
    Text.pieces_concat (· = '|') line (notBar_of_isBlank h)
  unfold readLine
  rw [hline, hconcat]
  cases ps with
  | nil => rfl
  | cons q ps =>
    cases ps with
    | nil => simp only [List.nil_append, List.cons_append, words_concat h]
    | cons r ps => cases ps <;> rfl

theorem reading?_nil : reading? [] = none := rfl

theorem reading?_cons (h : Text.isBlank c = true) : reading? (c :: line) = reading? line := by
  rw [reading?, reading?, List.all_cons, h, Bool.true_and, readLine_cons h]

theorem reading?_concat (h : Text.isBlank c = true) : reading? (line ++ [c]) = reading? line := by
  rw [reading?, reading?, List.all_append, readLine_concat h]
  simp [h]

/-! ## The lines of a text -/

theorem readings_append : readings (a ++ '\n' :: b) = readings a ++ readings b := by
  rw [readings, Text.pieces_append (by decide), List.filterMap_append]
  rfl

theorem readings_cons (h : Text.isBlank c = true) : readings (c :: cs) = readings cs := by
  by_cases hc : c = '\n'
  · rw [readings, Text.pieces_cons_of_sep (by simpa using hc), List.filterMap_cons, reading?_nil]
    rfl
  · obtain ⟨p, ps, hcs, hcons⟩ :=
      Text.pieces_cons (· = '\n') cs (by simpa using hc)
    rw [readings, readings, hcs, hcons, List.filterMap_cons, List.filterMap_cons, reading?_cons h]

theorem readings_concat (h : Text.isBlank c = true) : readings (cs ++ [c]) = readings cs := by
  by_cases hc : c = '\n'
  · rw [hc, readings_append]
    exact List.append_nil _
  · obtain ⟨ps, p, hcs, hconcat⟩ :=
      Text.pieces_concat (· = '\n') cs (by simpa using hc)
    rw [readings, readings, hcs, hconcat, List.filterMap_append, List.filterMap_append,
      List.filterMap_cons, List.filterMap_cons, reading?_concat h]

theorem readings_gap_append (h : ∀ c ∈ before, Text.isBlank c = true) :
    readings (before ++ cs) = readings cs := by
  induction before with
  | nil => rfl
  | cons c before ih =>
    obtain ⟨hc, hbefore⟩ := List.forall_mem_cons.1 h
    rw [List.cons_append, readings_cons hc, ih hbefore]

theorem readings_append_gap (h : ∀ c ∈ after, Text.isBlank c = true) :
    readings (cs ++ after) = readings cs := by
  induction after generalizing cs with
  | nil => rw [List.append_nil]
  | cons c after ih =>
    obtain ⟨hc, hafter⟩ := List.forall_mem_cons.1 h
    rw [List.append_cons, ih hafter, readings_concat hc]

theorem readings_trim : readings (Text.trim cs) = readings cs := by
  obtain ⟨before, after, hbefore, hafter, hcs⟩ := Text.exists_trim cs
  rw [hcs, Text.trim_padded hbefore hafter, Text.trim_trim, readings_gap_append hbefore,
    readings_append_gap hafter]

/-- A carriage return in front of a line feed is a blank at the end of its line. -/
theorem reading?_ended :
    reading? (if line.getLast? = some '\r' then line.dropLast else line) = reading? line := by
  by_cases hreturn : line.getLast? = some '\r'
  · obtain ⟨init, rfl⟩ := List.getLast?_eq_some_iff.1 hreturn
    rw [if_pos hreturn, List.dropLast_concat, reading?_concat (by decide)]
  · rw [if_neg hreturn]

theorem filterMap_lines : (Text.lines cs).filterMap reading? = readings cs := by
  obtain ⟨ps, p, hcs⟩ : ∃ ps p, Text.pieces (· = '\n') cs = ps ++ [p] :=
    ⟨_, _, (List.dropLast_concat_getLast (Text.pieces_ne_nil _ _)).symm⟩
  have hended : (ps.map fun line => if line.getLast? = some '\r' then line.dropLast else line).filterMap
      reading? = ps.filterMap reading? := by
    rw [List.filterMap_map]
    exact congrArg (List.filterMap · ps) (funext fun _ => reading?_ended)
  simp only [Text.lines, readings, hcs, List.dropLast_concat, List.getLast?_concat,
    List.filterMap_append]
  cases p with
  | nil => rw [hended]; exact (List.append_nil _).symm
  | cons c p => rw [List.filterMap_append, hended]

theorem map_readLine_filter (lines : List (List Char)) :
    (lines.filter fun line => !line.all Text.isBlank).map readLine = lines.filterMap reading? := by
  induction lines with
  | nil => rfl
  | cons line lines ih =>
    by_cases hblank : line.all Text.isBlank = true
    · simp only [List.filter_cons, hblank, List.filterMap_cons, reading?, ← ih]
      rfl
    · simp only [List.filter_cons, hblank, List.filterMap_cons, reading?, ← ih]
      rfl

/-- A listing is what the pieces between line feeds say. -/
theorem ofLines_eq : Listing.ofLines cs = .ofEntries .countEach (readings cs) := by
  rw [Listing.ofLines, map_readLine_filter, filterMap_lines]

/-! ## Listings -/

section

variable {α : Type} (t u v : Tally) (es fs : List (Option Entry))

theorem Tally.add_assoc : (t.add u).add v = t.add (u.add v) := by
  simp only [Tally.add, Nat.add_assoc]

theorem Tally.zero_add : Tally.add {} t = t := by
  simp [Tally.add]

theorem Tally.ofReadings_append (rs ss : List (Option α)) :
    ofReadings (rs ++ ss) = (ofReadings rs).add (ofReadings ss) := by
  simp [ofReadings, Tally.add]

theorem Tally.count_eq (r : Option α) : t.count r = t.add (ofReadings [r]) := by
  cases r <;> rfl

/-- Counting one after the other comes to the tally of all of them. -/
theorem Tally.countEach_eq (rs : List (Option α)) : t.countEach rs = t.add (ofReadings rs) := by
  unfold countEach
  induction rs generalizing t with
  | nil => rfl
  | cons r rs ih =>
    rw [List.foldl_cons, ih, count_eq, add_assoc, ← ofReadings_append]
    rfl

/-- It makes no difference when they are seen. -/
theorem Tally.countAll_eq (rs : List (Option α)) : t.countAll rs = t.countEach rs := by
  unfold countAll countEach
  induction rs generalizing t with
  | nil => rfl
  | cons r rs ih =>
    have hfirst : (t.see (r :: rs).length).settle r = (t.count r).see rs.length := by
      cases r <;> simp [count, see, settle, Nat.add_comm, Nat.add_left_comm]
    rw [List.foldl_cons, hfirst, ih, List.foldl_cons]

theorem ofEntries_countAll : Listing.ofEntries .countAll es = .ofEntries .countEach es := by
  have hcount : (Tally.countAll : _ → List (Option InterfaceAddress) → _) = .countEach :=
    funext fun t => funext fun rs => t.countAll_eq rs
  rw [hcount]

theorem foldl_note (l : Listing) : es.foldl (Listing.note .countEach) l = l.append
    { interfaces := es.filterMap fun e => e.map (·.complete)
      stats := ⟨.ofReadings es, .ofReadings ((es.filterMap id).flatMap (·.readings))⟩ } := by
  induction es generalizing l with
  | nil => simp [Listing.append, Tally.add, Tally.ofReadings]
  | cons r es ih =>
    have hrest : Tally.ofReadings (r :: es) = (Tally.ofReadings [r]).add (.ofReadings es) :=
      Tally.ofReadings_append [r] es
    rw [List.foldl_cons, ih]
    cases r with
    | none => simp [Listing.note, Listing.append, Tally.count_eq, hrest, Tally.add_assoc]
    | some e =>
      simp [Listing.note, Listing.append, Tally.count_eq, Tally.countEach_eq, hrest,
        Tally.ofReadings_append, Tally.add_assoc]

/-- A listing has the entries that could be read, and the tallies of all that was seen. -/
theorem ofEntries_eq : Listing.ofEntries .countEach es =
    { interfaces := es.filterMap fun e => e.map (·.complete)
      stats := ⟨.ofReadings es, .ofReadings ((es.filterMap id).flatMap (·.readings))⟩ } := by
  rw [Listing.ofEntries, foldl_note]
  simp [Listing.append, Tally.zero_add]

theorem ofEntries_append : Listing.ofEntries .countEach (es ++ fs) =
    (Listing.ofEntries .countEach es).append (Listing.ofEntries .countEach fs) := by
  simp [ofEntries_eq, Listing.append, Tally.ofReadings_append]

end

theorem ofLines_append :
    Listing.ofLines (a ++ '\n' :: b) = (Listing.ofLines a).append (Listing.ofLines b) := by
  simp only [ofLines_eq, readings_append, ofEntries_append]

theorem ofLines_skipped (hline : '\n' ∉ line) (hblank : line.all Text.isBlank = false)
    (hread : readLine line = none) : Listing.ofLines line = .skipped := by
  have hpieces : Text.pieces (· = '\n') line = [line] := by
    apply Text.pieces_of_none
    intro c hc
    rw [decide_eq_false_iff_not]
    rintro rfl
    exact hline hc
  have hreadings : readings line = [none] := by
    rw [readings, hpieces]
    simp [reading?, hblank, hread]
  rw [ofLines_eq, hreadings]
  rfl

theorem isEmpty_of_looksLikeJson (h : looksLikeJson cs = true) : cs.isEmpty = false := by
  cases cs with
  | nil => cases h
  | cons c rest => rfl

theorem looksLikeJson_trim : looksLikeJson (Text.trim cs) = true ↔
    cs.find? (!Text.isBlank ·) ∈ [some '[', some '\x7b'] := by
  simp [looksLikeJson, Text.head?_trim]

theorem ofJson_trim : Listing.ofJson (Text.trim cs) = Listing.ofJson cs := by
  rw [Listing.ofJson, Text.trim_trim, Listing.ofJson]

theorem ofChars_eq : Listing.ofChars cs =
    if cs.find? (!Text.isBlank ·) ∈ [some '[', some '\x7b'] then Listing.ofJson cs
    else .ok (.ofLines cs) := by
  rw [Listing.ofChars, ofJson_trim, ofLines_eq, readings_trim, ← ofLines_eq]
  simp only [looksLikeJson_trim]

theorem ofChars_ne_notJson : Listing.ofChars cs ≠ .error .notJson := by
  simp only [Listing.ofChars, Listing.ofJson, Text.trim_trim]
  by_cases hjson : looksLikeJson (Text.trim cs) = true
  · have hempty := isEmpty_of_looksLikeJson hjson
    cases hread : readListing (Text.trim cs) <;> simp [hjson, hempty]
  · simp [hjson]

/-- A line feed between two texts keeps their listings apart, and a line that cannot be read
    only counts as one that was skipped. Whether a text is read as JSON or as lines hangs on
    its first character that is no blank, and JSON is never missed. -/
theorem lines_standAlone (a b cs : List Char) :
    Listing.ofLines (a ++ '\n' :: b) = (Listing.ofLines a).append (Listing.ofLines b) ∧
    (∀ line, '\n' ∉ line → line.all Text.isBlank = false → readLine line = none →
      Listing.ofLines (a ++ '\n' :: (line ++ '\n' :: b)) =
        (Listing.ofLines a).append (Listing.skipped.append (Listing.ofLines b))) ∧
    Listing.ofChars cs =
      (if cs.find? (!Text.isBlank ·) ∈ [some '[', some '\x7b'] then Listing.ofJson cs
      else .ok (.ofLines cs)) ∧
    Listing.ofChars cs ≠ .error .notJson := by
  refine ⟨ofLines_append, ?_, ofChars_eq, ofChars_ne_notJson⟩
  intro line hline hblank hread
  rw [ofLines_append, ofLines_append, ofLines_skipped hline hblank hread]

/-- A line without a bar between two others, of which one ends with a carriage return and
    one begins with a blank. -/
theorem lines_standAlone_malformed :
    Listing.ofLines ("lo 1 9 true false true false false|127.0.0.1/8\r".toList ++
        '\n' :: ("no bar here".toList ++
        '\n' :: "\u2003a 2 8 true true false false true|x ::1/64".toList)) =
      ⟨[⟨"lo", 1, 9, ⟨true, false, true, false, false⟩,
          [.prefixed ⟨.ofNat .ipv4 0x7f000001, 8, by decide⟩]⟩,
        ⟨"a", 2, 8, ⟨true, true, false, false, true⟩,
          [.prefixed ⟨.ofNat .ipv6 1, 64, by decide⟩]⟩],
        ⟨⟨3, 2, 1⟩, ⟨3, 2, 1⟩⟩⟩ := by
  have hparted := (lines_standAlone "lo 1 9 true false true false false|127.0.0.1/8\r".toList
    "\u2003a 2 8 true true false false true|x ::1/64".toList []).2.1 "no bar here".toList
    (by decide) (by decide) (by decide)
  have hfirst : Listing.ofLines "lo 1 9 true false true false false|127.0.0.1/8\r".toList =
      ⟨[⟨"lo", 1, 9, ⟨true, false, true, false, false⟩,
        [.prefixed ⟨.ofNat .ipv4 0x7f000001, 8, by decide⟩]⟩], ⟨⟨1, 1, 0⟩, ⟨1, 1, 0⟩⟩⟩ := by decide
  have hlast : Listing.ofLines "\u2003a 2 8 true true false false true|x ::1/64".toList =
      ⟨[⟨"a", 2, 8, ⟨true, true, false, false, true⟩,
        [.prefixed ⟨.ofNat .ipv6 1, 64, by decide⟩]⟩], ⟨⟨1, 1, 0⟩, ⟨2, 1, 1⟩⟩⟩ := by decide
  rw [hparted, hfirst, hlast]
  rfl

end

end SeamlessTunnel.Interface
