import Mathlib.Tactic.IntervalCases
import SeamlessTunnel.Proofs.Text.Numeral
import SeamlessTunnel.Toml.Printer
import SeamlessTunnel.Toml.Reader
/-
  SeamlessTunnel.Proofs.Toml.Values — written values read back.

  `Writes room text v` says that `text` is read as `v`, in front of whatever may follow a
  value in a line or a list (`Ends`). Flags, numbers of 63 bits and strings that need no
  escapes are written so, and lists of what is written so. A number is no moment, because
  in a moment a hyphen or a colon comes after the first digits (`readMoment_eq_none`).
-/

namespace SeamlessTunnel.Toml

open Text (NoDigitAhead digit? digits leadingDigits ofDigits)

/-- Whether a text goes on with the end of a line, a comma or a closing bracket. -/
def Ends (rest : List Char) : Prop :=
  ∃ c after, rest = c :: after ∧ (c = '\n' ∨ c = ',' ∨ c = ']')

/-- A text that reads as a value with at most `room` others around an innermost one. -/
structure Writes (room : Nat) (text : List Char) (v : Value) : Prop where
  starts : ∃ c cs, text = c :: cs ∧ isSpace c = false ∧ c ∉ ['\n', '\r', '#', ']']
  reads : ∀ rest, Ends rest → readValue room (text ++ rest) = some (v, rest)

/-- Whether a character stands between `"` as it is. -/
def isVerbatim (c : Char) : Bool :=
  32 ≤ c.toNat && c.toNat ≠ 127 && c ≠ '"' && c ≠ '\\'

/-- An item of a list of two or more. -/
def itemLine (item : List Char) : List Char :=
  "    ".toList ++ item ++ ",\n".toList

section

variable {n d k room : Nat} {c : Char} {cs rest after text : List Char} {v : Value} {b : Bool}

/-! ## What follows a value -/

theorem Ends.newline : Ends ('\n' :: rest) := ⟨_, _, rfl, .inl rfl⟩

theorem Ends.comma : Ends (',' :: rest) := ⟨_, _, rfl, .inr (.inl rfl)⟩

theorem Ends.bracket : Ends (']' :: rest) := ⟨_, _, rfl, .inr (.inr rfl)⟩

theorem Ends.noDigit (h : Ends rest) : NoDigitAhead 10 rest := by
  obtain ⟨c, after, rfl, rfl | rfl | rfl⟩ := h <;> exact .cons rfl

/-! ## Flags -/

theorem writes_flag : Writes room (flag b) (.bool b) where
  starts := by cases b <;> exact ⟨_, _, rfl, by decide, by decide⟩
  reads rest _ := by cases b <;> cases room <;> rfl

/-! ## Numbers -/

theorem moreDigits_map {ds : List Nat} (hds : ∀ d ∈ ds, d < 10) (h : Ends rest) :
    moreDigits 10 (ds.map Text.digitChar ++ rest) = some (ds, rest) := by
  induction ds with
  | nil => obtain ⟨c, after, rfl, rfl | rfl | rfl⟩ := h <;> rfl
  | cons d ds ih =>
    obtain ⟨hd, hds⟩ := List.forall_mem_cons.1 hds
    have hchar : Text.digitChar d ≠ '_' :=
      (by decide : ∀ d < 10, Text.digitChar d ≠ '_') d hd
    rw [List.map_cons, List.cons_append, moreDigits, Text.digit?_digitChar (by omega) hd, ih hds]
    · rfl
    all_goals simp [hchar]

theorem rest_of_mapM {ds : List Nat} (hds : (cs.take k).mapM (digit? 10) = some ds)
    (hlength : ds.length = k) (hdrop : cs.drop k = c :: after) (hc : digit? 10 c = none) :
    (leadingDigits 10 cs).2 = c :: after := by
  induction k generalizing cs ds with
  | zero =>
    rw [List.drop_zero] at hdrop
    rw [hdrop, Text.leadingDigits_eq (.cons hc)]
  | succ k ih =>
    cases cs with
    | nil => cases hdrop
    | cons d cs =>
      rw [List.take_succ_cons, List.mapM_cons] at hds
      cases hd : digit? 10 d with
      | none => simp [hd] at hds
      | some e =>
        cases hmore : (cs.take k).mapM (digit? 10) with
        | none => simp [hd, hmore] at hds
        | some es =>
          simp only [hd, hmore, Option.bind_eq_bind, Option.bind_some, Option.pure_def,
            Option.some.injEq] at hds
          subst hds
          rw [leadingDigits, hd]
          exact ih hmore (Nat.succ.inj hlength) hdrop

/-- Behind a number of fixed length stands what follows the first digits, unless that is
    another digit. -/
theorem rest_of_readFixed (h : readFixed k cs = some (n, c :: after)) (hc : digit? 10 c = none) :
    (leadingDigits 10 cs).2 = c :: after := by
  rw [readFixed] at h
  cases hds : (cs.take k).mapM (digit? 10) with
  | none => simp [hds] at h
  | some ds =>
    rw [hds, Option.bind_eq_bind, Option.bind_some] at h
    split at h
    · rename_i hlength
      exact rest_of_mapM hds hlength (Prod.mk.inj (Option.some.inj h)).2 hc
    · cases h

theorem readFixed_of_readTwo {low high : Nat} {r : Nat × List Char} (h : readTwo low high cs = some r) :
    readFixed 2 cs = some r := by
  rw [readTwo] at h
  cases hread : readFixed 2 cs with
  | none => simp [hread] at h
  | some r' =>
    simp only [hread, Option.bind_eq_bind, Option.bind_some] at h
    split at h
    · exact h
    · cases h

theorem expect_of_readFixed (h : readFixed k cs = some (n, rest)) (hc : digit? 10 c = none)
    (hahead : (leadingDigits 10 cs).2.head? ≠ some c) : expect c rest = none := by
  cases rest with
  | nil => rfl
  | cons d rest =>
    refine if_neg fun hd => ?_
    subst hd
    exact hahead (by rw [rest_of_readFixed h hc, List.head?_cons])

theorem readMoment_eq_none (hhyphen : (leadingDigits 10 cs).2.head? ≠ some '-')
    (hcolon : (leadingDigits 10 cs).2.head? ≠ some ':') : readMoment cs = none := by
  have hdate : readDate cs = none := by
    cases hyear : readFixed 4 cs with
    | none => simp [readDate, hyear]
    | some year => simp [readDate, hyear, expect_of_readFixed hyear (by decide) hhyphen]
  have htime : readTime cs = none := by
    cases hhour : readTwo 0 23 cs with
    | none => simp [readTime, hhour]
    | some hour =>
      simp [readTime, hhour, expect_of_readFixed (readFixed_of_readTwo hhour) (by decide) hcolon]
  rw [readMoment, hdate, htime]

/-- A text that begins with a digit other than zero is read as a decimal number. -/
theorem readNumber_digit (hd : 0 < d) (hd' : d < 10) :
    readNumber (Text.digitChar d :: cs) = readDecimal (Text.digitChar d :: cs) := by
  interval_cases d <;> rfl

theorem readSign_digit (hd : d < 10) :
    readSign (Text.digitChar d :: cs) = (false, Text.digitChar d :: cs) := by
  interval_cases d <;> rfl

theorem readWhole_digit (hd : 0 < d) (hd' : d < 10) :
    readWhole (Text.digitChar d :: cs) = readDigits 10 (Text.digitChar d :: cs) := by
  interval_cases d <;> rfl

theorem fits_of_le (h : n ≤ Int64.maxValue.toInt.toNat) : fits n = true := by
  have hmin : Int64.minValue.toInt ≤ 0 := by decide
  have hmax : 0 ≤ Int64.maxValue.toInt := by decide
  simp only [fits, Bool.and_eq_true, decide_eq_true_eq]
  omega

/-- A number without leading zeros, in front of the end of a value. -/
theorem readNumber_decimal (h : n ≤ Int64.maxValue.toInt.toNat) (hrest : Ends rest) :
    readNumber (Text.decimal n ++ rest) = some (.integer n, rest) := by
  obtain rfl | hpos := Nat.eq_zero_or_pos n
  · have hzero : Text.decimal 0 = ['0'] := by
      rw [Text.decimal, Text.render_eq, Text.digits_of_lt (by decide)]
      rfl
    rw [hzero]
    obtain ⟨c, after, rfl, rfl | rfl | rfl⟩ := hrest <;> rfl
  · have hlt : ∀ d ∈ digits 10 n, d < 10 := fun d => Text.lt_of_mem_digits (by decide)
    have hfirst : (digits 10 n).head? ≠ some 0 := Text.head?_digits (by decide) hpos
    have hvalue : ofDigits 10 (digits 10 n) = n := Text.ofDigits_digits
    obtain ⟨d, ds, hds⟩ := List.exists_cons_of_ne_nil (Text.digits_ne_nil 10 n)
    rw [Text.decimal, Text.render_eq]
    rw [hds] at hlt hfirst hvalue ⊢
    obtain ⟨hd, hds⟩ := List.forall_mem_cons.1 hlt
    have hd0 : 0 < d := Nat.pos_of_ne_zero fun h => hfirst (congrArg some h)
    have hdigits : readDigits 10 (Text.digitChar d :: (ds.map Text.digitChar ++ rest)) =
        some (d :: ds, rest) := by
      rw [readDigits, Text.digit?_digitChar (by decide) hd, moreDigits_map hds hrest]
      rfl
    have hfraction : readFraction rest = some ([], rest) := by
      obtain ⟨c, after, rfl, rfl | rfl | rfl⟩ := hrest <;> rfl
    have hexponent : readExponent rest = some (none, rest) := by
      obtain ⟨c, after, rfl, rfl | rfl | rfl⟩ := hrest <;> rfl
    rw [List.map_cons, List.cons_append, readNumber_digit hd0 hd, readDecimal, readSign_digit hd]
    simp [readWhole_digit hd0 hd, hdigits, hfraction, hexponent, hvalue, fits_of_le h]

/-- A text that begins with a digit is a moment or a number. -/
theorem readValue_digit (hd : d < 10) :
    readValue room (Text.digitChar d :: cs) =
      match readMoment (Text.digitChar d :: cs) with
      | some rest => some (.moment, rest)
      | none => readNumber (Text.digitChar d :: cs) := by
  cases room <;> interval_cases d <;> rfl

theorem writes_decimal (h : n ≤ Int64.maxValue.toInt.toNat) :
    Writes room (Text.decimal n) (.integer n) := by
  obtain ⟨d, ds, hds⟩ := List.exists_cons_of_ne_nil (Text.digits_ne_nil 10 n)
  have htext : Text.decimal n = Text.digitChar d :: ds.map Text.digitChar := by
    rw [Text.decimal, Text.render_eq, hds, List.map_cons]
  have hd : d < 10 := Text.lt_of_mem_digits (n := n) (by decide) (by rw [hds]; exact List.mem_cons_self)
  constructor
  · have hchar : ∀ d < 10, isSpace (Text.digitChar d) = false ∧
        Text.digitChar d ∉ ['\n', '\r', '#', ']'] := by decide
    exact ⟨_, _, htext, hchar d hd⟩
  · intro rest hrest
    have hmoment : readMoment (Text.decimal n ++ rest) = none := by
      have hahead : (leadingDigits 10 (Text.decimal n ++ rest)).2 = rest := by
        rw [Text.decimal, Text.leadingDigits_render (by decide) (by decide) hrest.noDigit]
      obtain ⟨c, after, rfl, hc⟩ := hrest
      apply readMoment_eq_none <;> rw [hahead, List.head?_cons] <;>
        rcases hc with rfl | rfl | rfl <;> decide
    have hread := readNumber_decimal h hrest
    rw [htext, List.cons_append] at hmoment hread ⊢
    rw [readValue_digit hd, hmoment]
    exact hread

/-! ## Strings -/

theorem isVerbatim_iff :
    isVerbatim c ↔ 32 ≤ c.toNat ∧ c.toNat ≠ 127 ∧ c ≠ '"' ∧ c ≠ '\\' := by
  simp [isVerbatim, and_assoc]

theorem escapeChar_verbatim {lines : Bool} (h : isVerbatim c) : escapeChar lines c = [c] := by
  obtain ⟨hlow, hdelete, -, hslash⟩ := isVerbatim_iff.1 h
  have hcontrol : ∀ d ∈ ['\x08', '\t', '\n', '\x0c', '\r'], c ≠ d := by
    rintro d hd rfl
    have hall : ['\x08', '\t', '\n', '\x0c', '\r'].all (·.toNat < 32) = true := by decide
    exact absurd hlow (Nat.not_le.2 (of_decide_eq_true (List.all_eq_true.1 hall c hd)))
  have hescape : needsEscape c = false := by
    simp [needsEscape, hdelete, Nat.not_lt.2 hlow]
  simp [escapeChar, hslash, hescape, hcontrol]

theorem escaped_verbatim {lines : Bool} {run : Nat} (h : ∀ c ∈ cs, isVerbatim c) :
    escaped lines run cs = cs := by
  induction cs generalizing run with
  | nil => rfl
  | cons c cs ih =>
    obtain ⟨hc, hcs⟩ := List.forall_mem_cons.1 h
    rw [escaped, if_neg (isVerbatim_iff.1 hc).2.2.1, escapeChar_verbatim hc, ih hcs,
      List.singleton_append]

theorem choose_verbatim (h : ∀ c ∈ cs, isVerbatim c) : Quotes.choose cs = .basic := by
  have hnot : ∀ d, isVerbatim d = false → ¬ d ∈ cs := fun d hd hmem => by
    simp [h d hmem] at hd
  have hcontrol : cs.any needsEscape = false := by
    simp only [List.any_eq_false, Bool.not_eq_true]
    intro c hc
    obtain ⟨hlow, hdelete, -, -⟩ := isVerbatim_iff.1 (h c hc)
    simp [needsEscape, hdelete, Nat.not_lt.2 hlow]
  have hadmits : Quotes.basic.admits cs = true := by
    simp [Quotes.admits, hcontrol, hnot _ (by decide : isVerbatim '\n' = false),
      hnot _ (by decide : isVerbatim '\\' = false), hnot _ (by decide : isVerbatim '"' = false)]
  simp only [Quotes.choose, List.find?_cons, hadmits]

/-- A text of verbatim characters stands between `"` as it is. -/
theorem quoted_verbatim (h : ∀ c ∈ cs, isVerbatim c) : quoted cs = '"' :: (cs ++ ['"']) := by
  simp [quoted, choose_verbatim h, Quotes.delimiter, Quotes.hasLines, escaped_verbatim h]

theorem readBasic_verbatim (h : ∀ c ∈ cs, isVerbatim c) :
    readBasic (cs ++ '"' :: rest) = some (cs, rest) := by
  induction cs with
  | nil => rw [List.nil_append, readBasic]
  | cons c cs ih =>
    obtain ⟨hc, hcs⟩ := List.forall_mem_cons.1 h
    obtain ⟨hlow, hdelete, hquote, hslash⟩ := isVerbatim_iff.1 hc
    have hplain : isPlain c = true := by
      simp [isPlain, hlow, hdelete]
    rw [List.cons_append, readBasic, ih hcs]
    · simp [hplain, hslash]
    all_goals simp [hquote, hslash]

theorem writes_quoted (hne : cs ≠ []) (h : ∀ c ∈ cs, isVerbatim c) :
    Writes room (quoted cs) (.string cs) := by
  rw [quoted_verbatim h]
  refine ⟨⟨_, _, rfl, by decide, by decide⟩, fun rest _ => ?_⟩
  obtain ⟨c, cs, rfl⟩ := List.exists_cons_of_ne_nil hne
  have hc := (isVerbatim_iff.1 (List.forall_mem_cons.1 h).1).2.2.1
  have hstring : readString ('"' :: (c :: cs ++ '"' :: rest)) = some (c :: cs, rest) := by
    have hbasic : readBasic (c :: cs ++ '"' :: rest) = some (c :: cs, rest) := readBasic_verbatim h
    rw [← hbasic, List.cons_append, readString]
    simp [hc]
  have hsimple : ∀ room text, readValue room ('"' :: text) = readSimple ('"' :: text) := by
    intro room text
    cases room <;> rfl
  rw [List.cons_append, List.append_assoc, List.singleton_append, hsimple, readSimple, hstring]
  all_goals simp

/-! ## Lists -/

theorem Writes.skipFiller (h : Writes room text v) :
    skipFiller false (text ++ rest) = text ++ rest := by
  obtain ⟨c, cs, rfl, hspace, hc⟩ := h.starts
  simp only [List.mem_cons, List.not_mem_nil, or_false, not_or] at hc
  rw [List.cons_append, Toml.skipFiller]
  · simp [hspace, hc]
  all_goals simp [hc]

/-- One item is read, and what it ends with decides how the list goes on. -/
theorem readItems_item {fuel : Nat} (h : Writes room text v) (hcs : skipFiller false cs = text ++ rest)
    (hrest : Ends rest) :
    readItems (readValue room) (fuel + 1) cs =
      match skipFiller false rest with
      | ']' :: rest => some ([v], rest)
      | ',' :: rest => (readItems (readValue room) fuel rest).map fun (vs, rest) => (v :: vs, rest)
      | _ => none := by
  have hread := h.reads rest hrest
  obtain ⟨c, cs', rfl, hspace, hc⟩ := h.starts
  simp only [List.mem_cons, List.not_mem_nil, or_false, not_or] at hc
  rw [readItems, hcs]
  split
  · rename_i heq
    exact absurd (List.cons.inj heq).1 hc.2.2.2
  · simp only [hread, Option.bind_eq_bind, Option.bind_some]
    split <;> simp [*]

theorem itemLine_append {item : List Char} :
    itemLine item ++ rest = "    ".toList ++ (item ++ ',' :: '\n' :: rest) := by
  simp [itemLine]

theorem readItems_lines {items : List (List Char)} {vs : List Value} {fuel : Nat}
    (h : List.Forall₂ (Writes room) items vs) (hfuel : items.length < fuel) :
    readItems (readValue room) fuel ('\n' :: (items.flatMap itemLine ++ ']' :: rest)) =
      some (vs, rest) := by
  induction h generalizing fuel with
  | nil =>
    obtain ⟨fuel, rfl⟩ := Nat.exists_eq_add_one_of_ne_zero (Nat.ne_of_gt hfuel)
    rfl
  | @cons item v items vs hitem _ ih =>
    obtain ⟨fuel, rfl⟩ := Nat.exists_eq_add_one_of_ne_zero (Nat.ne_of_gt (Nat.zero_lt_of_lt hfuel))
    have hfiller : skipFiller false ('\n' :: ("    ".toList ++
        (item ++ ',' :: '\n' :: (items.flatMap itemLine ++ ']' :: rest)))) =
        item ++ ',' :: '\n' :: (items.flatMap itemLine ++ ']' :: rest) :=
      hitem.skipFiller
    rw [List.flatMap_cons, List.append_assoc, itemLine_append,
      readItems_item hitem hfiller .comma]
    exact congrArg (Option.map _) (ih (Nat.lt_of_succ_lt_succ hfuel))

theorem length_le_itemLines (items : List (List Char)) :
    items.length ≤ (items.flatMap itemLine).length := by
  induction items with
  | nil => exact Nat.le_refl _
  | cons item items ih =>
    have hpos : 0 < (itemLine item).length := by simp [itemLine]
    rw [List.flatMap_cons, List.length_append, List.length_cons]
    omega

theorem writes_list {items : List (List Char)} {vs : List Value}
    (h : List.Forall₂ (Writes room) items vs) : Writes (room + 1) (list items) (.array vs) := by
  cases h with
  | nil => exact ⟨⟨_, _, rfl, by decide, by decide⟩, fun _ _ => rfl⟩
  | @cons item v items vs hitem hitems =>
    cases hitems with
    | nil =>
      refine ⟨⟨_, _, rfl, by decide, by decide⟩, fun rest _ => ?_⟩
      have hlist : list [item] ++ rest = '[' :: (item ++ ']' :: rest) := by
        simp [list]
      have hpos : 0 < (item ++ ']' :: rest).length := by simp
      obtain ⟨fuel, hfuel⟩ := Nat.exists_eq_add_one_of_ne_zero (Nat.ne_of_gt hpos)
      rw [hlist, readValue, hfuel, readItems_item hitem hitem.skipFiller .bracket]
      rfl
    | @cons item' v' items vs hitem' hitems =>
      refine ⟨⟨_, _, rfl, by decide, by decide⟩, fun rest _ => ?_⟩
      have hlist : list (item :: item' :: items) ++ rest =
          '[' :: '\n' :: ((item :: item' :: items).flatMap itemLine ++ ']' :: rest) := by
        rw [show list (item :: item' :: items) =
          "[\n".toList ++ (item :: item' :: items).flatMap itemLine ++ [']'] from rfl]
        simp
      have hfuel : (item :: item' :: items).length <
          ('\n' :: ((item :: item' :: items).flatMap itemLine ++ ']' :: rest)).length := by
        have hlines := length_le_itemLines (item :: item' :: items)
        rw [List.length_cons (a := '\n'), List.length_append]
        omega
      rw [hlist, readValue, readItems_lines (.cons hitem (.cons hitem' hitems)) hfuel]
      rfl

end

end SeamlessTunnel.Toml
