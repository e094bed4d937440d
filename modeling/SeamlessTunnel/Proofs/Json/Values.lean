import Mathlib.Tactic.IntervalCases
import SeamlessTunnel.Address.Printer
import SeamlessTunnel.Json.Reader
import SeamlessTunnel.Proofs.Address.RoundTrip
/-
  SeamlessTunnel.Proofs.Json.Values — written JSON values read back.

  `Writes text v` says that `text` is read as `v`, in front of whatever may follow a value
  (`Ends`), with twice its length as fuel. Flags, numbers of 64 bits and strings of any
  characters are written so, and lists and records of what is written so. A string escapes
  quotes, backslashes and control characters, by a letter where there is one.
-/

namespace SeamlessTunnel.Json

open Address (joined)

/-! ## Written forms -/

/-- The letter that escapes a character. -/
def escapeLetter : Char → Option Char
  | '"' => some '"'
  | '\\' => some '\\'
  | '\x08' => some 'b'
  | '\x0c' => some 'f'
  | '\n' => some 'n'
  | '\r' => some 'r'
  | '\t' => some 't'
  | _ => none

/-- A character between quotes. -/
def escapeChar (c : Char) : List Char :=
  match escapeLetter c with
  | some e => ['\\', e]
  | none =>
    if c.toNat < 32 then
      ['\\', 'u', '0', '0', Text.digitChar (c.toNat / 16), Text.digitChar (c.toNat % 16)]
    else [c]

def quoted (cs : List Char) : List Char :=
  '"' :: (cs.flatMap escapeChar ++ ['"'])

def flag (b : Bool) : List Char :=
  if b then "true".toList else "false".toList

def list (items : List (List Char)) : List Char :=
  '[' :: (joined ',' items ++ [']'])

/-- A key and a written value. -/
def member (field : List Char × List Char) : List Char :=
  quoted field.1 ++ ':' :: field.2

def record (fields : List (List Char × List Char)) : List Char :=
  '\x7b' :: (joined ',' (fields.map member) ++ ['\x7d'])

/-! ## Reading them -/

/-- Whether a text ends or goes on as a list or a record does behind a value. -/
def Ends (rest : List Char) : Prop :=
  ∀ c, rest.head? = some c → c ∈ [',', ']', '\x7d']

/-- A text that reads as a value. -/
structure Writes (text : List Char) (v : Json) : Prop where
  starts : ∃ c cs, text = c :: cs ∧ c ∉ [' ', '\t', '\n', '\r', ']']
  reads : ∀ fuel rest, 2 * text.length ≤ fuel → Ends rest →
    readValue fuel (text ++ rest) = some (v, rest)

section

variable {n d fuel : Nat} {c e : Char} {b : Bool} {cs rest text : List Char} {v : Json}
  {units : List StringUnit}

theorem Ends.nil : Ends [] := nofun

theorem Ends.cons (h : c ∈ [',', ']', '\x7d']) : Ends (c :: rest) := by
  intro d hd
  rwa [← Option.some.inj hd]

/-- What may follow a value: nothing, or one of three characters. -/
theorem Ends.cases (h : Ends rest) :
    rest = [] ∨ ∃ after, rest = ',' :: after ∨ rest = ']' :: after ∨ rest = '\x7d' :: after := by
  cases rest with
  | nil => exact .inl rfl
  | cons c after =>
    right
    refine ⟨after, ?_⟩
    have hc := h c rfl
    simp only [List.mem_cons, List.not_mem_nil, or_false] at hc
    rcases hc with rfl | rfl | rfl
    · exact .inl rfl
    · exact .inr (.inl rfl)
    · exact .inr (.inr rfl)

theorem Writes.length_pos (h : Writes text v) : 0 < text.length := by
  obtain ⟨c, cs, rfl, -⟩ := h.starts
  exact Nat.succ_pos _

/-! ## Flags -/

theorem writes_flag : Writes (flag b) (.bool b) where
  starts := by cases b <;> exact ⟨_, _, rfl, by decide⟩
  reads fuel rest hfuel _ := by
    cases fuel with
    | zero => cases b <;> exact absurd hfuel (by decide)
    | succ fuel => cases b <;> rfl

/-! ## Numbers -/

theorem readDigits_decimal (h : Ends rest) :
    readDigits (Text.decimal n ++ rest) = some (Text.digits 10 n, rest) := by
  have hnone : Text.NoDigitAhead 10 rest := by
    obtain rfl | ⟨after, rfl | rfl | rfl⟩ := h.cases
    · exact .nil
    all_goals exact .cons rfl
  have hread := Text.leadingDigits_render (n := n) (by decide) (by decide) hnone
  obtain ⟨d, ds, hds⟩ := List.exists_cons_of_ne_nil (Text.digits_ne_nil 10 n)
  rw [readDigits, Text.decimal, hread, hds]

theorem readFraction_of_ends (h : Ends rest) : readFraction rest = some (false, rest) := by
  obtain rfl | ⟨after, rfl | rfl | rfl⟩ := h.cases <;> rfl

theorem readExponent_of_ends (h : Ends rest) : readExponent rest = some (false, rest) := by
  obtain rfl | ⟨after, rfl | rfl | rfl⟩ := h.cases <;> rfl

theorem fits_of_lt (h : n < UInt64.size) : fits n = true := by
  have hmin : Int64.minValue.toInt ≤ 0 := by decide
  simp only [fits, Bool.and_eq_true, decide_eq_true_eq]
  omega

/-- A number goes on behind its sign, which a decimal does not have. -/
theorem readNumber_decimal (h : n < UInt64.size) (hrest : Ends rest) :
    readNumber (Text.decimal n ++ rest) = some (.int n, rest) := by
  have hdigits := readDigits_decimal (n := n) hrest
  have hzero : ¬ (1 < (Text.digits 10 n).length ∧ (Text.digits 10 n).head? = some 0) :=
    Text.not_padded (by decide)
  have hvalue : Text.ofDigits 10 (Text.digits 10 n) = n := Text.ofDigits_digits
  unfold readNumber
  split
  · rename_i negative after hsign
    split at hsign
    · rename_i heq
      have hne : Text.decimal n ≠ [] := Text.render_ne_nil
      have hdigit : '-' ∈ Text.decimal n := by
        obtain ⟨c, cs, hcs⟩ := List.exists_cons_of_ne_nil hne
        rw [hcs] at heq ⊢
        rw [(List.cons.inj heq).1]
        exact List.mem_cons_self
      exact absurd (Text.isDigit_of_mem_decimal hdigit) (by decide)
    · obtain ⟨rfl, rfl⟩ := Prod.mk.inj hsign
      simp [hdigits, hzero, readFraction_of_ends hrest, readExponent_of_ends hrest, hvalue,
        fits_of_lt h]

/-- A text that begins with a digit is a number. -/
theorem readValue_digit (hd : d < 10) :
    readValue (fuel + 1) (Text.digitChar d :: cs) = readNumber (Text.digitChar d :: cs) := by
  interval_cases d <;> rfl

theorem writes_decimal (h : n < UInt64.size) : Writes (Text.decimal n) (.int n) := by
  obtain ⟨d, ds, hds⟩ := List.exists_cons_of_ne_nil (Text.digits_ne_nil 10 n)
  have htext : Text.decimal n = Text.digitChar d :: ds.map Text.digitChar := by
    rw [Text.decimal, Text.render_eq, hds, List.map_cons]
  have hd : d < 10 := Text.lt_of_mem_digits (n := n) (by decide) (by rw [hds]; exact List.mem_cons_self)
  constructor
  · have hchar : ∀ d < 10, Text.digitChar d ∉ [' ', '\t', '\n', '\r', ']'] := by decide
    exact ⟨_, _, htext, hchar d hd⟩
  · intro fuel rest hfuel hrest
    have hread := readNumber_decimal h hrest
    rw [htext] at hfuel hread ⊢
    obtain ⟨fuel, rfl⟩ := Nat.exists_eq_add_one_of_ne_zero (n := fuel) (by
      rintro rfl
      exact absurd hfuel (by simp))
    rw [List.cons_append] at hread ⊢
    rw [readValue_digit hd, hread]

/-! ## Strings -/

theorem simpleEscape_of_escapeLetter (h : escapeLetter c = some e) :
    simpleEscape e = some c ∧ e ≠ 'u' := by
  unfold escapeLetter at h
  split at h
  all_goals first
    | (obtain rfl := Option.some.inj h; decide)
    | cases h

/-- Quotes and backslashes are escaped by a letter. -/
theorem ne_of_escapeLetter (h : escapeLetter c = none) : c ≠ '"' ∧ c ≠ '\\' := by
  constructor
  all_goals
    rintro rfl
    cases h

theorem readUnits_letter (h : simpleEscape e = some c) (he : e ≠ 'u') :
    readUnits ('\\' :: e :: rest) = (readUnits rest).map fun r => (.char c :: r.1, r.2) := by
  rw [readUnits]
  · rw [h]
    cases readUnits rest <;> rfl
  · simp [he]

theorem readUnits_number (h : n < 256) :
    readUnits ('\\' :: 'u' :: '0' :: '0' :: Text.digitChar (n / 16) :: Text.digitChar (n % 16) :: rest) =
      (readUnits rest).map fun r => (.half n :: r.1, r.2) := by
  have hvalue : ∀ d < 16, Text.hexValue? (Text.digitChar d) = some d := by decide
  have hdigits : ['0', '0', Text.digitChar (n / 16), Text.digitChar (n % 16)].mapM Text.hexValue? =
      some [0, 0, n / 16, n % 16] := by
    have hzero : Text.hexValue? '0' = some 0 := rfl
    simp [hzero, hvalue (n / 16) (by omega), hvalue (n % 16) (by omega)]
  have hnumber : Text.ofDigits 16 [0, 0, n / 16, n % 16] = n := by
    simp only [Text.ofDigits, List.foldl_cons, List.foldl_nil]
    omega
  rw [readUnits, hdigits]
  simp only [Option.bind_eq_bind, Option.bind_some, hnumber]
  cases readUnits rest <;> rfl

theorem joinUnits_half (h : n < 0xD800) :
    joinUnits (.half n :: units) = (joinUnits units).map (Char.ofNat n :: ·) := by
  have hhigh : ¬ 0xD800 ≤ n := by omega
  have hlow : ¬ 0xDC00 ≤ n := by omega
  cases units with
  | nil => simp [joinUnits, hhigh]
  | cons u units => cases u <;> simp [joinUnits, hhigh, hlow]

/-- A written character is one unit, which stands for the character. -/
theorem readUnits_escapeChar : ∃ u,
    (∀ rest, readUnits (escapeChar c ++ rest) = (readUnits rest).map fun r => (u :: r.1, r.2)) ∧
    ∀ units, joinUnits (u :: units) = (joinUnits units).map (c :: ·) := by
  unfold escapeChar
  split
  · rename_i e he
    obtain ⟨hsimple, hu⟩ := simpleEscape_of_escapeLetter he
    exact ⟨.char c, fun rest => readUnits_letter hsimple hu, fun _ => rfl⟩
  · rename_i he
    by_cases hcontrol : c.toNat < 32
    · refine ⟨.half c.toNat, fun rest => ?_, fun units => ?_⟩
      · rw [if_pos hcontrol]
        exact readUnits_number (by omega)
      · rw [joinUnits_half (by omega), Char.ofNat_toNat]
    · obtain ⟨hquote, hslash⟩ := ne_of_escapeLetter he
      refine ⟨.char c, fun rest => ?_, fun _ => rfl⟩
      rw [if_neg hcontrol, List.singleton_append, readUnits]
      · rw [if_neg (by simp [hcontrol, hslash])]
        cases readUnits rest <;> rfl
      all_goals simp [hquote, hslash]

theorem readUnits_escaped (cs rest : List Char) : ∃ units,
    readUnits (cs.flatMap escapeChar ++ '"' :: rest) = some (units, rest) ∧
    joinUnits units = some cs := by
  induction cs with
  | nil => exact ⟨[], rfl, rfl⟩
  | cons c cs ih =>
    obtain ⟨units, hread, hjoin⟩ := ih
    obtain ⟨u, hread', hjoin'⟩ := readUnits_escapeChar (c := c)
    refine ⟨u :: units, ?_, ?_⟩
    · rw [List.flatMap_cons, List.append_assoc, hread', hread]
      rfl
    · rw [hjoin', hjoin]
      rfl

theorem readString_escaped :
    readString (cs.flatMap escapeChar ++ '"' :: rest) = some (some cs, rest) := by
  obtain ⟨units, hread, hjoin⟩ := readUnits_escaped cs rest
  rw [readString, hread]
  simp only [Option.map_some, hjoin]

theorem quoted_append : quoted cs ++ rest = '"' :: (cs.flatMap escapeChar ++ '"' :: rest) := by
  simp [quoted]

theorem writes_quoted : Writes (quoted cs) (.string (some cs)) where
  starts := ⟨_, _, rfl, by decide⟩
  reads fuel rest hfuel _ := by
    cases fuel with
    | zero => exact absurd hfuel (by simp [quoted])
    | succ fuel =>
      have hblank : skipBlanks ('"' :: (cs.flatMap escapeChar ++ '"' :: rest)) =
          '"' :: (cs.flatMap escapeChar ++ '"' :: rest) := rfl
      rw [quoted_append, readValue, hblank]
      simp only [readString_escaped, Option.map_some]

/-! ## Lists -/

theorem joined_cons_cons {sep : Char} {t t' : List Char} {ts : List (List Char)} :
    joined sep (t :: t' :: ts) = t ++ sep :: joined sep (t' :: ts) := rfl

theorem skipBlanks_of_head (h : c ∉ [' ', '\t', '\n', '\r', ']']) :
    skipBlanks (c :: cs) = c :: cs := by
  simp only [List.mem_cons, List.not_mem_nil, or_false, not_or] at h
  simp [skipBlanks, h]

theorem readItems_joined {items : List (List Char)} {vs : List Json}
    (h : List.Forall₂ Writes items vs) (hne : items ≠ [])
    (hfuel : 2 * (joined ',' items).length + 1 ≤ fuel) :
    readItems fuel (joined ',' items ++ ']' :: rest) = some (vs, rest) := by
  induction h generalizing fuel with
  | nil => exact absurd rfl hne
  | @cons item v items vs hitem hitems ih =>
    obtain ⟨fuel, rfl⟩ := Nat.exists_eq_add_one_of_ne_zero (n := fuel) (by omega)
    cases hitems with
    | nil =>
      have hread := hitem.reads fuel (']' :: rest) (Nat.le_of_succ_le_succ hfuel) (.cons (by decide))
      rw [joined, readItems, hread]
      rfl
    | @cons item' v' items vs hitem' hitems =>
      rw [joined_cons_cons, List.length_append, List.length_cons] at hfuel
      have hpos := hitem.length_pos
      have hread := hitem.reads fuel (',' :: (joined ',' (item' :: items) ++ ']' :: rest))
        (by omega) (.cons (by decide))
      have hmore : readItems fuel (joined ',' (item' :: items) ++ ']' :: rest) = some (v' :: vs, rest) :=
        ih (List.cons_ne_nil _ _) (by omega)
      have hcomma : skipBlanks (',' :: (joined ',' (item' :: items) ++ ']' :: rest)) =
          ',' :: (joined ',' (item' :: items) ++ ']' :: rest) := rfl
      rw [joined_cons_cons, List.append_assoc, List.cons_append, readItems, hread]
      simp only [Option.bind_eq_bind, Option.bind_some, hcomma, hmore, Option.pure_def]

theorem writes_list {items : List (List Char)} {vs : List Json}
    (h : List.Forall₂ Writes items vs) : Writes (list items) (.array vs) where
  starts := ⟨_, _, rfl, by decide⟩
  reads fuel rest hfuel _ := by
    obtain ⟨fuel, rfl⟩ := Nat.exists_eq_add_one_of_ne_zero (n := fuel) (by
      rintro rfl
      exact absurd hfuel (by simp [list]))
    cases h with
    | nil => rfl
    | @cons item v items vs hitem hitems =>
      have htext : list (item :: items) ++ rest =
          '[' :: (joined ',' (item :: items) ++ ']' :: rest) := by
        simp [list]
      have hlength : 2 * (joined ',' (item :: items)).length + 1 ≤ fuel := by
        simp only [list, List.length_cons, List.length_append] at hfuel
        omega
      have hread : readItems fuel (joined ',' (item :: items) ++ ']' :: rest) = some (v :: vs, rest) :=
        readItems_joined (.cons hitem hitems) (List.cons_ne_nil _ _) hlength
      obtain ⟨c, cs, hfirst, hc⟩ := hitem.starts
      have hhead : joined ',' (item :: items) ++ ']' :: rest =
          c :: (cs ++ (items.flatMap (',' :: ·) ++ ']' :: rest)) := by
        rw [Address.joined_cons, hfirst, List.cons_append, List.cons_append, List.append_assoc]
      have hbracket : c ≠ ']' := by
        rintro rfl
        exact hc (by decide)
      rw [htext, readValue, hhead, skipBlanks_of_head (by decide)]
      rw [hhead] at hread
      simp only [skipBlanks_of_head hc, hread, Option.map_some]
      split
      · rename_i heq
        exact absurd (List.cons.inj heq).1 hbracket
      · rfl

/-! ## Records -/

theorem readFields_joined {fields : List (List Char × List Char)} {vs : List Json}
    (h : List.Forall₂ (fun field v => Writes field.2 v) fields vs) (hne : fields ≠ [])
    (hfuel : 2 * (joined ',' (fields.map member)).length + 1 ≤ fuel) :
    readFields fuel (joined ',' (fields.map member) ++ '\x7d' :: rest) =
      some ((fields.map fun field => some field.1).zip vs, rest) := by
  induction h generalizing fuel with
  | nil => exact absurd rfl hne
  | @cons field v fields vs hvalue hfields ih =>
    obtain ⟨key, text⟩ := field
    have hvalue : Writes text v := hvalue
    obtain ⟨fuel, rfl⟩ := Nat.exists_eq_add_one_of_ne_zero (n := fuel) (by omega)
    have hmember : ∀ rest, member (key, text) ++ rest =
        '"' :: (key.flatMap escapeChar ++ '"' :: ':' :: (text ++ rest)) := by
      intro rest
      simp [member, quoted]
    have hlength : (member (key, text)).length = (quoted key).length + (text.length + 1) := by
      rw [member, List.length_append, List.length_cons]
    cases hfields with
    | nil =>
      have hread := hvalue.reads fuel ('\x7d' :: rest)
        (by simp only [List.map_cons, List.map_nil, joined, hlength] at hfuel; omega)
        (.cons (by decide))
      rw [List.map_cons, List.map_nil, joined, hmember, readFields, skipBlanks_of_head (by decide)]
      simp only [readString_escaped, Option.bind_eq_bind, Option.bind_some,
        skipBlanks_of_head (c := ':') (by decide), hread]
      rfl
    | @cons field' v' fields vs hvalue' hfields =>
      rw [List.map_cons, List.map_cons, joined_cons_cons, List.length_append, List.length_cons,
        ← List.map_cons, hlength] at hfuel
      have hmore := @ih fuel (List.cons_ne_nil _ _) (by omega)
      rw [List.map_cons, List.map_cons, joined_cons_cons, ← List.map_cons, List.append_assoc,
        List.cons_append, hmember, readFields, skipBlanks_of_head (by decide)]
      generalize joined ',' ((field' :: fields).map member) = more at *
      have hread := hvalue.reads fuel (',' :: (more ++ '\x7d' :: rest)) (by omega)
        (.cons (by decide))
      simp only [readString_escaped, Option.bind_eq_bind, Option.bind_some,
        skipBlanks_of_head (c := ':') (by decide), hread, skipBlanks_of_head (c := ',') (by decide),
        hmore, Option.pure_def, List.map_cons, List.zip_cons_cons]

theorem writes_record {fields : List (List Char × List Char)} {vs : List Json}
    (h : List.Forall₂ (fun field v => Writes field.2 v) fields vs) :
    Writes (record fields) (.object ((fields.map fun field => some field.1).zip vs)) where
  starts := ⟨_, _, rfl, by decide⟩
  reads fuel rest hfuel _ := by
    obtain ⟨fuel, rfl⟩ := Nat.exists_eq_add_one_of_ne_zero (n := fuel) (by
      rintro rfl
      exact absurd hfuel (by simp [record]))
    cases h with
    | nil => rfl
    | @cons field v fields vs hvalue hfields =>
      have htext : record (field :: fields) ++ rest =
          '\x7b' :: (joined ',' ((field :: fields).map member) ++ '\x7d' :: rest) := by
        simp [record]
      have hlength : 2 * (joined ',' ((field :: fields).map member)).length + 1 ≤ fuel := by
        simp only [record, List.length_cons, List.length_append] at hfuel
        omega
      have hread := @readFields_joined fuel rest _ _ (.cons hvalue hfields) (List.cons_ne_nil _ _)
        hlength
      have hhead : joined ',' ((field :: fields).map member) ++ '\x7d' :: rest =
          '"' :: ((joined ',' ((field :: fields).map member) ++ '\x7d' :: rest).tail) := by
        rw [List.map_cons, Address.joined_cons]
        rfl
      rw [htext, readValue, hhead, skipBlanks_of_head (by decide)]
      rw [hhead] at hread
      simp only [skipBlanks_of_head (c := '"') (by decide), hread, Option.map_some]
      rfl

/-! ## Whole texts -/

theorem ofChars?_of_writes (h : Writes text v) : ofChars? text = some v := by
  have hread := h.reads (2 * text.length + 2) [] (by omega) .nil
  rw [List.append_nil] at hread
  rw [ofChars?, hread]
  rfl

end

end SeamlessTunnel.Json
