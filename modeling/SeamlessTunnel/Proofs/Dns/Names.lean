import Mathlib.Data.List.Forall2
import SeamlessTunnel.Dns.Basic
import SeamlessTunnel.Proofs.Prefix.Lengths
import SeamlessTunnel.Proofs.Text.Joined
/-
  SeamlessTunnel.Proofs.Dns.Names — search domains come out in one form.

  A search domain is kept exactly if it is a domain (`IsDomain`) once one dot at its end is
  taken away, and it is kept with that dot (`qualified?_eq`). No domain ends with a dot, so
  it makes no difference to a second reading whether the dot is written
  (`qualified?_of_undotted`); nor do nameservers change, which are written as they are read.
  So the platform's text is brought to a normal form (`normalised_ofPlatform`).
-/

namespace SeamlessTunnel.Dns

open Address (joined)

/-- One to 63 letters and digits of ASCII, hyphens and underscores, with no hyphen at either
    end. -/
structure IsLabelText (l : List Char) : Prop where
  length : 1 ≤ l.length ∧ l.length ≤ 63
  chars : ∀ c ∈ l, c.isAlphanum = true ∨ c = '-' ∨ c = '_'
  first : l.head? ≠ some '-'
  last : l.getLast? ≠ some '-'

/-- Labels with dots between them, in 1 to 253 bytes. -/
structure IsDomain (d : String) : Prop where
  size : 1 ≤ d.utf8ByteSize ∧ d.utf8ByteSize ≤ 253
  labels : ∃ ls, ls ≠ [] ∧ d.toList = joined '.' ls ∧ ∀ l ∈ ls, IsLabelText l

/-- The texts that stand for search domains. -/
def domainEntries (cs : List Char) : List String :=
  (Text.words ((Text.pieces (· = '\n') cs).tail.headD [])).map String.ofList

/-- A text without one dot at its end. -/
def undotted (s : String) : String :=
  String.ofList (withoutDot s.toList)

/-- Settings as the platform would write them. -/
def written (nameservers : List Address) (domains : List String) : List Char :=
  joined ' ' (nameservers.map (·.render)) ++ '\n' :: joined ' ' (domains.map String.toList)

section

variable {c : Char} {cs l : List Char} {d t : String}

/-! ## Labels -/

theorem isLabel_iff : isLabel l = true ↔ IsLabelText l := by
  have hchars : l.all isLabelChar = true ↔ ∀ c ∈ l, c.isAlphanum = true ∨ c = '-' ∨ c = '_' := by
    simp [isLabelChar, or_assoc]
  have hempty : l.isEmpty = false ↔ 1 ≤ l.length := by
    cases l <;> simp
  simp only [isLabel, Bool.and_eq_true, Bool.not_eq_true', decide_eq_true_eq, bne_iff_ne, hchars,
    hempty]
  constructor
  · rintro ⟨⟨⟨⟨hpos, hle⟩, hfirst⟩, hlast⟩, hchars⟩
    exact ⟨⟨hpos, hle⟩, hchars, hfirst, hlast⟩
  · rintro ⟨⟨hpos, hle⟩, hchars, hfirst, hlast⟩
    exact ⟨⟨⟨⟨hpos, hle⟩, hfirst⟩, hlast⟩, hchars⟩

theorem IsLabelText.ne_dot (h : IsLabelText l) : ∀ c ∈ l, c ≠ '.' := by
  rintro c hc rfl
  have hdot := h.chars '.' hc
  exact absurd hdot (by decide)

/-- Labels are of visible characters of ASCII. -/
theorem visible_of_isLabelChar (h : c.isAlphanum = true ∨ c = '-' ∨ c = '_') :
    33 ≤ c.toNat ∧ c.toNat ≤ 126 := by
  rcases h with h | rfl | rfl
  · delta Char.isAlphanum Char.isAlpha Char.isUpper Char.isLower Char.isDigit at h
    simp only [Bool.or_eq_true, Bool.and_eq_true, decide_eq_true_eq, UInt32.le_iff_toNat_le,
      ge_iff_le] at h
    have hvalue : c.toNat = c.val.toNat := rfl
    have hfirst : 'A'.val.toNat = 65 ∧ 'a'.val.toNat = 97 ∧ '0'.val.toNat = 48 := ⟨rfl, rfl, rfl⟩
    have hlast : 'Z'.val.toNat = 90 ∧ 'z'.val.toNat = 122 ∧ '9'.val.toNat = 57 := ⟨rfl, rfl, rfl⟩
    omega
  · decide
  · decide

theorem visible_of_mem_joined {ls : List (List Char)} (h : ∀ l ∈ ls, IsLabelText l) :
    ∀ c ∈ joined '.' ls, 33 ≤ c.toNat ∧ c.toNat ≤ 126 :=
  Address.forall_mem_joined (P := fun c => 33 ≤ c.toNat ∧ c.toNat ≤ 126) (by decide)
    fun l hl c hc => visible_of_isLabelChar ((h l hl).chars c hc)

/-! ## Domains -/

theorem utf8ByteSize_of_ascii (h : ∀ c ∈ cs, c.toNat < 128) :
    (String.ofList cs).utf8ByteSize = cs.length := by
  induction cs with
  | nil => rfl
  | cons c cs ih =>
    obtain ⟨hc, hcs⟩ := List.forall_mem_cons.1 h
    have hone : c.utf8Size = 1 :=
      Char.utf8Size_eq_one_iff.2 (UInt32.le_iff_toNat_le.2 (Nat.le_of_lt_succ hc))
    rw [String.ofList_cons, String.utf8ByteSize_append, String.utf8ByteSize_singleton, hone, ih hcs,
      List.length_cons, Nat.add_comm]

theorem utf8ByteSize_joined {ls : List (List Char)} (h : ∀ l ∈ ls, IsLabelText l) :
    (String.ofList (joined '.' ls)).utf8ByteSize = (joined '.' ls).length := by
  apply utf8ByteSize_of_ascii
  intro c hc
  have hvisible := visible_of_mem_joined h c hc
  omega

theorem isName_iff : isName cs = true ↔ IsDomain (String.ofList cs) := by
  have hempty : cs.isEmpty = false ↔ 1 ≤ cs.length := by
    cases cs <;> simp
  simp only [isName, Bool.and_eq_true, Bool.not_eq_true', decide_eq_true_eq, hempty, List.all_eq_true,
    isLabel_iff]
  constructor
  · rintro ⟨⟨hpos, hle⟩, hlabels⟩
    have hcs := Text.joined_pieces '.' cs
    have hsize := utf8ByteSize_joined hlabels
    rw [hcs] at hsize
    refine ⟨by omega, Text.pieces (· = '.') cs, Text.pieces_ne_nil _ _, ?_, hlabels⟩
    rw [String.toList_ofList, hcs]
  · rintro ⟨⟨hpos, hle⟩, ls, hne, hcs, hls⟩
    rw [String.toList_ofList] at hcs
    have hsize := utf8ByteSize_joined hls
    rw [← hcs] at hsize
    rw [hcs, Text.pieces_joined hne fun l hl => (hls l hl).ne_dot, ← hcs]
    exact ⟨⟨by omega, by omega⟩, hls⟩

theorem isName_toList : isName d.toList = true ↔ IsDomain d := by
  rw [isName_iff, String.ofList_toList]

instance : DecidablePred IsDomain := fun _ => decidable_of_iff _ isName_toList

/-- No domain ends with a dot, because no label is empty. -/
theorem getLast?_of_isName (h : isName cs = true) : cs.getLast? ≠ some '.' := by
  intro hlast
  obtain ⟨init, rfl⟩ := List.getLast?_eq_some_iff.1 hlast
  have hpieces : Text.pieces (· = '.') (init ++ ['.']) = Text.pieces (· = '.') init ++ [[]] :=
    Text.pieces_append (by decide)
  have hlabel : isLabel [] = true := by
    simp only [isName, Bool.and_eq_true, List.all_eq_true, hpieces] at h
    exact h.2 [] (by simp)
  cases hlabel

theorem withoutDot_of_isName (h : isName cs = true) : withoutDot cs = cs :=
  if_neg (getLast?_of_isName h)

theorem withoutDot_concat : withoutDot (cs ++ ['.']) = cs := by
  simp [withoutDot]

/-! ## Entries -/

theorem qualified?_concat (h : isName cs = true) : qualified? (cs ++ ['.']) = some (cs ++ ['.']) := by
  simp only [qualified?, withoutDot_concat, h, if_true]

theorem qualified?_of_isName (h : isName cs = true) : qualified? cs = some (cs ++ ['.']) := by
  simp only [qualified?, withoutDot_of_isName h, h, if_true]

/-- An entry is kept exactly if it is a domain less one dot, and with that dot. -/
theorem filterMap_qualified? (entries : List (List Char)) :
    (entries.filterMap qualified?).map String.ofList =
      ((entries.map String.ofList).filter fun e => IsDomain (undotted e)).map (undotted · ++ ".") := by
  induction entries with
  | nil => rfl
  | cons e entries ih =>
    have hdomain : IsDomain (undotted (String.ofList e)) ↔ isName (withoutDot e) = true := by
      rw [undotted, String.toList_ofList, isName_iff]
    by_cases hname : isName (withoutDot e) = true
    · have hkept : qualified? e = some (withoutDot e ++ ['.']) := if_pos hname
      have htext : String.ofList (withoutDot e ++ ['.']) = undotted (String.ofList e) ++ "." := by
        simp [undotted]
      rw [List.filterMap_cons_some hkept, List.map_cons, List.map_cons, ih, htext, List.filter_cons,
        if_pos (decide_eq_true (hdomain.2 hname)), List.map_cons]
    · have hskipped : qualified? e = none := if_neg hname
      rw [List.filterMap_cons_none hskipped, List.map_cons, ih, List.filter_cons,
        if_neg (by simpa using mt hdomain.1 hname)]

theorem exists_of_mem_searchDomains (h : d ∈ (ofPlatform cs).searchDomains) :
    ∃ b, d = b ++ "." ∧ IsDomain b := by
  rw [ofPlatform, filterMap_qualified?] at h
  obtain ⟨e, he, rfl⟩ := List.mem_map.1 h
  exact ⟨undotted e, rfl, of_decide_eq_true (List.mem_filter.1 he).2⟩

theorem IsDomain.ne_dotted (h : IsDomain d) (b : String) : d ≠ b ++ "." := by
  rintro rfl
  refine getLast?_of_isName (isName_toList.2 h) ?_
  simp

/-! ## Writing and reading again -/

theorem IsDomain.visible (h : IsDomain d) : ∀ c ∈ d.toList, 33 ≤ c.toNat ∧ c.toNat ≤ 126 := by
  obtain ⟨ls, -, hd, hls⟩ := h.labels
  rw [hd]
  exact visible_of_mem_joined hls

/-- A domain is read alike with the dot at its end and without. -/
theorem qualified?_of_undotted {b : String} (hd : d = b ++ ".") (hb : IsDomain b)
    (ht : t = d ∨ t ++ "." = d) : qualified? t.toList = some d.toList := by
  have hname := isName_toList.2 hb
  subst hd
  rcases ht with rfl | ht
  · rw [String.toList_append]
    exact qualified?_concat hname
  · obtain rfl : t = b := by simpa using ht
    rw [String.toList_append]
    exact qualified?_of_isName hname

/-- A domain with the dot at its end or without is one word. -/
theorem isWord_of_undotted {b : String} (hd : d = b ++ ".") (hb : IsDomain b)
    (ht : t = d ∨ t ++ "." = d) : t.toList ≠ [] ∧ ∀ c ∈ t.toList, Text.isBlank c = false := by
  have hvisible : ∀ c ∈ t.toList, 33 ≤ c.toNat ∧ c.toNat ≤ 126 := by
    subst hd
    rcases ht with rfl | ht
    · rw [String.toList_append]
      exact List.forall_mem_append.2 ⟨hb.visible, List.forall_mem_singleton.2 (by decide)⟩
    · obtain rfl : t = b := by simpa using ht
      exact hb.visible
  have hread := qualified?_of_undotted hd hb ht
  refine ⟨?_, fun c hc => Text.notBlank_of_visible (hvisible c hc)⟩
  intro hnil
  rw [hnil] at hread
  cases hread

theorem notBlank_of_mem_render {a : Address} : ∀ c ∈ a.render, Text.isBlank c = false := by
  have hdigit : ∀ d < 16, Text.isBlank (Text.digitChar d) = false := by decide
  exact Address.forall_mem_render (P := (Text.isBlank · = false)) hdigit (by decide) (by decide)

/-- No line feed stands between words. -/
theorem ne_lineFeed_of_mem_joined {ts : List (List Char)}
    (h : ∀ t ∈ ts, t ≠ [] ∧ ∀ c ∈ t, Text.isBlank c = false) : ∀ c ∈ joined ' ' ts, c ≠ '\n' := by
  apply Address.forall_mem_joined (P := (· ≠ '\n')) (by decide)
  rintro t ht c hc rfl
  exact absurd ((h t ht).2 _ hc) (by decide)

/-- Two lines of words are read word by word. -/
theorem ofPlatform_lines {first second : List (List Char)}
    (hfirst : ∀ t ∈ first, t ≠ [] ∧ ∀ c ∈ t, Text.isBlank c = false)
    (hsecond : ∀ t ∈ second, t ≠ [] ∧ ∀ c ∈ t, Text.isBlank c = false) :
    ofPlatform (joined ' ' first ++ '\n' :: joined ' ' second) =
      ⟨first.filterMap Address.ofChars?, (second.filterMap qualified?).map String.ofList⟩ := by
  have hlines : Text.pieces (· = '\n') (joined ' ' first ++ '\n' :: joined ' ' second) =
      [joined ' ' first, joined ' ' second] := by
    rw [Text.pieces_append (by decide), Text.pieces_of_none, Text.pieces_of_none]
    · rfl
    · exact fun c hc => decide_eq_false (ne_lineFeed_of_mem_joined hsecond c hc)
    · exact fun c hc => decide_eq_false (ne_lineFeed_of_mem_joined hfirst c hc)
  have hwords : ∀ {ts : List (List Char)}, (∀ t ∈ ts, t ≠ [] ∧ ∀ c ∈ t, Text.isBlank c = false) →
      Text.words (joined ' ' ts) = ts := by
    intro ts h
    have hts : Text.words (joined ' ' ts ++ []) = ts := Text.words_joined h nofun
    rwa [List.append_nil] at hts
  simp only [ofPlatform, hlines, List.headD_cons, List.tail_cons, hwords hfirst, hwords hsecond]

theorem ofPlatform_written {nameservers : List Address} {domains texts : List String}
    (hdomains : ∀ d ∈ domains, ∃ b, d = b ++ "." ∧ IsDomain b)
    (h : List.Forall₂ (fun d t => t = d ∨ t ++ "." = d) domains texts) :
    ofPlatform (written nameservers texts) = ⟨nameservers, domains⟩ := by
  have hservers : ∀ t ∈ nameservers.map (·.render), t ≠ [] ∧ ∀ c ∈ t, Text.isBlank c = false :=
    List.forall_mem_map.2 fun a _ => ⟨Address.render_ne_nil, notBlank_of_mem_render⟩
  have hread : (nameservers.map (·.render)).filterMap Address.ofChars? = nameservers := by
    simp [List.filterMap_map, Address.ofChars?_render]
  have hkept : (∀ t ∈ texts.map String.toList, t ≠ [] ∧ ∀ c ∈ t, Text.isBlank c = false) ∧
      ((texts.map String.toList).filterMap qualified?).map String.ofList = domains := by
    induction h with
    | nil => exact ⟨nofun, rfl⟩
    | @cons d t domains texts ht _ ih =>
      obtain ⟨⟨b, hd, hb⟩, hdomains⟩ := List.forall_mem_cons.1 hdomains
      obtain ⟨hwords, htexts⟩ := ih hdomains
      refine ⟨List.forall_mem_cons.2 ⟨isWord_of_undotted hd hb ht, hwords⟩, ?_⟩
      rw [List.map_cons, List.filterMap_cons_some (qualified?_of_undotted hd hb ht), List.map_cons,
        String.ofList_toList, htexts]
  rw [written, ofPlatform_lines hservers hkept.1, hread, hkept.2]

/-- (1) Every search domain ends with exactly one dot and is a domain without it. (2) These are
    the entries of the second line, in order, that are domains less one dot. (3) Written with
    the dots or without, the settings are read again as they are. -/
theorem normalised_ofPlatform (cs : List Char) :
    (∀ d ∈ (ofPlatform cs).searchDomains, ∃ b, d = b ++ "." ∧ IsDomain b ∧ ∀ b', b ≠ b' ++ ".") ∧
    (ofPlatform cs).searchDomains =
      ((domainEntries cs).filter fun e => IsDomain (undotted e)).map (undotted · ++ ".") ∧
    ∀ texts, List.Forall₂ (fun d t => t = d ∨ t ++ "." = d) (ofPlatform cs).searchDomains texts →
      ofPlatform (written (ofPlatform cs).nameservers texts) = ofPlatform cs := by
  refine ⟨fun d hd => ?_, filterMap_qualified? _, fun texts h => ?_⟩
  · obtain ⟨b, hb, hdomain⟩ := exists_of_mem_searchDomains hd
    exact ⟨b, hb, hdomain, hdomain.ne_dotted⟩
  · exact ofPlatform_written (fun d hd => exists_of_mem_searchDomains hd) h

/-- Four labels `a...a`, the first three as long as can be. -/
def longName (lastLength : Nat) : List Char :=
  joined '.' ([63, 63, 63, lastLength].map (List.replicate · 'a'))

/-- A name of 253 bytes with its dot, one of 254, a label of 64, an empty label, two dots at
    the end, and a name that is kept without its dot. -/
theorem normalised_atTheLimits :
    let cs := "1.2.3.4 x\r\n".toList ++ (longName 61 ++ ". ".toList) ++ (longName 62 ++ [' ']) ++
      (List.replicate 64 'a' ++ " b..c d.. e_1\n-".toList)
    let longest := String.ofList (longName 61)
    ofPlatform cs = ⟨[.ofNat .ipv4 0x01020304], [longest ++ ".", "e_1."]⟩ ∧
    (∃ b, longest ++ "." = b ++ "." ∧ IsDomain b ∧ ∀ b', b ≠ b' ++ ".") ∧
    List.Forall₂ (fun d t => t = d ∨ t ++ "." = d) [longest ++ ".", "e_1."] [longest, "e_1."] ∧
    ofPlatform (written [.ofNat .ipv4 0x01020304] [longest, "e_1."]) =
      ⟨[.ofNat .ipv4 0x01020304], [longest ++ ".", "e_1."]⟩ := by
  intro cs longest
  have hread : ofPlatform cs = ⟨[.ofNat .ipv4 0x01020304], [longest ++ ".", "e_1."]⟩ := by
    decide +kernel
  have hundotted : List.Forall₂ (fun d t => t = d ∨ t ++ "." = d) [longest ++ ".", "e_1."]
      [longest, "e_1."] := .cons (.inr rfl) (.cons (.inl rfl) .nil)
  obtain ⟨hdomains, -, hwritten⟩ := normalised_ofPlatform cs
  rw [hread] at hdomains hwritten
  exact ⟨hread, hdomains _ List.mem_cons_self, hundotted, hwritten _ hundotted⟩

end

end SeamlessTunnel.Dns
