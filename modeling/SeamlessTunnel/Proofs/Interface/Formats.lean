import SeamlessTunnel.Proofs.Interface.Lines
import SeamlessTunnel.Proofs.Json.Values
import SeamlessTunnel.Proofs.Prefix.RoundTrip
import SeamlessTunnel.Proofs.Text.Joined
/-
  SeamlessTunnel.Proofs.Interface.Formats — both formats carry the same interfaces.

  A list of interfaces is written one interface a line, or as a JSON array of objects. What
  a line has to leave out of a name are blanks and bars (`IsField`), and it has no place for
  an address without a length; JSON takes every name that is not empty. Each line and each
  object reads as the entry of its interface (`readLine_line`, `Writable.exists_object`), so that
  both texts give the list that was written, with nothing skipped (`formats_agree`).
-/

namespace SeamlessTunnel.Interface

open Address (joined)

/-! ## Written forms -/

/-- Whether a text can be one of the fields of a line. -/
structure IsField (cs : List Char) : Prop where
  ne_nil : cs ≠ []
  notBlank : ∀ c ∈ cs, Text.isBlank c = false
  notBar : ∀ c ∈ cs, c ≠ '|'

/-- Whether a line can hold an interface. -/
structure Writable (i : Interface) : Prop where
  name : IsField i.name.toList
  lengths : ∀ a ∈ i.addresses, ∃ p, a = .prefixed p

/-- The fields in front of the bar. -/
def fields (i : Interface) : List (List Char) :=
  [i.name.toList, Text.decimal i.index.toNat, Text.decimal i.mtu.toNat, Json.flag i.flags.up,
    Json.flag i.flags.broadcast, Json.flag i.flags.loopback, Json.flag i.flags.pointToPoint,
    Json.flag i.flags.multicast]

def line (i : Interface) : List Char :=
  joined ' ' i.fields ++ " | ".toList ++ joined ' ' (i.addresses.map (·.text.toList))

def inLines (is : List Interface) : List Char :=
  is.flatMap fun i => i.line ++ ['\n']

/-- An address as an object. Without a length there is nothing to write but its text. -/
def addressObject : InterfaceAddress → List Char
  | .prefixed p =>
    Json.record [("ip".toList, Json.quoted p.address.render),
      ("prefixLen".toList, Text.decimal p.length)]
  | .bare a zone => Json.record [("ip".toList, Json.quoted (InterfaceAddress.bare a zone).text.toList)]

def object (i : Interface) : List Char :=
  Json.record [
    ("name".toList, Json.quoted i.name.toList),
    ("index".toList, Text.decimal i.index.toNat),
    ("mtu".toList, Text.decimal i.mtu.toNat),
    ("up".toList, Json.flag i.flags.up),
    ("broadcast".toList, Json.flag i.flags.broadcast),
    ("loopback".toList, Json.flag i.flags.loopback),
    ("pointToPoint".toList, Json.flag i.flags.pointToPoint),
    ("multicast".toList, Json.flag i.flags.multicast),
    ("addrs".toList, Json.list (i.addresses.map addressObject))]

def inJson (is : List Interface) : List Char :=
  Json.list (is.map object)

/-- The listing that keeps all interfaces and all their addresses. -/
def Listing.whole (is : List Interface) : Listing where
  interfaces := is
  stats.interfaces := { total := is.length, parsed := is.length }
  stats.addresses :=
    { total := (is.map (·.addresses.length)).sum, parsed := (is.map (·.addresses.length)).sum }

/-- The entry of an interface all of whose addresses are read. -/
def entry (i : Interface) : Entry where
  interface := { i with addresses := [] }
  readings := i.addresses.map some

section

variable {i : Interface} {is : List Interface} {n : Nat} {b : Bool} {p : Prefix}
  {after : List Char} {ts : List (List Char)}

/-! ## Entries -/

theorem complete_entry : i.entry.complete = i := by
  simp [entry, Entry.complete]

theorem Tally.ofReadings_map_some {α : Type} (xs : List α) :
    ofReadings (xs.map some) = { total := xs.length, parsed := xs.length } := by
  simp [ofReadings, List.filter_map, Function.comp_def]

theorem ofEntries_entry : Listing.ofEntries .countEach [some i.entry] = .whole [i] := by
  have haddresses : Tally.ofReadings i.entry.readings = _ := Tally.ofReadings_map_some i.addresses
  have hcount := Tally.ofReadings_map_some [i.entry]
  rw [List.map_singleton] at hcount
  simp [ofEntries_eq, Listing.whole, complete_entry, hcount, haddresses]

theorem ofEntries_entries :
    Listing.ofEntries .countEach (is.map fun i => some i.entry) = .whole is := by
  induction is with
  | nil => rfl
  | cons i is ih =>
    have hsplit := ofEntries_append [some i.entry] (is.map fun i => some i.entry)
    rw [ofEntries_entry, ih] at hsplit
    rw [List.map_cons]
    refine hsplit.trans ?_
    simp [Listing.append, Listing.whole, Tally.add, Nat.add_comm]

/-! ## Lines -/

theorem isField_decimal : IsField (Text.decimal n) where
  ne_nil := Text.render_ne_nil
  notBlank _ hc := Prefix.notBlank_of_isDigit (Text.isDigit_of_mem_decimal hc)
  notBar c hc := by
    rintro rfl
    exact absurd (Text.isDigit_of_mem_decimal hc) (by decide)

theorem isField_flag : IsField (Json.flag b) := by
  cases b
  all_goals exact ⟨by decide, by simp [Json.flag, Text.isBlank], by simp [Json.flag]⟩

theorem isField_chars : IsField p.chars where
  ne_nil := Prefix.chars_ne_nil
  notBlank _ := Prefix.notBlank_of_mem_chars
  notBar := Prefix.forall_mem_chars (by decide) (by decide) (by decide) (by decide)

theorem Writable.isField_of_mem_fields (h : i.Writable) : ∀ t ∈ i.fields, IsField t := by
  simp only [fields, List.forall_mem_cons]
  exact ⟨h.name, isField_decimal, isField_decimal, isField_flag, isField_flag, isField_flag,
    isField_flag, isField_flag, nofun⟩

theorem words_joined (h : ∀ t ∈ ts, IsField t) (hafter : ∀ c ∈ after, Text.isBlank c = true) :
    Text.words (joined ' ' ts ++ after) = ts :=
  Text.words_joined (fun t ht => ⟨(h t ht).ne_nil, (h t ht).notBlank⟩) hafter

theorem readWord_decimal (w : UInt32) : readWord (Text.decimal w.toNat) = some w := by
  have hword : w.toNat ≤ UInt32.size - 1 := by
    have hlt := w.toNat_lt_size
    omega
  rw [readWord, Text.natural?_decimal hword, Option.map_some, UInt32.ofNat_toNat]

theorem readFlag_flag : readFlag (Json.flag b) = some b := by
  cases b <;> rfl

theorem readHeader_fields (h : i.Writable) :
    readHeader (joined ' ' i.fields ++ [' ']) = some i.entry.interface := by
  have hwords : Text.words (joined ' ' i.fields ++ [' ']) = i.fields :=
    words_joined h.isField_of_mem_fields (by simp [Text.isBlank])
  unfold readHeader
  rw [hwords]
  simp only [fields, readWord_decimal, readFlag_flag, String.ofList_toList]
  rfl

theorem Writable.isField_of_mem_addresses (h : i.Writable) :
    ∀ t ∈ i.addresses.map (·.text.toList), IsField t := by
  intro t ht
  obtain ⟨a, ha, rfl⟩ := List.mem_map.1 ht
  obtain ⟨p, rfl⟩ := h.lengths a ha
  have hchars : (InterfaceAddress.prefixed p).text.toList = p.chars := String.toList_ofList
  rw [hchars]
  exact isField_chars

theorem Writable.map_congr {α : Type} {f g : InterfaceAddress → α} (h : i.Writable)
    (hfg : ∀ p, f (.prefixed p) = g (.prefixed p)) : i.addresses.map f = i.addresses.map g := by
  apply List.map_congr_left
  intro a ha
  obtain ⟨p, rfl⟩ := h.lengths a ha
  exact hfg p

theorem readAddresses (h : i.Writable) :
    (i.addresses.map (·.text.toList)).map (fun w => (Prefix.ofListing? w).map .prefixed) =
      i.addresses.map some := by
  rw [List.map_map]
  apply h.map_congr
  intro p
  simp [InterfaceAddress.text, Prefix.text, Prefix.ofListing?_chars]

/-- Neither bars nor blanks other than the space stand in fields side by side. -/
theorem notSep_of_mem_joined {sep : Char} (hspace : ' ' ≠ sep)
    (hsep : sep = '|' ∨ Text.isBlank sep = true) (h : ∀ t ∈ ts, IsField t) :
    ∀ c ∈ joined ' ' ts, decide (c = sep) = false := by
  apply Address.forall_mem_joined (P := fun c => decide (c = sep) = false) (decide_eq_false hspace)
  intro t ht c hc
  apply decide_eq_false
  rintro rfl
  rcases hsep with hbar | hblank
  · exact (h t ht).notBar c hc hbar
  · rw [(h t ht).notBlank c hc] at hblank
    cases hblank

/-- A line has one bar, with the fields before it and the addresses behind. -/
theorem pieces_line (h : i.Writable) : Text.pieces (· = '|') i.line =
    [joined ' ' i.fields ++ [' '], ' ' :: joined ' ' (i.addresses.map (·.text.toList))] := by
  have hfront : ∀ c ∈ joined ' ' i.fields ++ [' '], decide (c = '|') = false :=
    List.forall_mem_append.2
      ⟨notSep_of_mem_joined (by decide) (.inl rfl) h.isField_of_mem_fields, by simp⟩
  have hback : ∀ c ∈ ' ' :: joined ' ' (i.addresses.map (·.text.toList)), decide (c = '|') = false :=
    List.forall_mem_cons.2
      ⟨by decide, notSep_of_mem_joined (by decide) (.inl rfl) h.isField_of_mem_addresses⟩
  have hline : i.line = (joined ' ' i.fields ++ [' ']) ++
      '|' :: ' ' :: joined ' ' (i.addresses.map (·.text.toList)) := by
    simp [line]
  rw [hline, Text.pieces_append (by decide), Text.pieces_of_none hfront, Text.pieces_of_none hback]
  rfl

theorem readLine_line (h : i.Writable) : readLine i.line = some i.entry := by
  have hwords : Text.words (' ' :: joined ' ' (i.addresses.map (·.text.toList))) =
      i.addresses.map (·.text.toList) := by
    rw [words_cons (by decide), ← List.append_nil (joined _ _)]
    exact words_joined h.isField_of_mem_addresses nofun
  unfold readLine
  rw [pieces_line h]
  simp only [readHeader_fields h, hwords, readAddresses h, Option.map_some]
  rfl

/-- No line feed stands in a line. -/
theorem pieces_whole_line (h : i.Writable) : Text.pieces (· = '\n') i.line = [i.line] := by
  apply Text.pieces_of_none
  simp only [line, List.forall_mem_append]
  exact ⟨⟨notSep_of_mem_joined (by decide) (.inr (by decide)) h.isField_of_mem_fields, by simp⟩,
    notSep_of_mem_joined (by decide) (.inr (by decide)) h.isField_of_mem_addresses⟩

theorem reading?_line (h : i.Writable) : reading? i.line = some (some i.entry) := by
  have hbar : i.line.all Text.isBlank = false := by
    rw [List.all_eq_false]
    exact ⟨'|', by simp [line], by decide⟩
  simp [reading?, hbar, readLine_line h]

theorem readings_inLines (h : ∀ i ∈ is, i.Writable) :
    readings (inLines is) = is.map fun i => some i.entry := by
  induction is with
  | nil => rfl
  | cons i is ih =>
    obtain ⟨hi, his⟩ := List.forall_mem_cons.1 h
    have hline : readings i.line = [some i.entry] := by
      rw [readings, pieces_whole_line hi, List.filterMap_cons_some (reading?_line hi)]
      rfl
    have htext : inLines (i :: is) = i.line ++ '\n' :: inLines is := by
      simp [inLines]
    rw [htext, readings_append, hline, ih his]
    rfl

/-! ## Objects -/

theorem mapM_named (keys : List String) (vs : List Json) :
    ((keys.map fun k => some k.toList).zip vs).mapM
      (fun field => field.1.map fun k => (String.ofList k, field.2)) = some (keys.zip vs) := by
  induction keys generalizing vs with
  | nil => rfl
  | cons k keys ih =>
    cases vs with
    | nil => rfl
    | cons v vs =>
      rw [List.map_cons, List.zip_cons_cons, List.mapM_cons, ih]
      simp

/-- An object that gives each of the keys once gives their values. -/
theorem fieldsOf_object {keys : List String} {vs : List Json} (hkeys : keys.Nodup)
    (hlength : vs.length = keys.length) :
    fieldsOf keys (.object ((keys.map fun k => some k.toList).zip vs)) = some (keys.zip vs) := by
  have hknown : (keys.zip vs).filter (fun field => keys.contains field.1) = keys.zip vs := by
    rw [List.filter_eq_self]
    intro field hfield
    simpa using (List.of_mem_zip hfield).1
  have hfst : (keys.zip vs).map (·.1) = keys := List.map_fst_zip (by omega)
  simp only [fieldsOf, mapM_named, Option.bind_eq_bind, Option.bind_some, hknown, hfst, if_pos hkeys]

/-- Where each item is written as a value that reads back, a list of them does. -/
theorem exists_items {α β : Type} {write : α → List Char} {read : Json → Option β} {value : α → β}
    {xs : List α} (h : ∀ x ∈ xs, ∃ v, Json.Writes (write x) v ∧ read v = some (value x)) :
    ∃ vs, List.Forall₂ Json.Writes (xs.map write) vs ∧ vs.mapM read = some (xs.map value) := by
  induction xs with
  | nil => exact ⟨[], .nil, rfl⟩
  | cons x xs ih =>
    obtain ⟨⟨v, hwrites, hread⟩, hxs⟩ := List.forall_mem_cons.1 h
    obtain ⟨vs, hitems, hmap⟩ := ih hxs
    refine ⟨v :: vs, .cons hwrites hitems, ?_⟩
    rw [List.mapM_cons, hread, hmap]
    rfl

/-- What is listed of an address. -/
def listed : InterfaceAddress → ListedAddress
  | .prefixed p => ⟨p.address.text, p.length⟩
  | .bare a zone => ⟨(InterfaceAddress.bare a zone).text, 0⟩

theorem meaning_listed : (listed (.prefixed p)).meaning = some (.prefixed p) := by
  have hdigit : ∀ d < 16, Text.digitChar d ≠ '%' := by decide
  have hcut : Text.cutAt '%' p.address.text.toList = none := by
    rw [Address.text, String.toList_ofList]
    exact Text.cutAt_eq_none (Address.forall_mem_render hdigit (by decide) (by decide))
  have haddress : Address.ofText? p.address.text = some p.address := by
    rw [Address.ofText?, Address.text, String.toList_ofList, Address.ofChars?_render]
  have hbounds : (0 : Int) ≤ p.length ∧ (p.length : Int) ≤ p.address.family.width := by
    have hwidth := p.le_width
    omega
  simp only [listed, ListedAddress.meaning, hcut, haddress, Option.map_some]
  exact congrArg some (dif_pos hbounds)

/-- A field is the first one of its key. -/
theorem Field.get_cons {α : Type} {f : Field α} {k : String} {v : Json} {fs : List (String × Json)} :
    f.get ((k, v) :: fs) = if f.key = k then f.read v else f.get fs := by
  by_cases hk : f.key = k
  · simp [Field.get, hk]
  · have hbeq : (f.key == k) = false := beq_eq_false_iff_ne.2 hk
    simp [Field.get, hk, List.lookup_cons, hbeq]

theorem read_word {key : String} {w : UInt32} : (wordField key).read (.int w.toNat) = some w := by
  have hlt : w.toNat < 4294967296 := w.toNat_lt_size
  simp [wordField, hlt]

theorem exists_addressObject : ∃ v, Json.Writes (addressObject (.prefixed p)) v ∧
    listedAddress v = some (listed (.prefixed p)) := by
  have hlength : p.length < UInt64.size ∧ p.length ≤ Int64.maxValue.toInt := by
    have hbound := Nat.le_trans p.le_width p.address.family.width_le
    have hsize : 128 < UInt64.size := by decide
    have hlast : (128 : Int) ≤ Int64.maxValue.toInt := by decide
    omega
  have hread : listedAddress (.object (([ipField.key, lengthField.key].map fun k => some k.toList).zip
      [.string (some p.address.render), .int p.length])) = some (listed (.prefixed p)) := by
    rw [listedAddress, fieldsOf_object (by decide) rfl]
    simp [Field.get_cons, ipField, lengthField, stringField, integerField, hlength.2, listed,
      Address.text]
  refine ⟨_, ?_, hread⟩
  exact Json.writes_record (.cons Json.writes_quoted (.cons (Json.writes_decimal hlength.1) .nil))

/-- The values of the keys, with the addresses as they are written. -/
def values (i : Interface) (addresses : List Json) : List Json :=
  [.string (some i.name.toList), .int i.index.toNat, .int i.mtu.toNat, .bool i.flags.up,
    .bool i.flags.broadcast, .bool i.flags.loopback, .bool i.flags.pointToPoint,
    .bool i.flags.multicast, .array addresses]

theorem get_values {vs : List Json} {fs : List (String × Json)}
    (hlisted : vs.mapM listedAddress = some (i.addresses.map listed))
    (hfs : fs = interfaceKeys.zip (i.values vs)) :
    nameField.get fs = some i.name ∧ indexField.get fs = some i.index ∧
    mtuField.get fs = some i.mtu ∧ upField.get fs = some i.flags.up ∧
    broadcastField.get fs = some i.flags.broadcast ∧
    loopbackField.get fs = some i.flags.loopback ∧
    pointToPointField.get fs = some i.flags.pointToPoint ∧
    multicastField.get fs = some i.flags.multicast ∧
    addressesField.get fs = some (i.addresses.map listed) := by
  have hkey : ∀ key, (wordField key).key = key := fun _ => rfl
  subst hfs
  refine ⟨?_, ?_, ?_, ?_, ?_, ?_, ?_, ?_, ?_⟩
  all_goals
    simp [Field.get_cons, interfaceKeys, values, nameField, indexField, mtuField, upField,
      broadcastField, loopbackField, pointToPointField, multicastField, addressesField, stringField,
      boolField, listField, hkey, read_word, hlisted]

theorem Writable.readObject_values (h : i.Writable) {vs : List Json}
    (hlisted : vs.mapM listedAddress = some (i.addresses.map listed)) :
    readObject (.object ((interfaceKeys.map fun k => some k.toList).zip (i.values vs))) =
      some i.entry := by
  have hmeaning : (i.addresses.map listed).map (·.meaning) = i.addresses.map some := by
    rw [List.map_map]
    apply h.map_congr
    intro p
    exact meaning_listed
  obtain ⟨hname, hindex, hmtu, hup, hbroadcast, hloopback, hpoint, hmulticast, haddresses⟩ :=
    get_values hlisted rfl
  rw [readObject, fieldsOf_object (by decide) rfl]
  -- Unfolding instead would have the kernel compare each value with the readers of the others.
  simp -implicitDefEqProofs only [Option.bind_eq_bind, Option.bind_some, hname, hindex, hmtu, hup,
    hbroadcast, hloopback, hpoint, hmulticast, haddresses, hmeaning]
  rfl

theorem Writable.exists_object (h : i.Writable) :
    ∃ v, Json.Writes i.object v ∧ readObject v = some i.entry := by
  have haddress : ∀ a ∈ i.addresses, ∃ v, Json.Writes (addressObject a) v ∧
      listedAddress v = some (listed a) := by
    intro a ha
    obtain ⟨p, rfl⟩ := h.lengths a ha
    exact exists_addressObject
  obtain ⟨vs, hitems, hlisted⟩ := exists_items haddress
  have hword : ∀ w : UInt32, w.toNat < UInt64.size := by
    intro w
    exact Nat.lt_trans w.toNat_lt_size (by decide)
  refine ⟨_, ?_, h.readObject_values hlisted⟩
  exact Json.writes_record <| .cons Json.writes_quoted <|
    .cons (Json.writes_decimal (hword _)) <| .cons (Json.writes_decimal (hword _)) <|
    .cons Json.writes_flag <| .cons Json.writes_flag <| .cons Json.writes_flag <|
    .cons Json.writes_flag <| .cons Json.writes_flag <| .cons (Json.writes_list hitems) .nil

theorem readListing_inJson (h : ∀ i ∈ is, i.Writable) : readListing (inJson is) = some (.whole is) := by
  obtain ⟨vs, hitems, hread⟩ := exists_items fun i hi => (h i hi).exists_object
  have hnamed : (is.map entry).map (fun e => if e.interface.name.isEmpty then none else some e) =
      is.map fun i => some i.entry := by
    rw [List.map_map]
    apply List.map_congr_left
    intro i hi
    have hname : i.name ≠ "" := mt String.toList_eq_nil_iff.2 (h i hi).name.ne_nil
    simp [entry, hname]
  rw [readListing, inJson, Json.ofChars?_of_writes (Json.writes_list hitems)]
  simp only [Option.bind_eq_bind, Option.bind_some, hread, hnamed, ofEntries_countAll, ofEntries_entries]
  rfl

/-! ## Whole texts -/

theorem ofChars_inLines (h : ∀ i ∈ is, i.Writable)
    (hfirst : ∀ i ∈ is.head?, i.name.toList.head? ∉ [some '[', some '\x7b']) :
    Listing.ofChars (inLines is) = .ok (.whole is) := by
  have hlines : Listing.ofLines (inLines is) = .whole is := by
    rw [ofLines_eq, readings_inLines h, ofEntries_entries]
  have hformat : (inLines is).find? (!Text.isBlank ·) ∉ [some '[', some '\x7b'] := by
    cases is with
    | nil => decide
    | cons i is =>
      have hname := (h i List.mem_cons_self).name
      have hhead := hfirst i rfl
      obtain ⟨c, cs, hcs⟩ := List.exists_cons_of_ne_nil hname.ne_nil
      have hc := hname.notBlank c (by rw [hcs]; exact List.mem_cons_self)
      have htext : ∃ rest, inLines (i :: is) = c :: rest := by
        simp [inLines, line, fields, Address.joined_cons, hcs]
      obtain ⟨rest, htext⟩ := htext
      rw [hcs, List.head?_cons] at hhead
      rw [htext, List.find?_cons_of_pos (by simp [hc])]
      exact hhead
  rw [ofChars_eq, if_neg hformat, hlines]

theorem ofChars_inJson (h : ∀ i ∈ is, i.Writable) :
    Listing.ofChars (inJson is) = .ok (.whole is) := by
  have htrim : Text.trim (inJson is) = inJson is := by
    apply Text.trim_of_ends
    · intro c hc
      obtain rfl : '[' = c := Option.some.inj hc
      decide
    · intro c hc
      have hlast : (inJson is).getLast? = some ']' := by
        simp [inJson, Json.list, List.getLast?_cons]
      rw [hlast] at hc
      obtain rfl := Option.some.inj hc
      decide
  have hlooks : looksLikeJson (inJson is) = true := rfl
  have hne : (inJson is).isEmpty = false := rfl
  simp [Listing.ofChars, Listing.ofJson, htrim, hlooks, hne, readListing_inJson h]

/-- Written in lines and written as JSON, interfaces are read in order and as they are, and
    nothing is skipped. A bracket or a brace at the start of the first name would have the
    lines taken for JSON. -/
theorem formats_agree (h : ∀ i ∈ is, i.Writable)
    (hfirst : ∀ i ∈ is.head?, i.name.toList.head? ∉ [some '[', some '\x7b']) :
    Listing.ofChars (inLines is) = .ok (.whole is) ∧
    Listing.ofChars (inJson is) = .ok (.whole is) :=
  ⟨ofChars_inLines h hfirst, ofChars_inJson h⟩

/-- A name with a quote, a backslash and a control character, the last of 32 bits as an
    index, host bits in both families, and a second name that begins with a bracket. -/
theorem formats_agree_mixed :
    let i : Interface := ⟨"a\"\\\x01", 4294967295, 0, ⟨true, false, false, false, true⟩,
      [.prefixed ⟨.ofNat .ipv4 0x0a010203, 8, by decide⟩,
        .prefixed ⟨.ofNat .ipv6 0xffff01020304, 96, by decide⟩]⟩
    let j : Interface := ⟨"[lo", 1, 65536, ⟨false, true, true, true, false⟩, []⟩
    Listing.ofChars
        ("a\"\\\x01 4294967295 0 true false false false true | 10.1.2.3/8 ::ffff:1.2.3.4/96".toList ++
          '\n' :: ("[lo 1 65536 false true true true false | ".toList ++ ['\n'])) =
      .ok ⟨[i, j], ⟨2, 2, 0⟩, ⟨2, 2, 0⟩⟩ ∧
    Listing.ofChars (inJson [i, j]) = .ok ⟨[i, j], ⟨2, 2, 0⟩, ⟨2, 2, 0⟩⟩ := by
  intro i j
  have hi : i.Writable := ⟨⟨by decide, by simp [i, Text.isBlank], by simp [i]⟩, by simp [i]⟩
  have hj : j.Writable := ⟨⟨by decide, by simp [j, Text.isBlank], by simp [j]⟩, by simp [j]⟩
  have hfirst : i.line =
      "a\"\\\x01 4294967295 0 true false false false true | 10.1.2.3/8 ::ffff:1.2.3.4/96".toList := by
    simp [i, line, fields, joined, Json.flag, InterfaceAddress.text, Prefix.text_hostBits,
      Prefix.text_mapped, Text.decimal, Text.render, Text.digitChar]
  have hsecond : j.line = "[lo 1 65536 false true true true false | ".toList := by
    simp [j, line, fields, joined, Json.flag, Text.decimal, Text.render, Text.digitChar]
  have hlines : inLines [i, j] = i.line ++ '\n' :: (j.line ++ ['\n']) := by simp [inLines]
  have hboth : ∀ k ∈ [i, j], k.Writable := by simp [hi, hj]
  have hagree := formats_agree hboth (by decide)
  rw [hlines, hfirst, hsecond] at hagree
  exact hagree

end

end SeamlessTunnel.Interface
