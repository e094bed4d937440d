import Mathlib.Algebra.Ring.Nat
import SeamlessTunnel.Proofs.Interface.Lines
import SeamlessTunnel.Proofs.Prefix.Lengths
/-
  SeamlessTunnel.Proofs.Interface.Counts — the counts of a listing add up.

  Whatever is listed is kept or skipped, and counted as one of the two: no entry puts a count
  out of balance (`balanced_note`), and counting one entry after the other comes to the counts
  of all of them (`ofEntries_eq`). Addresses are counted on the interfaces that are kept
  and on no others. So a listing of entries has their counts (`Counted`, `counted_ofEntries`),
  whichever of the two formats they were written in: a line has as many addresses as words
  behind its bar (`addressTexts`), an object as many as items in its list (`addressValues`).
  `counted_of_ofChars` says so of every text that is accepted.

  A prefix that is kept has the length that is written (`length_of_readText`,
  `length_of_readValue`).
-/

namespace SeamlessTunnel.Interface

/-! ## What is listed -/

/-- The texts that stand for addresses on a line. -/
def addressTexts (line : List Char) : List (List Char) :=
  match Text.pieces (· = '|') line with
  | [_, addresses] => Text.words addresses
  | _ => []

/-- The address that a text on a line stands for. -/
def readText (text : List Char) : Option InterfaceAddress :=
  (Prefix.ofListing? text).map .prefixed

/-- The value of the digits behind the slash. -/
def lengthOfText (text : List Char) : Option Int :=
  (Text.cutAt '/' text).map fun (_, digits) => (Nat.ofDigitChars 10 digits 0 : Int)

/-- The values that stand for addresses in an object. -/
def addressValues (v : Json) : List Json :=
  match (fieldsOf interfaceKeys v).bind (·.lookup addressesField.key) with
  | some (.array items) => items
  | _ => []

/-- The address that a value in an object stands for. -/
def readValue (v : Json) : Option InterfaceAddress :=
  (listedAddress v).bind (·.meaning)

def lengthOfValue (v : Json) : Option Int :=
  (listedAddress v).map (·.length)

/-- The name that an object gives. -/
def nameOf (v : Json) : Option String :=
  (fieldsOf interfaceKeys v).bind nameField.get

/-- The lines that count. -/
def seenLines (cs : List Char) : List (List Char) :=
  (Text.lines cs).filter fun line => !line.all Text.isBlank

/-! ## Counts -/

/-- Whether nothing is missing between what was kept and what was skipped. -/
def Tally.Balanced (t : Tally) : Prop :=
  t.total = t.parsed + t.skipped

/-- What the counts and the addresses of a listing have to be, when `seen` interfaces were
    listed and those that were kept have the addresses `kept`, each written as an `α`. -/
structure Counted {α : Type} (read : α → Option InterfaceAddress) (length : α → Option Int)
    (seen : Nat) (kept : List (List α)) (l : Listing) : Prop where
  interfaces : l.stats.interfaces.Balanced
  interfacesTotal : l.stats.interfaces.total = seen
  interfacesParsed : l.stats.interfaces.parsed = l.interfaces.length
  addresses : l.stats.addresses.Balanced
  addressesTotal : l.stats.addresses.total = (kept.map List.length).sum
  addressesParsed : l.stats.addresses.parsed = (l.interfaces.map (·.addresses.length)).sum
  addressesRead : l.interfaces.map (·.addresses) = kept.map (·.filterMap read)
  named : ∀ i ∈ l.interfaces, i.name ≠ ""
  /-- A prefix has the length that is written, and its address is long enough for it. -/
  lengths : ∀ i ∈ l.interfaces, ∀ p, .prefixed p ∈ i.addresses →
    p.length ≤ p.family.width ∧
      ∃ x ∈ kept.flatten, read x = some (.prefixed p) ∧ length x = some (p.length : Int)

section

variable {α : Type} {cs line text : List Char} {p : Prefix} {v : Json} {e : Entry} {l : Listing}

/-! ## One entry after the other -/

theorem Tally.Balanced.count {t : Tally} (h : t.Balanced) (r : Option α) : (t.count r).Balanced := by
  unfold Balanced at h
  cases r with
  | none => exact (congrArg (· + 1) h).trans (Nat.add_assoc ..)
  | some _ => exact (congrArg (· + 1) h).trans (Nat.add_right_comm ..)

theorem Tally.Balanced.countEach {t : Tally} (h : t.Balanced) (rs : List (Option α)) :
    (t.countEach rs).Balanced := by
  unfold Tally.countEach
  induction rs generalizing t with
  | nil => exact h
  | cons r rs ih => exact ih (h.count r)

/-- No entry puts either of the two counts out of balance. -/
theorem balanced_note (hi : l.stats.interfaces.Balanced) (ha : l.stats.addresses.Balanced)
    (r : Option Entry) : (l.note .countEach r).stats.interfaces.Balanced ∧
      (l.note .countEach r).stats.addresses.Balanced := by
  cases r with
  | none => exact ⟨hi.count (none : Option Entry), ha⟩
  | some e => exact ⟨hi.count (some e), ha.countEach e.readings⟩

theorem balanced_foldl_note (es : List (Option Entry)) (hi : l.stats.interfaces.Balanced)
    (ha : l.stats.addresses.Balanced) :
    (es.foldl (Listing.note .countEach) l).stats.interfaces.Balanced ∧
      (es.foldl (Listing.note .countEach) l).stats.addresses.Balanced := by
  induction es generalizing l with
  | nil => exact ⟨hi, ha⟩
  | cons r es ih =>
    obtain ⟨hi, ha⟩ := balanced_note hi ha r
    exact ih hi ha

/-! ## Entries -/

theorem Tally.parsed_ofReadings (rs : List (Option α)) :
    (Tally.ofReadings rs).parsed = (rs.filterMap id).length := by
  induction rs with
  | nil => rfl
  | cons r rs ih => cases r <;> simpa [Tally.ofReadings] using ih

/-- A listing of entries has their counts, however the entries were written. -/
theorem counted_ofEntries {read : α → Option InterfaceAddress} {length : α → Option Int}
    {es : List (Option Entry)} {kept : List (List α)}
    (hkept : (es.filterMap id).map (·.readings) = kept.map (·.map read))
    (hnamed : ∀ e ∈ es.filterMap id, e.interface.name ≠ "")
    (hlength : ∀ x p, read x = some (.prefixed p) → length x = some (p.length : Int)) :
    Counted read length es.length kept (.ofEntries .countEach es) := by
  have hinterfaces : (Listing.ofEntries .countEach es).interfaces =
      (es.filterMap id).map (·.complete) := by
    simp [ofEntries_eq, List.map_filterMap]
  have hreadings : (es.filterMap id).flatMap (·.readings) = kept.flatten.map read := by
    rw [List.flatMap_def, hkept, List.map_flatten]
  have htally : (Listing.ofEntries .countEach es).stats.addresses =
      .ofReadings (kept.flatten.map read) := by
    rw [ofEntries_eq, ← hreadings]
  have htotal : (Listing.ofEntries .countEach es).stats.interfaces = .ofReadings es := by
    rw [ofEntries_eq]
  have haddresses : (Listing.ofEntries .countEach es).interfaces.map (·.addresses) =
      kept.map (·.filterMap read) := by
    have hmap := congrArg (List.map (List.filterMap id)) hkept
    rw [hinterfaces]
    simpa [Entry.complete, Function.comp_def, List.filterMap_map] using hmap
  obtain ⟨hinterfacesBalanced, haddressesBalanced⟩ : (Listing.ofEntries .countEach
      es).stats.interfaces.Balanced ∧ (Listing.ofEntries .countEach es).stats.addresses.Balanced :=
    balanced_foldl_note es rfl rfl
  refine ⟨hinterfacesBalanced, ?_, ?_, haddressesBalanced, ?_, ?_, haddresses, ?_, ?_⟩
  · rw [htotal]
    rfl
  · rw [hinterfaces, List.length_map, htotal]
    exact Tally.parsed_ofReadings es
  · rw [htally, ← List.length_flatten]
    exact List.length_map _
  · have hlengths := congrArg (List.map List.length) haddresses
    rw [List.map_map, List.map_map] at hlengths
    rw [htally, Tally.parsed_ofReadings, List.filterMap_map, List.filterMap_flatten,
      List.length_flatten, List.map_map]
    exact congrArg List.sum hlengths.symm
  · rw [hinterfaces]
    exact List.forall_mem_map.2 hnamed
  · intro i hi p hp
    have hmem := List.mem_map_of_mem (f := (·.addresses)) hi
    rw [haddresses] at hmem
    obtain ⟨xs, hxs, heq⟩ := List.mem_map.1 hmem
    rw [← heq] at hp
    obtain ⟨x, hx, hread⟩ := List.mem_filterMap.1 hp
    exact ⟨p.le_width, x, List.mem_flatten.2 ⟨xs, hxs, hx⟩, hread, hlength x p hread⟩

/-! ## Lines -/

theorem length_of_readText (h : readText text = some (.prefixed p)) :
    lengthOfText text = some (p.length : Int) := by
  obtain ⟨q, hq, heq⟩ := Option.map_eq_some_iff.1 h
  obtain rfl := InterfaceAddress.prefixed.inj heq
  obtain ⟨front, digits, hcut, hdigits⟩ := Prefix.exists_of_ofListing? hq
  rw [lengthOfText, hcut, ← hdigits]
  rfl

theorem name_of_readHeader {i : Interface} (h : readHeader cs = some i) : i.name ≠ "" := by
  unfold readHeader at h
  split at h
  · rename_i name _ _ _ _ _ _ _ hwords
    have hname : name ∈ Text.words cs := by
      rw [hwords]
      exact List.mem_cons_self
    have hne : name ≠ [] := by simpa using (List.mem_filter.1 hname).2
    simp only [Option.bind_eq_bind, Option.bind_eq_some_iff, Option.pure_def, Option.some.injEq] at h
    obtain ⟨_, _, _, _, _, _, _, _, _, _, _, _, _, _, rfl⟩ := h
    exact mt String.toList_eq_nil_iff.2 (by rwa [String.toList_ofList])
  · cases h

theorem entry_of_readLine (h : readLine line = some e) :
    e.readings = (addressTexts line).map readText ∧ e.interface.name ≠ "" := by
  unfold readLine at h
  split at h
  · rename_i header addresses hpieces
    obtain ⟨i, hi, rfl⟩ := Option.map_eq_some_iff.1 h
    rw [addressTexts, hpieces]
    exact ⟨rfl, name_of_readHeader hi⟩
  · cases h

theorem counted_ofLines : Counted readText lengthOfText (seenLines cs).length
    (((seenLines cs).filter fun line => (readLine line).isSome).map addressTexts)
    (Listing.ofLines cs) := by
  have hlines : ∀ lines : List (List Char), ((lines.map readLine).filterMap id).map (·.readings) =
      ((lines.filter fun line => (readLine line).isSome).map addressTexts).map (·.map readText) := by
    intro lines
    induction lines with
    | nil => rfl
    | cons line lines ih =>
      cases hread : readLine line with
      | none => simpa [hread] using ih
      | some e => simpa [hread, (entry_of_readLine hread).1] using ih
  have hnamed : ∀ e ∈ ((seenLines cs).map readLine).filterMap id, e.interface.name ≠ "" := by
    intro e he
    obtain ⟨r, hr, rfl⟩ := List.mem_filterMap.1 he
    obtain ⟨line, -, hline⟩ := List.mem_map.1 hr
    exact (entry_of_readLine hline).2
  have hcounted := counted_ofEntries (hlines (seenLines cs)) hnamed fun _ _ => length_of_readText
  rwa [List.length_map] at hcounted

/-! ## Objects -/

theorem length_of_readValue (h : readValue v = some (.prefixed p)) :
    lengthOfValue v = some (p.length : Int) := by
  obtain ⟨a, ha, hmeaning⟩ := Option.bind_eq_some_iff.1 h
  rw [lengthOfValue, ha, Option.map_some]
  unfold ListedAddress.meaning at hmeaning
  split at hmeaning
  · split at hmeaning
    · split at hmeaning <;> cases hmeaning
    · cases hmeaning
  · obtain ⟨address, -, hbounds⟩ := Option.map_eq_some_iff.1 hmeaning
    split at hbounds
    · rename_i hlength
      obtain rfl := InterfaceAddress.prefixed.inj hbounds
      exact congrArg some (Int.toNat_of_nonneg hlength.1).symm
    · cases hbounds

theorem map_of_mapM {β : Type} {read : α → Option β} {xs : List α} {ys : List β}
    (h : xs.mapM read = some ys) : xs.map read = ys.map some := by
  induction xs generalizing ys with
  | nil =>
    cases h
    rfl
  | cons x xs ih =>
    rw [List.mapM_cons] at h
    obtain ⟨y, hy, h⟩ := Option.bind_eq_some_iff.1 h
    obtain ⟨ys', hys, h⟩ := Option.bind_eq_some_iff.1 h
    obtain rfl := Option.some.inj h
    rw [List.map_cons, hy, ih hys, List.map_cons]

/-- The list of addresses that an object gives, or that it leaves out. -/
theorem readings_of_get {fields : List (String × Json)} {as : List ListedAddress}
    (hfields : fieldsOf interfaceKeys v = some fields)
    (has : addressesField.get fields = some as) :
    as.map (·.meaning) = (addressValues v).map readValue := by
  unfold addressValues
  rw [hfields, Option.bind_some]
  unfold Field.get at has
  split at has
  · rename_i value hvalue
    rw [hvalue]
    cases value with
    | array items =>
      have hitems := map_of_mapM (show items.mapM listedAddress = some as from has)
      have hbind := congrArg (List.map fun a => a.bind (·.meaning)) hitems
      rw [List.map_map, List.map_map] at hbind
      exact hbind.symm
    | _ => cases has
  · rename_i hvalue
    obtain rfl := Option.some.inj has
    rw [hvalue]
    rfl

theorem entry_of_readObject (h : readObject v = some e) :
    e.readings = (addressValues v).map readValue ∧ nameOf v = some e.interface.name := by
  simp only [readObject, Option.bind_eq_bind, Option.bind_eq_some_iff, Option.pure_def,
    Option.some.injEq] at h
  obtain ⟨fields, hfields, name, hname, _, _, _, _, _, _, _, _, _, _, _, _, _, _, as, has, rfl⟩ := h
  refine ⟨readings_of_get hfields has, ?_⟩
  rw [nameOf, hfields]
  exact hname

theorem filterMap_named (entries : List Entry) :
    (entries.map fun e => if e.interface.name.isEmpty then none else some e).filterMap id =
      entries.filter fun e => e.interface.name ≠ "" := by
  induction entries with
  | nil => rfl
  | cons e entries ih =>
    by_cases hname : e.interface.name = ""
    · simpa [hname] using ih
    · simpa [hname] using ih

/-- The objects that give a name are the entries that have one. -/
theorem readings_of_objects {items : List Json} {entries : List Entry}
    (h : items.map readObject = entries.map some) :
    (entries.filter fun e => e.interface.name ≠ "").map (·.readings) =
      ((items.filter fun v => nameOf v ≠ some "").map addressValues).map (·.map readValue) := by
  induction items generalizing entries with
  | nil =>
    obtain rfl := List.map_eq_nil_iff.1 h.symm
    rfl
  | cons v items ih =>
    obtain ⟨e, entries, rfl, he, hrest⟩ := List.map_eq_cons_iff.1 h.symm
    obtain ⟨hreadings, hname⟩ := entry_of_readObject he.symm
    have ih := ih hrest.symm
    by_cases hempty : e.interface.name = ""
    · simpa [hname, hempty] using ih
    · simpa [hname, hempty, hreadings] using ih

theorem counted_of_readListing (h : readListing cs = some l) :
    ∃ items, Json.ofChars? cs = some (.array items) ∧
      Counted readValue lengthOfValue items.length
        ((items.filter fun v => nameOf v ≠ some "").map addressValues) l := by
  obtain ⟨v, hv, h⟩ := Option.bind_eq_some_iff.1 h
  split at h
  · rename_i items
    obtain ⟨entries, hentries, h⟩ := Option.bind_eq_some_iff.1 h
    obtain rfl := Option.some.inj h
    have hread := map_of_mapM hentries
    have hlength : items.length = entries.length := by
      simpa using congrArg List.length hread
    have hnamed : ∀ e ∈ entries.filter fun e => e.interface.name ≠ "", e.interface.name ≠ "" :=
      fun e he => of_decide_eq_true (List.mem_filter.1 he).2
    rw [← filterMap_named] at hnamed
    have hkept := readings_of_objects hread
    rw [← filterMap_named] at hkept
    have hcounted := counted_ofEntries hkept hnamed fun _ _ => length_of_readValue
    rw [List.length_map, ← hlength, ← ofEntries_countAll] at hcounted
    exact ⟨items, hv, hcounted⟩
  · cases h

/-- Whatever text is accepted, what it lists is what the counts say. Of lines those count that
    are not blank, and those are kept that can be read; of objects those are kept that give a
    name. -/
theorem counted_of_ofChars (h : Listing.ofChars cs = .ok l) :
    (looksLikeJson (Text.trim cs) = false →
      Counted readText lengthOfText (seenLines (Text.trim cs)).length
        (((seenLines (Text.trim cs)).filter fun line => (readLine line).isSome).map addressTexts) l) ∧
    (looksLikeJson (Text.trim cs) = true →
      ∃ items, Json.ofChars? (Text.trim cs) = some (.array items) ∧
        Counted readValue lengthOfValue items.length
          ((items.filter fun v => nameOf v ≠ some "").map addressValues) l) := by
  constructor
  · intro hlines
    simp only [Listing.ofChars, hlines] at h
    obtain rfl := Except.ok.inj h
    exact counted_ofLines
  · intro hjson
    simp only [Listing.ofChars, Listing.ofJson, Text.trim_trim, hjson,
      isEmpty_of_looksLikeJson hjson] at h
    cases hread : readListing (Text.trim cs) with
    | none =>
      rw [hread] at h
      cases h
    | some l' =>
      rw [hread] at h
      obtain rfl := Except.ok.inj h
      exact counted_of_readListing hread

/-- An object without a name in front of one with four addresses: with a zone, with a length,
    with one that is too long, and with a zone where there can be none; and lines of which one
    is blank and one has no bar. -/
theorem counted_mixed :
    let objects := "[\x7b\"name\":\"\"\x7d,[\"a\",2,8,true,false,false,false,true,".toList ++
      "[[\"fe80::1%x\",64],[\"10.1.2.3\",8],[\"10.1.2.3\",33],[\"10.1.2.3%x\"]]]]".toList
    let lines := "no bar here\n \nlo 1 9 true false true false false | 127.0.0.1/8 127.0.0.1/33".toList
    let address : Address := .ofNat .ipv4 0x0a010203
    let ofObjects : Listing := ⟨[⟨"a", 2, 8, ⟨true, false, false, false, true⟩,
      [.bare (.ofNat .ipv6 0xfe800000000000000000000000000001) (some "x"),
        .prefixed ⟨address, 8, by decide⟩, .bare address none]⟩], ⟨⟨2, 1, 1⟩, ⟨4, 3, 1⟩⟩⟩
    let ofLines : Listing := ⟨[⟨"lo", 1, 9, ⟨true, false, true, false, false⟩,
      [.prefixed ⟨.ofNat .ipv4 0x7f000001, 8, by decide⟩]⟩], ⟨⟨2, 1, 1⟩, ⟨2, 1, 1⟩⟩⟩
    (Listing.ofChars objects = .ok ofObjects ∧ looksLikeJson (Text.trim objects) = true ∧
      ∃ items, Json.ofChars? (Text.trim objects) = some (.array items) ∧
        Counted readValue lengthOfValue items.length
          ((items.filter fun v => nameOf v ≠ some "").map addressValues) ofObjects) ∧
    (Listing.ofChars lines = .ok ofLines ∧ looksLikeJson (Text.trim lines) = false ∧
      Counted readText lengthOfText (seenLines (Text.trim lines)).length
        (((seenLines (Text.trim lines)).filter fun line => (readLine line).isSome).map addressTexts)
        ofLines) := by
  intro objects lines address ofObjects ofLines
  have hobjects : Listing.ofChars objects = .ok ofObjects := by decide +kernel
  have hjson : looksLikeJson (Text.trim objects) = true := by decide +kernel
  have hlines : Listing.ofChars lines = .ok ofLines := by decide +kernel
  have hnoJson : looksLikeJson (Text.trim lines) = false := by decide +kernel
  exact ⟨⟨hobjects, hjson, (counted_of_ofChars hobjects).2 hjson⟩,
    ⟨hlines, hnoJson, (counted_of_ofChars hlines).1 hnoJson⟩⟩

end

end SeamlessTunnel.Interface
