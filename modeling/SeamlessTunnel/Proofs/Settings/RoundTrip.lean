import Mathlib.Data.List.Forall2
import SeamlessTunnel.Proofs.Address.RoundTrip
import SeamlessTunnel.Proofs.Toml.Statements
import SeamlessTunnel.Settings.Document
/-
  SeamlessTunnel.Proofs.Settings.RoundTrip — written settings read back.

  Settings that pass their check are read back from their written form if they have one,
  that is up to the largest integer of TOML in the depth of the queues. Deeper ones are
  written as the empty text, which reads as the defaults (`load_toToml`).
-/

namespace SeamlessTunnel

open Toml (Says Value Writes isVerbatim)

section

variable {o : Options} {c : Char} {a : Address} {room : Nat}

/-! ## Values -/

theorem isVerbatim_of_toLower (h : isVerbatim c.toLower) : isVerbatim c := by
  unfold Char.toLower at h
  split at h
  · rename_i hupper
    have hlow : 65 ≤ c.toNat := UInt32.le_iff_toNat_le.1 hupper.1
    have hhigh : c.toNat ≤ 90 := UInt32.le_iff_toNat_le.1 hupper.2
    refine Toml.isVerbatim_iff.2 ⟨by omega, by omega, ?_, ?_⟩
    · rintro rfl
      exact absurd hlow (by decide)
    · rintro rfl
      exact absurd hhigh (by decide)
  · exact h

/-- Every spelling of a level is of letters. -/
theorem LoggingOptions.verbatim_of_check {l : LoggingOptions} (h : l.check = .ok ()) :
    l.level.toList ≠ [] ∧ ∀ c ∈ l.level.toList, isVerbatim c := by
  unfold check at h
  split at h
  · rename_i hlevel
    have hlower : ∀ s ∈ logLevels, s.toList ≠ [] ∧ s.toList.all isVerbatim = true := by
      decide
    have hmem : l.level.map Char.toLower ∈ logLevels := by simpa using hlevel
    obtain ⟨hne, hall⟩ := hlower _ hmem
    rw [String.toList_map] at hne hall
    refine ⟨fun h => hne (by rw [h, List.map_nil]), fun c hc => ?_⟩
    exact isVerbatim_of_toLower (List.all_eq_true.1 hall _ (List.mem_map_of_mem hc))
  · cases h

theorem writes_address : Writes room (Toml.quoted a.text.toList) (.string a.render) := by
  rw [Address.text, String.toList_ofList]
  exact Toml.writes_quoted Address.render_ne_nil
    (Address.forall_mem_render (by decide) (by decide) (by decide))

theorem writes_addresses (as : List Address) :
    Writes (room + 1) (Toml.list (as.map fun a => Toml.quoted a.text.toList))
      (.array (as.map fun a => .string a.render)) := by
  apply Toml.writes_list
  rw [List.forall₂_map_left_iff, List.forall₂_map_right_iff, List.forall₂_same]
  exact fun a _ => writes_address

theorem natural?_integer {n limit : Nat} (h : n ≤ limit) :
    Value.natural? limit (.integer n) = some n := by
  have hfits : (0 : Int) ≤ n ∧ (n : Int) ≤ limit := by omega
  simp [Value.natural?, h]

theorem addresses?_map {as : List Address} :
    Value.addresses? (.array (as.map fun a => .string a.render)) = some as := by
  induction as with
  | nil => rfl
  | cons a as ih =>
    simp only [Value.addresses?] at ih ⊢
    rw [List.map_cons, List.mapM_cons, ih]
    simp [Value.address?, Address.ofChars?_render]

/-! ## Sections -/

/-- What is written below the header of a section. -/
def TunnelOptions.entries (t : TunnelOptions) : Toml.Entries :=
  [("default_mtu".toList, .integer t.defaultMtu.toNat),
    ("seamless_handover".toList, .bool t.seamlessHandover),
    ("queue_depth".toList, .integer t.queueDepth.toNat)]

def DnsOptions.entries (d : DnsOptions) : Toml.Entries :=
  [("avoid_empty_dns".toList, .bool d.avoidEmpty),
    ("fallback_nameservers".toList, .array (d.fallback.map fun a => .string a.render))]

def LoggingOptions.entries (l : LoggingOptions) : Toml.Entries :=
  [("level".toList, .string l.level.toList)]

theorem TunnelOptions.ofToml?_entries {t : TunnelOptions} {origin : Toml.Origin} :
    ofToml? (.table origin t.entries) = some t := by
  have hmtu := natural?_integer (Nat.le_of_lt_succ t.defaultMtu.toNat_lt)
  have hdepth := natural?_integer (Nat.le_sub_one_of_lt t.queueDepth.toNat_lt)
  have hfields : ofToml? (.table origin t.entries) =
      (Value.natural? 65535 (.integer t.defaultMtu.toNat) >>= fun mtu =>
        Value.natural? (UInt64.size - 1) (.integer t.queueDepth.toNat) >>= fun depth =>
        some ⟨.ofNat mtu, t.seamlessHandover, .ofNat depth⟩) := rfl
  rw [hfields, hmtu, Option.bind_eq_bind, Option.bind_some]
  exact (congrArg (· >>= _) hdepth).trans (by simp)

theorem DnsOptions.ofToml?_entries {d : DnsOptions} {origin : Toml.Origin} :
    ofToml? (.table origin d.entries) = some d := by
  have hfields : ofToml? (.table origin d.entries) =
      (Value.addresses? (.array (d.fallback.map fun a => .string a.render)) >>= fun fallback =>
        some ⟨d.avoidEmpty, fallback⟩) := rfl
  rw [hfields, addresses?_map]
  rfl

theorem LoggingOptions.ofToml?_entries {l : LoggingOptions} {origin : Toml.Origin} :
    ofToml? (.table origin l.entries) = some l := by
  have hfields : ofToml? (.table origin l.entries) =
      some ⟨String.ofList l.level.toList⟩ := rfl
  rw [hfields, String.ofList_toList]

/-! ## The document -/

namespace Options

/-- A header, and the pairs below it. -/
def sectionStatements (name : String) (entries : Toml.Entries) : List Toml.Statement :=
  .header ⟨[], name.toList⟩ :: entries.map fun e => .pair ⟨[], e.1⟩ e.2

/-- What the written settings say. -/
def statements (o : Options) : List Toml.Statement :=
  sectionStatements "tun" o.tunnel.entries ++ sectionStatements "dns" o.dns.entries ++
    sectionStatements "logging" o.logging.entries

/-- What the statements build. -/
def entries (o : Options) : Toml.Entries :=
  [("tun".toList, .table .header o.tunnel.entries), ("dns".toList, .table .header o.dns.entries),
    ("logging".toList, .table .header o.logging.entries)]

theorem ofStatements?_statements :
    Toml.Document.ofStatements? o.statements = some ⟨o.entries, ["logging".toList]⟩ := rfl

theorem ofEntries?_entries : ofEntries? o.entries = some o := by
  have hsections : ofEntries? o.entries =
      (TunnelOptions.ofToml? (.table .header o.tunnel.entries) >>= fun tunnel =>
        DnsOptions.ofToml? (.table .header o.dns.entries) >>= fun dns =>
        LoggingOptions.ofToml? (.table .header o.logging.entries) >>= fun logging =>
        some ⟨tunnel, dns, logging⟩) := rfl
  rw [hsections, TunnelOptions.ofToml?_entries, DnsOptions.ofToml?_entries,
    LoggingOptions.ofToml?_entries]
  rfl

theorem logging_of_check (h : o.check = .ok ()) : o.logging.check = .ok () := by
  unfold check at h
  cases ht : o.tunnel.check with
  | error e =>
    rw [ht] at h
    cases h
  | ok =>
    cases hd : o.dns.check with
    | error e =>
      rw [ht, hd] at h
      cases h
    | ok =>
      rw [ht, hd] at h
      exact h

theorem mtu_le_maxInteger : o.tunnel.defaultMtu.toNat ≤ maxInteger :=
  Nat.le_trans (Nat.le_of_lt o.tunnel.defaultMtu.toNat_lt) (by decide)

/-- The written settings are their statements, a line each. -/
theorem says_toChars (h : o.check = .ok ()) (hdepth : o.tunnel.queueDepth.toNat ≤ maxInteger) :
    Says o.toChars o.statements := by
  obtain ⟨hne, hlevel⟩ := LoggingOptions.verbatim_of_check (logging_of_check h)
  have htun : Says "[tun]\n".toList [.header ⟨[], "tun".toList⟩] :=
    .one (by decide) (fun _ => rfl) (fun _ => rfl) fun _ => rfl
  have hdns : Says "\n[dns]\n".toList [.header ⟨[], "dns".toList⟩] :=
    Says.blank.append (.one (by decide) (fun _ => rfl) (fun _ => rfl) fun _ => rfl)
  have hlogging : Says "\n[logging]\n".toList [.header ⟨[], "logging".toList⟩] :=
    Says.blank.append (.one (by decide) (fun _ => rfl) (fun _ => rfl) fun _ => rfl)
  have hbare : ∀ name ∈ ["default_mtu", "seamless_handover", "queue_depth", "avoid_empty_dns",
      "fallback_nameservers", "level"], Toml.IsBareKey name.toList := by
    have hall : ∀ name ∈ ["default_mtu", "seamless_handover", "queue_depth", "avoid_empty_dns",
        "fallback_nameservers", "level"], name.toList ≠ [] ∧ name.toList.all Toml.isBare = true := by
      decide
    exact fun name hname => ⟨(hall name hname).1, List.all_eq_true.1 (hall name hname).2⟩
  have hmtu := Says.line (hbare "default_mtu" (by decide))
    (Toml.writes_decimal (mtu_le_maxInteger (o := o)))
  have hhandover := Says.line (hbare "seamless_handover" (by decide))
    (Toml.writes_flag (b := o.tunnel.seamlessHandover))
  have hqueue := Says.line (hbare "queue_depth" (by decide)) (Toml.writes_decimal hdepth)
  have havoid := Says.line (hbare "avoid_empty_dns" (by decide))
    (Toml.writes_flag (b := o.dns.avoidEmpty))
  have hfallback := Says.line (hbare "fallback_nameservers" (by decide))
    (writes_addresses o.dns.fallback)
  have hlevel := Says.line (hbare "level" (by decide)) (Toml.writes_quoted hne hlevel)
  exact ((((((((htun.append hmtu).append hhandover).append hqueue).append hdns).append
    havoid).append hfallback).append hlogging).append hlevel)

theorem ofToml?_toChars (h : o.check = .ok ()) (hdepth : o.tunnel.queueDepth.toNat ≤ maxInteger) :
    ofToml? (String.ofList o.toChars) = some o := by
  have hhead : o.toChars.head? = some '[' := rfl
  have hstatements : Toml.statements? o.toChars = some o.statements :=
    Toml.statements?_of_says (says_toChars h hdepth) (by rw [hhead]; decide)
  rw [ofToml?, String.toList_ofList, Toml.ofChars?, hstatements]
  simp only [Option.bind_eq_bind, Option.bind_some, Option.pure_def, ofStatements?_statements]
  exact ofEntries?_entries

/-- Settings that pass their check read back from what is written, unless the queues are too
    deep for TOML; then nothing is written, and reading it gives the defaults. -/
theorem load_toToml (path : String) (h : o.check = .ok ()) :
    (load path o.toToml = .ok o ↔ o.tunnel.queueDepth.toNat ≤ 2 ^ 63 - 1) ∧
    (2 ^ 63 - 1 < o.tunnel.queueDepth.toNat → o.toToml = "" ∧ load path "" = .ok {}) := by
  have hempty : load path "" = .ok {} := by
    have hread : ofToml? "" = some {} := rfl
    have hcheck : ({} : Options).check = .ok () := by
      have hlogging : LoggingOptions.check {} = .ok () := if_pos (by decide +kernel)
      exact hlogging
    rw [load, hread]
    simp [hcheck]
  by_cases hdepth : o.tunnel.queueDepth.toNat ≤ 2 ^ 63 - 1
  · have hload : load path o.toToml = .ok o := by
      rw [toToml, if_pos (show _ ≤ maxInteger from hdepth), load, ofToml?_toChars h hdepth]
      simp [h]
    exact ⟨iff_of_true hload hdepth, fun hdeep => absurd hdepth (Nat.not_le.2 hdeep)⟩
  · have hwritten : o.toToml = "" := if_neg (show ¬ _ ≤ maxInteger from hdepth)
    refine ⟨iff_of_false ?_ hdepth, fun _ => ⟨hwritten, hempty⟩⟩
    rw [hwritten, hempty]
    intro heq
    have hdefault := Except.ok.inj heq
    subst hdefault
    exact hdepth (by decide)

/-- Nameservers of both families, one of them an embedded IPv4 address, and a level in both
    cases of letters. -/
def spelled (depth : UInt64) : Options where
  tunnel := { defaultMtu := 576, queueDepth := depth }
  dns.fallback := [⟨.ipv4, 0x01020304, by decide⟩, ⟨.ipv6, 0xffff01020304, by decide⟩]
  logging.level := "WaRn"

/-- The deepest queues that are written, and the next ones. -/
theorem load_toToml_spelled :
    load "<string>" (spelled 9223372036854775807).toToml = .ok (spelled 9223372036854775807) ∧
    (spelled 9223372036854775808).toToml = "" ∧
    load "<string>" (spelled 9223372036854775808).toToml ≠ .ok (spelled 9223372036854775808) := by
  have hlevel : LoggingOptions.check ⟨"WaRn"⟩ = .ok () := if_pos (by decide +kernel)
  have hlargest : (spelled 9223372036854775807).check = .ok () := hlevel
  have hdeeper : (spelled 9223372036854775808).check = .ok () := hlevel
  exact ⟨(load_toToml _ hlargest).1.2 (by decide), ((load_toToml "<string>" hdeeper).2 (by decide)).1,
    mt (load_toToml _ hdeeper).1.1 (by decide)⟩

end Options

end

end SeamlessTunnel
