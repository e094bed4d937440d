import SeamlessTunnel.Address.Reader
import SeamlessTunnel.Settings.Basic
import SeamlessTunnel.Toml.Printer
import SeamlessTunnel.Toml.Reader
/-
  SeamlessTunnel.Settings.Document — settings as TOML documents.

  `Options.ofToml?` reads the sections `tun`, `dns` and `logging`; what is missing takes
  its default, and other keys are ignored. A section may also be a list of its fields in
  their order; a moment gives no field at all. `Options.load` reads and checks, and
  `Options.toToml` writes; a queue depth past the largest integer of TOML has no written
  form, so that such settings have none.
-/

namespace SeamlessTunnel

open Toml (Value Entries)

/-! ## Reading -/

namespace Toml.Value

/-- The fields of a section: what it gives for a name, or for the place in the order of
    fields. -/
def fields? : Value → Option (String → Nat → Option Value)
  | .table _ entries => some fun name _ => entries.lookup name.toList
  | .array items => some fun _ place => items[place]?
  | .moment => some fun _ _ => none
  | _ => none

/-- An integer from zero to `limit`. -/
def natural? (limit : Nat) : Value → Option Nat
  | .integer n => if 0 ≤ n && n ≤ limit then some n.toNat else none
  | _ => none

def bool? : Value → Option Bool
  | .bool b => some b
  | _ => none

def string? : Value → Option String
  | .string s => some (String.ofList s)
  | _ => none

def address? : Value → Option Address
  | .string s => Address.ofChars? s
  | _ => none

def addresses? : Value → Option (List Address)
  | .array items => items.mapM address?
  | _ => none

end Toml.Value

/-- What `read` makes of a value; the default where there is none. -/
def orDefault {α β : Type} (default : β) (read : α → Option β) : Option α → Option β
  | none => some default
  | some v => read v

namespace TunnelOptions

def ofToml? (v : Value) : Option TunnelOptions := do
  let field ← v.fields?
  let d : TunnelOptions := {}
  let mtu ← orDefault d.defaultMtu.toNat (Value.natural? 65535) (field "default_mtu" 0)
  let handover ← orDefault d.seamlessHandover Value.bool? (field "seamless_handover" 1)
  let depth ← orDefault d.queueDepth.toNat (Value.natural? (UInt64.size - 1)) (field "queue_depth" 2)
  return ⟨.ofNat mtu, handover, .ofNat depth⟩

end TunnelOptions

namespace DnsOptions

def ofToml? (v : Value) : Option DnsOptions := do
  let field ← v.fields?
  let d : DnsOptions := {}
  let avoidEmpty ← orDefault d.avoidEmpty Value.bool? (field "avoid_empty_dns" 0)
  let fallback ← orDefault d.fallback Value.addresses? (field "fallback_nameservers" 1)
  return ⟨avoidEmpty, fallback⟩

end DnsOptions

namespace LoggingOptions

def ofToml? (v : Value) : Option LoggingOptions := do
  let field ← v.fields?
  let level ← orDefault ({} : LoggingOptions).level Value.string? (field "level" 0)
  return ⟨level⟩

end LoggingOptions

namespace Options

/-- Settings from the table of a whole document. -/
def ofEntries? (entries : Entries) : Option Options := do
  let tunnel ← orDefault {} TunnelOptions.ofToml? (entries.find? "tun".toList)
  let dns ← orDefault {} DnsOptions.ofToml? (entries.find? "dns".toList)
  let logging ← orDefault {} LoggingOptions.ofToml? (entries.find? "logging".toList)
  return ⟨tunnel, dns, logging⟩

def ofToml? (text : String) : Option Options := do
  ofEntries? (← Toml.ofChars? text.toList)

/-- Reads and checks settings. `path` says in errors where they come from. -/
def load (path : String) (text : String) : Except VpnError Options :=
  match ofToml? text with
  | none => .error (.load path "not a document of settings")
  | some o => do
    o.check
    return o

/-! ## Writing -/

/-- The largest integer of TOML. -/
def maxInteger : Nat :=
  Int64.maxValue.toInt.toNat

def toChars (o : Options) : List Char :=
  "[tun]\n".toList ++
  Toml.line "default_mtu" (Text.decimal o.tunnel.defaultMtu.toNat) ++
  Toml.line "seamless_handover" (Toml.flag o.tunnel.seamlessHandover) ++
  Toml.line "queue_depth" (Text.decimal o.tunnel.queueDepth.toNat) ++
  "\n[dns]\n".toList ++
  Toml.line "avoid_empty_dns" (Toml.flag o.dns.avoidEmpty) ++
  Toml.line "fallback_nameservers"
    (Toml.list (o.dns.fallback.map fun a => Toml.quoted a.text.toList)) ++
  "\n[logging]\n".toList ++
  Toml.line "level" (Toml.quoted o.logging.level.toList)

/-- The written form; empty where there is none. -/
def toToml (o : Options) : String :=
  if o.tunnel.queueDepth.toNat ≤ maxInteger then String.ofList o.toChars else ""

/-- Whether the written form reads back as the same settings. -/
def readsBack (o : Options) : Bool :=
  match load "<string>" o.toToml with
  | .ok read => read = o
  | .error _ => false

end Options

end SeamlessTunnel
