import SeamlessTunnel.Bench.Basic
import SeamlessTunnel.Text.Quoted
/-
  SeamlessTunnel.Bench.Description — one-line descriptions for a reader of logs.

  A description is a name and fields in braces; two dots stand for fields that are left out.
-/

namespace SeamlessTunnel.Bench

/-- A record of named fields, open at the end if `more` fields exist. -/
def describe (name : String) (fields : List (String × String)) (more : Bool) : String :=
  let shown := fields.map fun (key, value) => key ++ ": " ++ value
  let shown := if more then shown ++ [".."] else shown
  name ++ " \x7b " ++ String.intercalate ", " shown ++ " \x7d"

def quote (s : String) : String :=
  String.ofList (Text.quoted s.toList)

def describeMultiplexer (x : Multiplexer.State) : String :=
  describe "MultiTun" [("closed", toString x.isOver), ("devices_added", toString x.added)] true

def describeMemory (m : Device.Memory) : String :=
  describe "MockTun" [("name", quote m.name), ("mtu", toString m.mtu.toNat),
    ("closed", toString m.isClosed), ("pending_reads", toString m.packets.length),
    ("written_packets", toString m.written.length)] true

def describeOptions (o : Options) : String :=
  let addresses := o.dns.fallback.map (·.text)
  describe "ClientConfig" [
    ("tun", describe "TunnelConfig" [("default_mtu", toString o.tunnel.defaultMtu.toNat),
      ("seamless_handover", toString o.tunnel.seamlessHandover),
      ("queue_depth", toString o.tunnel.queueDepth.toNat)] false),
    ("dns", describe "DnsSettings" [("avoid_empty_dns", toString o.dns.avoidEmpty),
      ("fallback_nameservers", "[" ++ String.intercalate ", " addresses ++ "]")] false),
    ("logging", describe "LoggingConfig" [("level", quote o.logging.level)] false)] false

def describeManager (m : Manager.State) : String :=
  describe "TunnelManager" [("config", describeOptions m.options),
    ("default_interface", quote m.defaultInterface)] true

end SeamlessTunnel.Bench
