import SeamlessTunnel.Settings.Error
import SeamlessTunnel.Tunnel.Basic
/-
  SeamlessTunnel.Settings.Basic — the settings of the client.

  Three sections, each with a value for what is left out. `check` names the first setting
  that is refused: tunnel before DNS before logging.
-/

namespace SeamlessTunnel

structure TunnelOptions where
  /-- The MTU asked of the platform, and the one reported without a device. -/
  defaultMtu : UInt16 := 1280
  /-- Whether the old tunnel stays until the new one is there. -/
  seamlessHandover : Bool := true
  queueDepth : UInt64 := 64
  deriving DecidableEq, Repr

/-- Public nameservers of both families. -/
def publicNameservers : List Address :=
  [⟨.ipv4, 0x08080808, by decide⟩, ⟨.ipv4, 0x08080404, by decide⟩,
    ⟨.ipv6, 0x20014860486000000000000000008888, by decide⟩,
    ⟨.ipv6, 0x20014860486000000000000000008844, by decide⟩]

structure DnsOptions where
  /-- Whether the platform is never given an empty list of nameservers. -/
  avoidEmpty : Bool := false
  /-- The nameservers where none are known. -/
  fallback : List Address := publicNameservers
  deriving DecidableEq, Repr

structure LoggingOptions where
  level : String := "info"
  deriving DecidableEq, Repr

structure Options where
  tunnel : TunnelOptions := {}
  dns : DnsOptions := {}
  logging : LoggingOptions := {}
  deriving DecidableEq, Repr

def TunnelOptions.check (o : TunnelOptions) : Except VpnError Unit :=
  if o.defaultMtu < 576 then .error (.invalid .smallMtu)
  else if 9000 < o.defaultMtu then .error (.invalid .largeMtu)
  else if o.queueDepth = 0 then .error (.invalid .noDepth)
  else .ok ()

def DnsOptions.check (o : DnsOptions) : Except VpnError Unit :=
  if o.avoidEmpty && o.fallback.isEmpty then .error (.invalid .noNameservers)
  else
    match o.fallback.find? (·.isUnspecified) with
    | some a => .error (.invalid (.unspecifiedNameserver a))
    | none => .ok ()

/-- The levels of the log, in lower case. -/
def logLevels : List String :=
  ["trace", "debug", "info", "warn", "error"]

/-- A level is known in any case of its letters. -/
def LoggingOptions.check (o : LoggingOptions) : Except VpnError Unit :=
  if logLevels.contains (o.level.map Char.toLower) then .ok ()
  else .error (.invalid (.unknownLevel o.level))

namespace Options

def check (o : Options) : Except VpnError Unit := do
  o.tunnel.check
  o.dns.check
  o.logging.check

/-- The settings of the multiplexer. -/
def multiplexer (o : Options) : MultiplexerSettings where
  defaultMtu := o.tunnel.defaultMtu
  queueDepth := o.tunnel.queueDepth

end Options

end SeamlessTunnel
