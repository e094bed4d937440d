import SeamlessTunnel.Prefix.Error
import SeamlessTunnel.Tunnel.Error
import SeamlessTunnel.Address.Printer
/-
  SeamlessTunnel.Settings.Error — what goes wrong outside the multiplexer: settings, the
  platform, interface listings.

  `VpnError` names causes and wraps the errors of routes and of the tunnel; `message` holds
  the wording.
-/

namespace SeamlessTunnel

/-- A setting that is refused. -/
inductive OptionFault where
  | smallMtu
  | largeMtu
  | noDepth
  | noNameservers
  | unspecifiedNameserver (address : Address)
  | unknownLevel (level : String)
  | other (field reason : String)
  deriving DecidableEq, Repr

inductive VpnError where
  | load (path reason : String)
  | invalid (fault : OptionFault)
  /-- A call on the builder of a tunnel was refused. -/
  | builder (call reason : String)
  | notPrepared
  | multipleUsers
  | establish (reason : String)
  | notJson
  | listing (reason : String)
  | platform (call reason : String)
  | routes (e : RouteError)
  | tunnel (e : TunnelError)
  | io (text : String)
  deriving DecidableEq, Repr

namespace OptionFault

def field : OptionFault → String
  | smallMtu | largeMtu => "tun.default_mtu"
  | noDepth => "tun.queue_depth"
  | noNameservers | unspecifiedNameserver _ => "dns.fallback_nameservers"
  | unknownLevel _ => "logging.level"
  | other field _ => field

def reason : OptionFault → String
  | smallMtu => "must be at least 576"
  | largeMtu => "cannot exceed 9000"
  | noDepth => "must be greater than 0"
  | noNameservers => "cannot be empty when avoid_empty_dns is set"
  | unspecifiedNameserver address => s!"unspecified address {address.text} is not a nameserver"
  | unknownLevel level => s!"unknown level '{level}'"
  | other _ reason => reason

end OptionFault

namespace VpnError

def message : VpnError → String
  | load path reason => s!"Failed to load configuration from '{path}': {reason}"
  | invalid fault => s!"Invalid configuration: {fault.field} - {fault.reason}"
  | builder call reason => s!"VPN builder call '{call}' failed: {reason}"
  | notPrepared => "VPN service not prepared or was revoked"
  | multipleUsers =>
    "VPN cannot be created on this device due to a platform bug with multiple users"
  | establish reason => s!"Failed to establish VPN: {reason}"
  | notJson => "Not a JSON interfaces payload"
  | listing reason => s!"Failed to parse interface list: {reason}"
  | platform call reason => s!"Platform call '{call}' failed: {reason}"
  | routes e => e.message
  | tunnel e => e.message
  | io text => s!"I/O error: {text}"

/-- The message without the part that a text reader adds. -/
def headline : VpnError → String
  | load path _ => s!"Failed to load configuration from '{path}'"
  | listing _ => "Failed to parse interface list"
  | e => e.message

/-- Whether settings are at fault. -/
def isSettingsFault : VpnError → Bool
  | load _ _ | invalid _ => true
  | _ => false

/-- Whether the tunnel could not be brought up. -/
def isEstablishFault : VpnError → Bool
  | builder _ _ | notPrepared | multipleUsers | establish _ => true
  | _ => false

def isFatal : VpnError → Bool
  | load _ _ | multipleUsers => true
  | _ => false

def isRetryable : VpnError → Bool
  | tunnel e => e.isRetryable
  | notPrepared => true
  | _ => false

end VpnError

end SeamlessTunnel
