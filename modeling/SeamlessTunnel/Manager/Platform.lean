import SeamlessTunnel.Dns.Basic
import SeamlessTunnel.Multiplexer.State
import SeamlessTunnel.Routes.Basic
import SeamlessTunnel.Settings.Basic
/-
  SeamlessTunnel.Manager.Platform — what the client asks of the platform it runs on.

  A tunnel is built by calls on a builder (`BuilderCall`), any of which may be refused, and
  then established. `plan` is the list of builder calls for a configuration; `submit` makes
  them in order up to the first refusal.
-/

namespace SeamlessTunnel.Manager

open Multiplexer (DeviceRef)

/-- The addresses and routes of a tunnel. -/
structure RouterConfig where
  /-- Addresses of the tunnel's own interface. -/
  localAddresses : List Prefix := []
  routes : List Prefix := []
  /-- What stays off the tunnel. -/
  localRoutes : List Prefix := []
  deriving DecidableEq, Repr

inductive BuilderCall where
  | setMtu (mtu : UInt16)
  | addDnsServer (server : Address)
  | addSearchDomain (domain : String)
  | addRoute (network : Address) (length : Nat)
  | addAddress (address : Address) (length : Nat)
  deriving DecidableEq, Repr

namespace BuilderCall

def name : BuilderCall → String
  | setMtu _ => "set_mtu"
  | addDnsServer _ => "add_dns_server"
  | addSearchDomain _ => "add_search_domain"
  | addRoute _ _ => "add_route"
  | addAddress _ _ => "add_address"

def argument : BuilderCall → String
  | setMtu mtu => toString mtu.toNat
  | addDnsServer server => server.text
  | addSearchDomain domain => domain
  | addRoute network length => s!"{network.text}/{length}"
  | addAddress address length => s!"{address.text}/{length}"

end BuilderCall

/-- What comes of establishing a tunnel. -/
inductive Establishment where
  | tunnel (device : DeviceRef)
  /-- The permission is missing or was taken back. -/
  | unavailable
  | failed (message : String)
  deriving DecidableEq, Repr

/-- The platform's behaviour during one step of an update. -/
structure Platform where
  chromeOs : Bool
  /-- The message with which the platform refuses a builder call, by its place in the
      sequence. -/
  refuses : Nat → BuilderCall → Option String
  establish : Establishment

/-- A call on the platform. -/
inductive PlatformCall where
  | newBuilder (service : String)
  | build (call : BuilderCall) (refusal : Option String)
  | establish (outcome : Establishment)
  | updateStatus (service : String) (active : Bool)
  deriving DecidableEq, Repr

/-- The nameservers that are handed on: the fallback where there are none and the platform
    must not be given an empty list. -/
def nameserversFor (options : DnsOptions) (chromeOs : Bool) (dns : DnsSettings) : List Address :=
  if dns.nameservers.isEmpty && (options.avoidEmpty || chromeOs) then options.fallback
  else dns.nameservers

/-- The builder calls for a configuration, in order. -/
def plan (options : Options) (chromeOs : Bool) (router : RouterConfig)
    (dns : Option DnsSettings) : List BuilderCall :=
  [.setMtu options.tunnel.defaultMtu] ++
  (match dns with
    | none => []
    | some dns =>
      (nameserversFor options.dns chromeOs dns).map .addDnsServer ++
      dns.bareDomains.map .addSearchDomain) ++
  (Routes.compute router.routes router.localRoutes).toList.map
    (fun p => .addRoute p.network p.length) ++
  router.localAddresses.map fun p => .addAddress p.address p.length

/-- Makes builder calls from the `n`th on until one is refused. -/
def submit (refuses : Nat → BuilderCall → Option String) :
    Nat → List BuilderCall → List PlatformCall × Option VpnError
  | _, [] => ([], none)
  | n, c :: rest =>
    match refuses n c with
    | some message => ([.build c (some message)], some (.builder c.name message))
    | none =>
      let (made, error) := submit refuses (n + 1) rest
      (.build c none :: made, error)

/-- What a failure message of the platform holds when several users are the reason. -/
def multipleUsersMarker : String :=
  "INTERACT_ACROSS_USERS"

/-- Whether `needle` occurs in a text. -/
def occursIn (needle : List Char) : List Char → Bool
  | [] => needle.isEmpty
  | c :: cs => needle.isPrefixOf (c :: cs) || occursIn needle cs

end SeamlessTunnel.Manager
