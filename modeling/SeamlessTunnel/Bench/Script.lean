import SeamlessTunnel.Bench.Description
import SeamlessTunnel.Interface.Listing
/-
  SeamlessTunnel.Bench.Script — scripts for the bench.

  A script is a list of steps. Each step has a direct reply (`Reply`); then all tasks run
  until each of them waits, and the step's `Record` says which tasks ended, what the platform
  was called for, and how the devices stand. A burst makes several steps before tasks run.
-/

namespace SeamlessTunnel.Bench

open Multiplexer (Answer DeviceRef Operation Question)

/-- Texts of a router configuration. -/
structure RouterTexts where
  localAddresses : List String := []
  routes : List String := []
  localRoutes : List String := []

def RouterTexts.read (t : RouterTexts) : Except RouteError Manager.RouterConfig := do
  return {
    localAddresses := ← t.localAddresses.mapM Prefix.ofText?
    routes := ← t.routes.mapM Prefix.ofText?
    localRoutes := ← t.localRoutes.mapM Prefix.ofText? }

inductive Step where
  | device (name : String) (blueprint : Blueprint)
  | add (name : String) (blueprint : Blueprint)
  | inject (name : String) (packet : Packet) (times : Nat)
  | failRead (name : String) (e : TunnelError)
  | failWrite (name : String) (e : TunnelError)
  | failClose (name : String) (e : TunnelError)
  | failQuery (name : String) (question : Question) (e : TunnelError)
  | emit (name : String) (e : Event)
  | setMtu (name : String) (mtu : UInt16)
  | written (name : String)
  | closePeer (name : String)
  | hold (name : String) (kind : Kind)
  | release (name : String) (kind : Kind)
  | crash (name : String) (kind : Kind)
  /-- A call on a device, or on the multiplexer where none is named. -/
  | call (name : Option String) (request : Multiplexer.Request) (times : Nat)
  | awaitWrites (name : String) (count : Nat)
  | shutdown
  | count
  | cancel (task : Nat)
  | debug (name : Option String)
  | drop
  | burst (steps : List Step)
  | app (app : App)
  | update (service : String) (router : RouterTexts) (dns : Option DnsSettings)
  | closeTunnels
  | closeManager
  | networkChanged (name : String)
  | setMonitor (monitor : String)
  | defaultInterface
  | dnsBase
  | interfaces
  | describeManager
  | protect (fd : Int)
  | prospects (list : List Prospect)
  | refuse (call : Option (String × String))

/-- The direct reply to a step. -/
inductive Reply where
  | nothing
  | task (number : Nat)
  | id (id : DeviceId)
  | flag (b : Bool)
  | text (s : String)
  | packets (ps : List Packet)
  | dns (settings : DnsSettings)
  | listing (r : Except VpnError Interface.Listing)
  | fault (e : TunnelError)
  | routeFault (e : RouteError)
  | crash (message : String)
  | noDevice
  /-- The step makes no sense here. -/
  | misplaced
  | list (rs : List Reply)

namespace State

/-! ## Devices -/

/-- Makes a device. -/
def makeDevice (s : State) (name : String) (b : Blueprint) : State × Except TunnelError DeviceRef :=
  match b.make name with
  | .error e => (s, .error e)
  | .ok station =>
    ({ s with stations := s.stations ++ [(name, station)] }, .ok s.stations.length)

/-- Hands a device to the multiplexer. -/
def addDevice (s : State) (device : DeviceRef) : State × Reply :=
  match s.multiplexer? with
  | some x =>
    let (added, x) := x.add device
    (s.setMultiplexer x, match added with
      | .ok id => .id id
      | .error e => .fault e)
  | none => (s, .misplaced)

def body? (s : State) (device : DeviceRef) : Option Body :=
  (s.station? device).map (·.body)

def setBody (s : State) (device : DeviceRef) (body : Body) : State :=
  s.updateStation device fun station => { station with body }

/-- Applies a change to a device in memory. -/
def onMemory (s : State) (device : DeviceRef) (f : Device.Memory → Device.Memory × Reply) :
    State × Reply :=
  match s.body? device with
  | some (.memory m) =>
    let (m, reply) := f m
    (s.setBody device (.memory m), reply)
  | _ => (s, .misplaced)

/-- Puts a packet into a device several times; too many packets are a crash. -/
def injectInto (m : Device.Memory) (p : Packet) : Nat → Device.Memory × Reply
  | 0 => (m, .nothing)
  | n + 1 =>
    match m.inject p with
    | some m => injectInto m p n
    | none => (m, .crash "Mock TUN read queue overflow")

def sendTo (d : Device.Descriptor) (p : Packet) : Nat → Device.Descriptor
  | 0 => d
  | n + 1 => sendTo (d.send p) p n

def inject (s : State) (device : DeviceRef) (p : Packet) (times : Nat) : State × Reply :=
  match s.body? device with
  | some (.memory m) =>
    let (m, reply) := injectInto m p times
    (s.setBody device (.memory m), reply)
  | some (.descriptor d) =>
    (s.setBody device (.descriptor (sendTo d p times)), .nothing)
  | none => (s, .misplaced)

def takeWritten (s : State) (device : DeviceRef) : State × Reply :=
  match s.body? device with
  | some (.memory m) =>
    let (ps, m) := m.takeWritten
    (s.setBody device (.memory m), .packets ps)
  | some (.descriptor d) =>
    let (ps, d) := d.received
    (s.setBody device (.descriptor d), .packets ps)
  | none => (s, .misplaced)

def closePeer (s : State) (device : DeviceRef) : State × Reply :=
  match s.body? device with
  | some (.descriptor d) =>
    (s.setBody device (.descriptor d.closePeer), .nothing)
  | _ => (s, .misplaced)

/-! ## Tasks -/

/-- Takes in a task, which starts when tasks run. -/
def enlist (s : State) (work : Work) : State × Reply :=
  let number := s.started + 1
  ({ s with started := number, tasks := s.tasks ++ [({ number, work } : Task)] }, .task number)

/-- The operation of the multiplexer that answers a request. -/
def operationOf : Multiplexer.Request → Operation
  | .read size => .read size
  | .write p => .write p
  | .mtu => .mtu
  | .name => .name
  | .nextEvent => .nextEvent
  | .close => .close

/-- Takes in a call on the multiplexer. -/
def enlistOperation (s : State) (op : Operation) (times : Nat) : State × Reply :=
  match s.multiplexer? with
  | some x => if x.held && !s.dropped then s.enlist (.operation op times) else (s, .misplaced)
  | none => (s, .misplaced)

def enlistJob (s : State) (task : Manager.Task) : State × Reply :=
  match s.manager? with
  | some _ => if s.dropped then (s, .misplaced) else s.enlist (.job task)
  | none => (s, .misplaced)

/-- Ends a task wherever it is; the reply tells whether it was still running. -/
def cancelTask (s : State) (number : Nat) : State × Reply :=
  if !s.tasks.any (·.number = number) then (s, .flag false)
  else
    let owned := s.tickets.filter fun t => t.owner = .task number
    let s := owned.foldl takeBack s
    let s := match s.manager?.bind (·.cancel number) with
      | some m => { s with core := .manager m }
      | none =>
        match s.multiplexer?.bind (·.step (.cancel number)) with
        | some x => s.setMultiplexer x
        | none => s
    (s.endTask number .cancelled, .flag true)

/-! ## The manager -/

def onManager (s : State) (f : Manager.State → State × Reply) : State × Reply :=
  match s.manager? with
  | some m => if s.dropped then (s, .misplaced) else f m
  | none => (s, .misplaced)

def networkChanged (s : State) (m : Manager.State) (name : String) : State × Reply :=
  let (monitor, m) := m.networkChanged name
  let note := monitor.toList.map fun id => s!"network_changed {id} {name}"
  ({ s with core := .manager m, journal := s.journal ++ note }, .nothing)

/-- Asks to keep a socket off the tunnel; every service refuses negative numbers. -/
def protect (s : State) (m : Manager.State) (fd : Int) : State × Reply :=
  let (service, kept) := m.protect (fun _ fd => 0 ≤ fd) fd
  let note := service.toList.map fun id => s!"protect {id} {fd}"
  ({ s with journal := s.journal ++ note }, .flag kept)

/-- The interfaces that the platform lists. -/
def listInterfaces (s : State) : Except VpnError Interface.Listing :=
  match s.app.interfaces with
  | .error message => .error (.platform "interfaces_as_string" message)
  | .ok text => Interface.Listing.ofChars text.toList

/-! ## Steps -/

/-- Makes a step on a device by name. -/
def atDevice (s : State) (name : String) (f : DeviceRef → State × Reply) : State × Reply :=
  match s.find? name with
  | some device => f device
  | none => (s, .noDevice)

def atStation (s : State) (name : String) (f : Station → Station) : State × Reply :=
  s.atDevice name fun device => (s.updateStation device f, .nothing)

def atMemory (s : State) (name : String) (f : Device.Memory → Device.Memory) : State × Reply :=
  s.atDevice name fun device => s.onMemory device fun m => (f m, .nothing)

mutual

/-- Makes one step; no task runs meanwhile. -/
def exec (s : State) : Step → State × Reply
  | .device name b =>
    match s.makeDevice name b with
    | (s, .ok _) => (s, .nothing)
    | (s, .error e) => (s, .fault e)
  | .add name b =>
    match s.find? name with
    | some device => s.addDevice device
    | none =>
      match s.makeDevice name b with
      | (s, .ok device) => s.addDevice device
      | (s, .error e) => (s, .fault e)
  | .inject name p times => s.atDevice name fun device => s.inject device p times
  | .failRead name e => s.atMemory name (·.failRead e)
  | .failWrite name e => s.atMemory name (·.failWrite e)
  | .failClose name e => s.atMemory name (·.setCloseFault e)
  | .failQuery name .mtu e =>
    s.atStation name fun k => { k with mtuFaults := k.mtuFaults ++ [e] }
  | .failQuery name .name e =>
    s.atStation name fun k => { k with nameFaults := k.nameFaults ++ [e] }
  | .emit name e => s.atMemory name (·.emit e)
  | .setMtu name mtu => s.atMemory name (·.setMtu mtu)
  | .written name => s.atDevice name s.takeWritten
  | .closePeer name => s.atDevice name s.closePeer
  | .hold name kind =>
    s.atStation name fun k => { k with held := kind :: k.held.filter (· != kind) }
  | .release name kind => s.atStation name fun k => { k with held := k.held.filter (· != kind) }
  | .crash name kind => s.atStation name fun k => { k with crashes := k.crashes ++ [kind] }
  | .call none r times => s.enlistOperation (operationOf r) times
  | .call (some name) r times =>
    s.atDevice name fun device => s.enlist (.errand device (.call r) times)
  | .awaitWrites name n =>
    s.atDevice name fun device => s.enlist (.errand device (.awaitWrites n) 1)
  | .shutdown => s.enlistOperation .shutdown 1
  | .count => s.enlistOperation .count 1
  | .cancel task => s.cancelTask task
  | .debug none =>
    match s.multiplexer? with
    | some x => if s.dropped then (s, .misplaced) else (s, .text (describeMultiplexer x))
    | none => (s, .misplaced)
  | .debug (some name) =>
    s.atDevice name fun device => s.onMemory device fun m => (m, .text (describeMemory m))
  | .drop => ({ s with dropped := true }, .nothing)
  | .burst steps =>
    let (s, replies) := execAll s steps
    (s, .list replies)
  | .app app => ({ s with app }, .nothing)
  | .update service router dns =>
    match router.read with
    | .error e => (s, .routeFault e)
    | .ok router => s.enlistJob (.update service router dns)
  | .closeTunnels => s.enlistJob .closeTunnels
  | .closeManager => s.enlistJob .close
  | .networkChanged name => s.onManager fun m => s.networkChanged m name
  | .setMonitor id => s.onManager fun m => ({ s with core := .manager (m.setMonitor id) }, .nothing)
  | .defaultInterface => s.onManager fun m => (s, .text m.defaultInterface)
  | .dnsBase => s.onManager fun m =>
    (s, .dns (Dns.base s.app.dns s.app.storeBuild m.options.dns.fallback))
  | .interfaces => s.onManager fun _ => (s, .listing s.listInterfaces)
  | .describeManager => s.onManager fun m => (s, .text (describeManager m))
  | .protect fd => s.onManager fun m => s.protect m fd
  | .prospects list => ({ s with prospects := s.prospects ++ list }, .nothing)
  | .refuse call => ({ s with refusal := call }, .nothing)

/-- Makes steps in a row. -/
def execAll (s : State) : List Step → State × List Reply
  | [] => (s, [])
  | step :: rest =>
    let (s, reply) := s.exec step
    let (s, replies) := execAll s rest
    (s, reply :: replies)

end

end State

/-! ## Records -/

/-- How a device stands. -/
inductive Standing where
  | memory (isClosed : Bool) (closeCalls pending written : Nat)
  | descriptor (closeCalls : Nat)

def Station.standing (s : Station) : Standing :=
  match s.body with
  | .memory m => .memory m.isClosed m.closeCalls m.packets.length m.written.length
  | .descriptor _ => .descriptor s.closeCalls

/-- What a step brought about. -/
structure Record where
  reply : Reply
  /-- Tasks that ended, with whether each was a job of the manager. -/
  ended : List (Nat × Bool × Result)
  calls : List String
  devices : List (String × Standing)

/-- Makes a step and lets all tasks run. -/
def State.perform (s : State) (step : Step) : State × Record :=
  let (s, reply) := s.exec step
  let s := s.settle
  ({ s with results := [], journal := [] },
    { reply
      ended := s.results
      calls := s.journal
      devices := s.stations.map fun (name, station) => (name, station.standing) })

/-- Plays a script: the record of each step, and the tasks that never ended. -/
def State.play (s : State) : List Step → List Record × List Nat
  | [] => ([], s.tasks.map (·.number))
  | step :: rest =>
    let (s, record) := s.perform step
    let (records, waiting) := s.play rest
    (record :: records, waiting)

end SeamlessTunnel.Bench
