import SeamlessTunnel.Multiplexer.Mailbox
import SeamlessTunnel.Tunnel.Basic
/-
  SeamlessTunnel.Multiplexer.State — one tunnel device over a succession of devices.

  Callers read, write and ask; the owner adds devices. A coordinator keeps the devices in
  the order they came (`slots`) and answers what comes in over `control`. One read pump
  serves the queue `reads` on one device, one write pump serves `writes` on one device and
  has a forwarder that passes the device's events on to `events`. Devices that were
  superseded are closed by closers.

  Each queue of requests has one owner: the pump that serves it, or else the coordinator
  (`holdsReads`, `holdsWrites`), who gives it to the next pump and gets it back when that
  pump stops.

  A state is everything that a task's next step may depend on. What is under way on a
  device is listed by `outstanding`.
-/

namespace SeamlessTunnel.Multiplexer

/-- A device, as its place in a table of devices. -/
abbrev DeviceRef := Nat

/-- One who makes a call. A caller waits for one call at a time. -/
abbrev Caller := Nat

/-! ## Devices -/

/-- An active device takes writes; a draining one is still read until it is closed. -/
inductive Phase where
  | active
  | draining
  | closed
  deriving DecidableEq, Repr

/-- Whether a pump of one kind runs on a device, or has run. -/
inductive PumpStatus where
  | idle
  | running
  | done
  deriving DecidableEq, Repr

structure Slot where
  id : DeviceId
  device : DeviceRef
  phase : Phase := .active
  reading : PumpStatus := .idle
  writing : PumpStatus := .idle
  /-- Whether its close was started. -/
  closing : Bool := false
  deriving DecidableEq, Repr

/-- A device is gone for good once it is closed and no pump runs on it. -/
def Slot.isRetired (s : Slot) : Bool :=
  s.phase = .closed && s.reading != .running && s.writing != .running

/-! ## Calls -/

/-- What a caller may ask of the multiplexer. -/
inductive Operation where
  | read (size : Nat)
  | write (packet : Packet)
  | mtu
  | name
  | count
  | nextEvent
  | shutdown
  | close
  deriving DecidableEq, Repr

inductive Answer where
  | packet (p : Packet)
  | written (n : Nat)
  | mtu (n : UInt16)
  | name (s : String)
  | count (n : Nat)
  | event (e : Option Event)
  | done
  | failed (e : TunnelError)
  deriving DecidableEq, Repr

/-- A call under way. An answered one still holds the multiplexer until its caller takes
    the answer. -/
structure Call where
  caller : Caller
  answer : Option Answer := none
  deriving DecidableEq, Repr

structure ReadRequest where
  caller : Caller
  size : Nat
  deriving DecidableEq, Repr

structure WriteRequest where
  caller : Caller
  packet : Packet
  deriving DecidableEq, Repr

/-- The callers of requests. -/
def callersOf (request : Option ReadRequest) : List Caller :=
  request.toList.map (·.caller)

/-- A message to the coordinator. -/
inductive Control where
  | add (id : DeviceId) (device : DeviceRef)
  | mtu (caller : Caller)
  | name (caller : Caller)
  | count (caller : Caller)
  | shutdown (caller : Caller)
  | close (caller : Caller)
  deriving DecidableEq, Repr

/-- The caller that waits for the answer to a message. -/
def Control.caller? : Control → Option Caller
  | add _ _ => none
  | mtu c | name c | count c | shutdown c | close c => some c

/-- The callers that wait for answers to messages. -/
def controlCallers (ms : List Control) : List Caller :=
  ms.filterMap (·.caller?)

/-! ## Tasks -/

inductive ReadExit where
  /-- The device drained; a request it left unserved goes to the next one. -/
  | drained (carry : Option ReadRequest)
  /-- A read failed and its caller was told. -/
  | failed
  /-- Nobody is left to ask. -/
  | disconnected
  deriving DecidableEq, Repr

/-- The callers of the request that an exit carries. -/
def ReadExit.callers : ReadExit → List Caller
  | drained carry => callersOf carry
  | failed | disconnected => []

inductive ReadStage where
  /-- About to take a request, the carried one first. -/
  | ready (carry : Option ReadRequest)
  | reading (request : ReadRequest)
  | stopped (exit : ReadExit)
  | crashed
  deriving DecidableEq, Repr

structure ReadPump where
  id : DeviceId
  device : DeviceRef
  stage : ReadStage
  deriving DecidableEq, Repr

inductive WriteExit where
  | drained
  | disconnected
  deriving DecidableEq, Repr

inductive WriteStage where
  /-- Not begun: the forwarder does not run yet. -/
  | starting
  | ready
  | writing (request : WriteRequest)
  | stopped (exit : WriteExit)
  | crashed
  deriving DecidableEq, Repr

structure WritePump where
  id : DeviceId
  device : DeviceRef
  stage : WriteStage
  deriving DecidableEq, Repr

/-- Passes on the events of a device. While it is not `asking` for the next one, the one in
    hand waits for room. -/
structure Forwarder where
  id : DeviceId
  device : DeviceRef
  asking : Bool := true
  deriving DecidableEq, Repr

/-- The task that closes a device, and what came of it. -/
structure Closer where
  id : DeviceId
  device : DeviceRef
  result : Option (Outcome Unit) := none
  deriving Repr

inductive Question where
  | mtu
  | name
  deriving DecidableEq, Repr

/-- A question passed on to a device. -/
structure Query where
  ticket : Nat
  caller : Caller
  device : DeviceRef
  question : Question
  deriving DecidableEq, Repr

/-- Why all devices are being closed. -/
inductive Teardown where
  | shutdown (caller : Caller)
  | close (caller : Caller)
  | released
  deriving DecidableEq, Repr

/-- The caller that waits for a teardown. -/
def Teardown.caller? : Teardown → Option Caller
  | shutdown c | close c => some c
  | released => none

inductive Coordinator where
  | serving
  /-- Closing all devices; nothing is taken from `control` meanwhile. -/
  | tearingDown (cause : Teardown)
  | ended
  | crashed
  deriving DecidableEq, Repr

/-! ## The state -/

structure State where
  defaultMtu : UInt16
  slots : List Slot := []
  reads : Mailbox ReadRequest
  writes : Mailbox WriteRequest
  events : Mailbox Event
  control : List Control := []
  /-- Whether the coordinator has the queue of reads in its hands. -/
  holdsReads : Bool := true
  /-- Whether the coordinator has the queue of writes in its hands. -/
  holdsWrites : Bool := true
  /-- A request that a draining device left unserved while no other can take it. -/
  parked : Option ReadRequest := none
  reader : Option ReadPump := none
  writer : Option WritePump := none
  forwarder : Option Forwarder := none
  closers : List Closer := []
  queries : List Query := []
  /-- Devices that came too late and are closed at once. -/
  lateCloses : List (DeviceId × DeviceRef) := []
  /-- The close failure reported last. -/
  closeError : Option TunnelError := none
  coordinator : Coordinator := .serving
  /-- The number of devices handed in. -/
  added : Nat := 0
  tickets : Nat := 0
  calls : List Call := []
  /-- Callers who gave up. What they asked for may still be on its way, so they ask for
      nothing more. -/
  gone : List Caller := []
  /-- Callers waiting for an event, the first of whom is served. -/
  listeners : List Caller := []
  /-- Whether the owner still holds the multiplexer. -/
  held : Bool := true
  deriving Repr

/-- A multiplexer without devices. -/
def State.init (settings : MultiplexerSettings) : State where
  defaultMtu := settings.defaultMtu
  reads := { capacity := settings.queueDepth.toNat }
  writes := { capacity := settings.queueDepth.toNat }
  events := { capacity := settings.queueDepth.toNat }

namespace State

/-- Whether the coordinator has stopped for good. -/
def isOver (s : State) : Bool :=
  s.coordinator = .ended || s.coordinator = .crashed

/-- Whether anyone still holds the multiplexer. -/
def hasHandle (s : State) : Bool :=
  s.held || !s.calls.isEmpty

/-- Whether a caller still waits for an answer. -/
def awaits (s : State) (c : Caller) : Bool :=
  s.calls.any fun k => k.caller = c && k.answer.isNone

/-- Gives a caller its answer; one that has gone away gets nothing. -/
def answer (s : State) (c : Caller) (a : Answer) : State :=
  { s with calls := s.calls.map fun k =>
      if k.caller = c && k.answer.isNone then { k with answer := some a } else k }

/-- Tells callers that the multiplexer is closed. -/
def refuse (s : State) (cs : List Caller) : State :=
  cs.foldl (fun s c => s.answer c (.failed .closed)) s

def slot? (s : State) (id : DeviceId) : Option Slot :=
  s.slots.find? (·.id = id)

def updateSlot (s : State) (id : DeviceId) (f : Slot → Slot) : State :=
  { s with slots := s.slots.map fun k => if k.id = id then f k else k }

/-- Whether the device is past its active phase. -/
def isDraining (s : State) (id : DeviceId) : Bool :=
  (s.slot? id).any (·.phase != .active)

def isClosed (s : State) (id : DeviceId) : Bool :=
  (s.slot? id).any (·.phase = .closed)

/-- Refuses all read requests in the queue and before it. -/
def shutReads (s : State) : State :=
  let waiting := s.reads.contents.map (·.caller)
  { s with reads := s.reads.shut }.refuse waiting

/-- Refuses all write requests in the queue and before it. -/
def shutWrites (s : State) : State :=
  let waiting := s.writes.contents.map (·.caller)
  { s with writes := s.writes.shut }.refuse waiting

/-- A coordinator that ends takes the queue of reads with it, if it has that in its hands. -/
def dropReads (s : State) : State :=
  if s.holdsReads then { s.shutReads with holdsReads := false } else s

/-- A coordinator that ends takes the queue of writes with it, if it has that in its hands. -/
def dropWrites (s : State) : State :=
  if s.holdsWrites then { s.shutWrites with holdsWrites := false } else s

/-- Without a holder nobody can listen any more. -/
def releaseEvents (s : State) : State :=
  if s.hasHandle then s else { s with events := s.events.shut }

end State

/-! ## Calls on devices -/

/-- A call that the multiplexer makes on a device. -/
inductive DeviceCall where
  | read (id : DeviceId)
  | write (id : DeviceId)
  | nextEvent (id : DeviceId)
  | close (id : DeviceId)
  | lateClose (id : DeviceId)
  | ask (ticket : Nat)
  deriving DecidableEq, Repr

/-- What a device is asked to do. -/
inductive Request where
  | read (size : Nat)
  | write (packet : Packet)
  | mtu
  | name
  | nextEvent
  | close
  deriving DecidableEq, Repr

structure Outstanding where
  call : DeviceCall
  device : DeviceRef
  request : Request
  deriving DecidableEq, Repr

/-- The calls on devices that have not returned. -/
def State.outstanding (s : State) : List Outstanding :=
  (match s.reader with
    | some ⟨id, device, .reading r⟩ => [⟨.read id, device, .read r.size⟩]
    | _ => []) ++
  (match s.writer with
    | some ⟨id, device, .writing r⟩ => [⟨.write id, device, .write r.packet⟩]
    | _ => []) ++
  (match s.forwarder with
    | some ⟨id, device, true⟩ => [⟨.nextEvent id, device, .nextEvent⟩]
    | _ => []) ++
  (s.closers.filter (·.result.isNone)).map (fun k => ⟨.close k.id, k.device, .close⟩) ++
  s.lateCloses.map (fun k => ⟨.lateClose k.1, k.2, .close⟩) ++
  s.queries.map fun q => ⟨.ask q.ticket, q.device,
    match q.question with
    | .mtu => .mtu
    | .name => .name⟩

end SeamlessTunnel.Multiplexer
