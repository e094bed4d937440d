import SeamlessTunnel.Tunnel.Basic
/-
  SeamlessTunnel.Device.Memory — a device that lives in memory.

  Packets and errors are put in for reads to find, written packets are kept, events are
  emitted at will. A read goes by steps that other tasks may come between: it registers for
  wake-ups, looks whether the device is closed, looks for an injected error, looks for a
  packet, and waits (`Stage`, `stepReader`). Whoever changes what a read looks at first
  makes the change, which is then `unannounced`, and then wakes all who are registered
  (`announce`).

  The operations in the second half do both at once.
-/

namespace SeamlessTunnel.Device

/-- Where a read stands. -/
inductive Stage where
  | registering
  | checkingClosed
  | checkingFaults
  | checkingPackets
  | waiting
  deriving DecidableEq, Repr

/-- A read under way, named by a ticket. -/
structure Reader where
  ticket : Nat
  size : Nat
  stage : Stage := .registering
  /-- Whether it was woken since it registered. -/
  woken : Bool := false
  deriving DecidableEq, Repr

structure Memory where
  name : String
  mtu : UInt16
  packets : List Packet := []
  readFaults : List TunnelError := []
  writeFaults : List TunnelError := []
  written : List Packet := []
  isClosed : Bool := false
  closeCalls : Nat := 0
  /-- What the next close answers. -/
  closeFault : Option TunnelError := none
  /-- Events emitted and not taken. -/
  events : List Event := []
  readers : List Reader := []
  /-- Changes whose wake-up has not gone out. -/
  unannounced : Nat := 0
  deriving Repr

namespace Memory

/-- The most packets that either queue holds. -/
def maxPackets : Nat := 1000

/-! ## Steps -/

/-- Wakes all registered reads. -/
def announce (m : Memory) : Memory :=
  { m with
    unannounced := m.unannounced - 1
    readers := m.readers.map fun r =>
      if r.stage = .registering then r else { r with woken := true } }

def queuePacket (m : Memory) (p : Packet) : Option Memory :=
  if m.packets.length < maxPackets then
    some { m with packets := m.packets ++ [p], unannounced := m.unannounced + 1 }
  else none

def queueFault (m : Memory) (e : TunnelError) : Memory :=
  { m with readFaults := m.readFaults ++ [e], unannounced := m.unannounced + 1 }

def markClosed (m : Memory) : Memory :=
  { m with
    isClosed := true
    closeCalls := m.closeCalls + 1
    unannounced := m.unannounced + 1 }

def startRead (m : Memory) (ticket size : Nat) : Memory :=
  { m with readers := m.readers ++ [{ ticket, size }] }

def cancelRead (m : Memory) (ticket : Nat) : Memory :=
  { m with readers := m.readers.filter (·.ticket != ticket) }

/-- Moves a read to its next stage. -/
def setStage (m : Memory) (ticket : Nat) (stage : Stage) : Memory :=
  { m with readers := m.readers.map fun r => if r.ticket = ticket then { r with stage } else r }

/-- A read registers anew: wake-ups from before no longer count. -/
def register (m : Memory) (ticket : Nat) : Memory :=
  { m with readers := m.readers.map fun r =>
      if r.ticket = ticket then { r with stage := .checkingClosed, woken := false } else r }

/-- One step of a read: the device after it, and the result once there is one. -/
def stepReader (m : Memory) (ticket : Nat) : Option (Memory × Option (Outcome Packet)) := do
  let r ← m.readers.find? (·.ticket = ticket)
  match r.stage with
  | .registering => return (m.register ticket, none)
  | .checkingClosed =>
    if m.isClosed then return (m.cancelRead ticket, some (.failure (.deviceClosed m.name)))
    else return (m.setStage ticket .checkingFaults, none)
  | .checkingFaults =>
    match m.readFaults with
    | e :: rest => return ({ m with readFaults := rest }.cancelRead ticket, some (.failure e))
    | [] => return (m.setStage ticket .checkingPackets, none)
  | .checkingPackets =>
    match m.packets with
    | p :: rest =>
      return ({ m with packets := rest }.cancelRead ticket, some (.value (p.take r.size)))
    | [] => return (m.setStage ticket .waiting, none)
  | .waiting => if r.woken then return (m.setStage ticket .registering, none) else none

/-! ## Operations -/

/-- Puts in a packet for a later read; `none` when there are too many. -/
def inject (m : Memory) (p : Packet) : Option Memory :=
  (m.queuePacket p).map announce

/-- Makes a later read fail. -/
def failRead (m : Memory) (e : TunnelError) : Memory :=
  (m.queueFault e).announce

/-- Makes a later write fail. -/
def failWrite (m : Memory) (e : TunnelError) : Memory :=
  { m with writeFaults := m.writeFaults ++ [e] }

def setCloseFault (m : Memory) (e : TunnelError) : Memory :=
  { m with closeFault := some e }

/-- Emits an event; nobody hears those of a closed device. -/
def emit (m : Memory) (e : Event) : Memory :=
  if m.isClosed then m else { m with events := m.events ++ [e] }

def setMtu (m : Memory) (mtu : UInt16) : Memory :=
  { m with mtu }.emit (.mtu mtu)

def takeWritten (m : Memory) : List Packet × Memory :=
  (m.written, { m with written := [] })

/-- A write fails on a closed device, then by an injected error, then for lack of room. -/
def write (m : Memory) (p : Packet) : Outcome Nat × Memory :=
  if m.isClosed then (.failure (.deviceClosed m.name), m)
  else
    match m.writeFaults with
    | e :: rest => (.failure e, { m with writeFaults := rest })
    | [] =>
      if m.written.length < maxPackets then
        (.value p.length, { m with written := m.written ++ [p] })
      else (.failure (.writeFailed "Write queue full"), m)

/-- The next event, once there is one or none can come any more. -/
def nextEvent (m : Memory) : Option (Option Event × Memory) :=
  match m.events with
  | e :: rest => some (some e, { m with events := rest })
  | [] => if m.isClosed then some (none, m) else none

def close (m : Memory) : Outcome Unit × Memory :=
  let m := m.markClosed.announce
  match m.closeFault with
  | some e => (.failure e, { m with closeFault := none })
  | none => (.value (), m)

end Memory

end SeamlessTunnel.Device
