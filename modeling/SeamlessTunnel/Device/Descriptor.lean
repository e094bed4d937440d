import SeamlessTunnel.Tunnel.Basic
/-
  SeamlessTunnel.Device.Descriptor — a device on a descriptor of the platform.

  The descriptor is one end of a datagram pair or of a pipe, and the far end belongs to a
  peer. A read waits until the descriptor was reported readable; the report holds until a
  read finds nothing (`ready`). A datagram read takes one message and drops what does not
  fit, a pipe read takes bytes.

  The device reports `up` once. Closing ends waiting reads and the event stream.
-/

namespace SeamlessTunnel.Device

/-- What the descriptor is an end of. -/
inductive Channel where
  | datagram
  | pipeRead
  | pipeWrite
  /-- A file whose readiness cannot be watched. -/
  | file
  deriving DecidableEq, Repr

structure Descriptor where
  channel : Channel
  settings : DeviceSettings
  /-- Messages from the peer, for a pipe in pieces. -/
  inbound : List Packet := []
  /-- Messages that the peer has not taken. -/
  outbound : List Packet := []
  /-- Whether the descriptor counts as readable. -/
  ready : Bool := false
  peerClosed : Bool := false
  /-- Whether a write has met the closed end of a datagram pair. -/
  disconnected : Bool := false
  isClosed : Bool := false
  reportedUp : Bool := false
  deriving Repr

namespace Descriptor

/-- The text of a system error. -/
def systemError (text : String) (code : Nat) : String :=
  s!"{text} (os error {code})"

/-- Takes over a descriptor. Settings are judged first. -/
def adopt (channel : Channel) (settings : DeviceSettings) : Except TunnelError Descriptor := do
  settings.check
  if channel = .file then
    .error (.createFailed settings.name
      ("AsyncFd creation failed: " ++ systemError "Operation not permitted" 1))
  else return { channel, settings }

/-! ## The peer -/

/-- The peer sends; an empty piece adds nothing to a pipe. -/
def send (d : Descriptor) (p : Packet) : Descriptor :=
  match d.channel with
  | .datagram => { d with inbound := d.inbound ++ [p], ready := true }
  | .pipeRead => if p.isEmpty then d else { d with inbound := d.inbound ++ [p], ready := true }
  | .pipeWrite | .file => d

/-- What the peer has received: messages, or one piece with all bytes. -/
def received (d : Descriptor) : List Packet × Descriptor :=
  match d.channel with
  | .datagram => (d.outbound, { d with outbound := [] })
  | _ => ([d.outbound.flatten], { d with outbound := [] })

def closePeer (d : Descriptor) : Descriptor :=
  { d with peerClosed := true, ready := d.ready || d.channel = .pipeRead }

/-! ## Calls -/

def closedError (d : Descriptor) : TunnelError :=
  .deviceClosed d.settings.name

/-- A read that has passed the first look at whether the device is closed. `none` as long as
    it waits; the device then no longer counts as readable. -/
def read (d : Descriptor) (size : Nat) : Option (Outcome Packet) × Descriptor :=
  if d.isClosed then (some (.failure d.closedError), d)
  else if !d.ready then (none, d)
  else if size = 0 then (some (.value []), d)
  else
    match d.channel, d.inbound with
    | .datagram, p :: rest => (some (.value (p.take size)), { d with inbound := rest })
    | .pipeRead, p :: rest =>
      let bytes := (p :: rest).flatten
      let left := bytes.drop size
      (some (.value (bytes.take size)), { d with inbound := if left.isEmpty then [] else [left] })
    | .pipeRead, [] =>
      if d.peerClosed then (some (.value []), d) else (none, { d with ready := false })
    | _, _ => (none, { d with ready := false })

/-- A write that has passed the first look at whether the device is closed. -/
def write (d : Descriptor) (p : Packet) : Option (Outcome Nat) × Descriptor :=
  let refused (text : String) (code : Nat) : Option (Outcome Nat) :=
    some (.failure (.writeFailed (systemError text code)))
  match d.channel with
  | .datagram =>
    if d.disconnected then (refused "Transport endpoint is not connected" 107, d)
    else if d.peerClosed then
      (refused "Connection refused" 111, { d with disconnected := true, inbound := [] })
    else (some (.value p.length), { d with outbound := d.outbound ++ [p] })
  | .pipeWrite =>
    if d.peerClosed && !p.isEmpty then (refused "Broken pipe" 32, d)
    else (some (.value p.length), { d with outbound := d.outbound ++ [p] })
  | .pipeRead | .file =>
    if d.peerClosed then (refused "Bad file descriptor" 9, d) else (none, d)

/-- The next event, once there is one or none can come any more. -/
def nextEvent (d : Descriptor) : Option (Option Event × Descriptor) :=
  if !d.reportedUp then some (some .up, { d with reportedUp := true })
  else if d.isClosed then some (none, d)
  else none

def close (d : Descriptor) : Descriptor :=
  { d with isClosed := true }

end Descriptor

end SeamlessTunnel.Device
