import SeamlessTunnel.Device.Memory
/-
  SeamlessTunnel.Device.Sharing — a device in memory with many tasks at it.

  Reads are started, go on step by step and are given up, and others put in packets and
  errors, close the device and wake whoever is registered, in any order (`Move`, `step`,
  `Run`). What a call changes and its wake-up are moves of their own, so a call is under way
  while its wake-up is outstanding; there is a wake-up to make only then. Packets go into a
  full queue in no run: such a call ends its task and leaves the device as it is.

  `Shared` also keeps what the reads came back with. A ticket is given out once.
-/

namespace SeamlessTunnel.Device

inductive Move where
  /-- Somebody reads with a buffer of `size` bytes. -/
  | start (size : Nat)
  /-- A read makes its next step. -/
  | advance (ticket : Nat)
  /-- A read is given up. It is dropped where it waits, or before its first step; runs in
      which it is dropped elsewhere are there as well. -/
  | cancel (ticket : Nat)
  | queuePacket (p : Packet)
  | queueFault (e : TunnelError)
  | markClosed
  | announce
  deriving Repr

/-- What a read came back with, and from which stage. -/
structure Return where
  ticket : Nat
  size : Nat
  stage : Stage
  outcome : Outcome Packet
  deriving Repr

structure Shared where
  device : Memory
  /-- The number of reads started, which is the next ticket. -/
  started : Nat := 0
  /-- The reads that came back, in order. -/
  returns : List Return := []
  deriving Repr

namespace Shared

/-- A new device that nobody has read from. -/
def fresh (settings : DeviceSettings) : Shared :=
  { device := { name := settings.name, mtu := settings.mtu } }

def step (s : Shared) : Move → Option Shared
  | .start size =>
    some { s with device := s.device.startRead s.started size, started := s.started + 1 }
  | .advance ticket => do
    let r ← s.device.readers.find? (·.ticket = ticket)
    let (device, out) ← s.device.stepReader ticket
    return { s with
      device
      returns := s.returns ++ (out.map (⟨ticket, r.size, r.stage, ·⟩)).toList }
  | .cancel ticket =>
    if s.device.readers.any (·.ticket = ticket) then
      some { s with device := s.device.cancelRead ticket }
    else none
  | .queuePacket p => (s.device.queuePacket p).map ({ s with device := · })
  | .queueFault e => some { s with device := s.device.queueFault e }
  | .markClosed => some { s with device := s.device.markClosed }
  | .announce =>
    if 0 < s.device.unannounced then some { s with device := s.device.announce } else none

/-- The reads that came back from a stage. -/
def returnsFrom (s : Shared) (stage : Stage) : List Return :=
  s.returns.filter (·.stage = stage)

/-- What a read came back with, if it did. -/
def returnsOf (s : Shared) (ticket : Nat) : List Return :=
  s.returns.filter (·.ticket = ticket)

end Shared

/-- A run from one state to another, with its moves in order. -/
inductive Run (s : Shared) : List Move → Shared → Prop
  | nil : Run s [] s
  | snoc {t u : Shared} {ms : List Move} {m : Move} :
      Run s ms t → t.step m = some u → Run s (ms ++ [m]) u

/-- The buffers of the reads, by ticket. -/
def sizesIn (ms : List Move) : List Nat :=
  ms.filterMap fun
    | .start size => some size
    | _ => none

end SeamlessTunnel.Device
