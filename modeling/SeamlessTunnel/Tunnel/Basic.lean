import SeamlessTunnel.Tunnel.DeviceId
import SeamlessTunnel.Tunnel.Error
/-
  SeamlessTunnel.Tunnel.Basic — packets, device events and settings.

  `DeviceSettings` describe one device, `MultiplexerSettings` the multiplexer; `check` says
  which setting is refused first. A queue can have at most `maxDepth` places.
-/

namespace SeamlessTunnel

abbrev Packet := List UInt8

/-- What a device reports on its side channel. -/
inductive Event where
  | up
  | down
  | mtu (n : UInt16)
  deriving DecidableEq, Repr

def Event.text : Event → String
  | up => "up"
  | down => "down"
  | mtu n => s!"mtu={n.toNat}"

/-- The result of a call on a device: an answer, an error, or the end of the task that
    made the call. -/
inductive Outcome (α : Type) where
  | value (a : α)
  | failure (e : TunnelError)
  | crash
  deriving Repr

def checkMtu (mtu : UInt16) : Except TunnelError Unit :=
  if mtu < 576 then .error (.invalidSetting .smallMtu)
  else if 9000 < mtu then .error (.invalidSetting .largeMtu)
  else .ok ()

structure DeviceSettings where
  name : String := "tun0"
  mtu : UInt16 := 1280
  deriving DecidableEq, Repr

/-- A name is 1 to 15 bytes. -/
def DeviceSettings.check (s : DeviceSettings) : Except TunnelError Unit :=
  if s.name.isEmpty then .error (.invalidSetting .emptyName)
  else if 15 < s.name.utf8ByteSize then .error (.invalidSetting .longName)
  else checkMtu s.mtu

structure MultiplexerSettings where
  /-- The MTU while no device is attached. -/
  defaultMtu : UInt16 := 1280
  /-- The number of places in each queue. -/
  queueDepth : UInt64 := 64
  deriving DecidableEq, Repr

namespace MultiplexerSettings

def check (s : MultiplexerSettings) : Except TunnelError Unit := do
  checkMtu s.defaultMtu
  if s.queueDepth = 0 then .error (.invalidSetting .noDepth)

/-- The largest number of places a queue can count. -/
def maxDepth : Nat :=
  (UInt64.size - 1) / 8

/-- Whether queues of this depth can be made. -/
def fits (s : MultiplexerSettings) : Bool :=
  0 < s.queueDepth.toNat && s.queueDepth.toNat ≤ maxDepth

end MultiplexerSettings

end SeamlessTunnel
