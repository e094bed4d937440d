/-
  SeamlessTunnel.Tunnel.DeviceId — the number a multiplexer gives to each device it takes.

  Numbers are 64 bits wide and handed out in ascending order, so the smaller of two ids is
  the older device.
-/

namespace SeamlessTunnel

structure DeviceId where
  number : Nat
  deriving DecidableEq, Repr

namespace DeviceId

/-- The id after this one; the last 64-bit number is followed by zero. -/
def next (id : DeviceId) : DeviceId :=
  ⟨(id.number + 1) % UInt64.size⟩

def text (id : DeviceId) : String :=
  s!"tun#{id.number}"

end DeviceId

end SeamlessTunnel
