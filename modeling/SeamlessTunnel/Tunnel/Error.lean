/-
  SeamlessTunnel.Tunnel.Error — what goes wrong on a tunnel device or in the multiplexer.

  `TunnelError` names causes, `message` holds the wording. Three questions are asked of an
  error: is trying again worth while (`isRetryable`), is the device or the multiplexer gone
  (`isClosed`), did a device report it (`isDeviceFault`).
-/

namespace SeamlessTunnel

/-- A setting that a device or the multiplexer refuses. -/
inductive SettingFault where
  | emptyName
  | longName
  | smallMtu
  | largeMtu
  | noDepth
  | other (field reason : String)
  deriving DecidableEq, Repr

/-- The kinds of system error that are told apart. -/
inductive IoKind where
  | wouldBlock
  | interrupted
  | timedOut
  | other
  deriving DecidableEq, Repr

inductive TunnelError where
  | createFailed (name reason : String)
  | readFailed (reason : String)
  | writeFailed (reason : String)
  | closeFailed (reason : String)
  | deviceClosed (name : String)
  | closed
  | invalidSetting (fault : SettingFault)
  | io (context : String) (kind : IoKind)
  deriving DecidableEq, Repr

namespace SettingFault

def field : SettingFault → String
  | emptyName | longName => "name"
  | smallMtu | largeMtu => "mtu"
  | noDepth => "queue_depth"
  | other field _ => field

def reason : SettingFault → String
  | emptyName => "device name cannot be empty"
  | longName => "device name cannot exceed 15 characters"
  | smallMtu => "MTU must be at least 576 bytes"
  | largeMtu => "MTU cannot exceed 9000 bytes"
  | noDepth => "queue depth must be greater than zero"
  | other _ reason => reason

end SettingFault

namespace TunnelError

/-- The context of a system error that came without one. -/
def unspecified : String :=
  "unspecified I/O operation"

def message : TunnelError → String
  | createFailed name reason => s!"Failed to create TUN device '{name}': {reason}"
  | readFailed reason => s!"TUN read failed: {reason}"
  | writeFailed reason => s!"TUN write failed: {reason}"
  | closeFailed reason => s!"TUN close failed: {reason}"
  | deviceClosed name => s!"TUN device '{name}' is closed"
  | closed => "Tunnel multiplexer is closed"
  | invalidSetting fault => s!"Invalid configuration: {fault.field} - {fault.reason}"
  | io context _ => s!"I/O error: {context}"

def isRetryable : TunnelError → Bool
  | io _ kind => kind != .other
  | _ => false

def isClosed : TunnelError → Bool
  | deviceClosed _ | closed => true
  | _ => false

def isDeviceFault : TunnelError → Bool
  | createFailed _ _ | readFailed _ | writeFailed _ | closeFailed _ | deviceClosed _ => true
  | closed | invalidSetting _ | io _ _ => false

end TunnelError

end SeamlessTunnel
