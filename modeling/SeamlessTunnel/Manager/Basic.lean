import SeamlessTunnel.Manager.Platform
import SeamlessTunnel.Multiplexer.Step
/-
  SeamlessTunnel.Manager.Basic — turning configurations into tunnels.

  The manager owns a multiplexer. Each update that changes anything builds a new tunnel and
  hands it to the multiplexer. With seamless handover the old tunnel stays until then;
  otherwise, and on ChromeOS, all tunnels are closed first. Without local addresses all
  tunnels are closed and none is built.

  Updates and closes go one at a time: whoever comes meanwhile waits in line. A job is cut
  where it waits (`Stage`); what lies between two waits is one step. `enter` runs a job from
  the moment its turn has come, `resume` after an answer of the multiplexer.
-/

namespace SeamlessTunnel.Manager

open Multiplexer (Caller DeviceRef Answer)

/-- The configuration of the tunnel that is attached. -/
structure Applied where
  router : RouterConfig
  dns : Option DnsSettings
  deriving DecidableEq, Repr

inductive Task where
  | update (service : String) (router : RouterConfig) (dns : Option DnsSettings)
  /-- Close all tunnels. -/
  | closeTunnels
  /-- Close the multiplexer for good. -/
  | close
  deriving DecidableEq, Repr

/-- What a job waits for. -/
inductive Stage where
  /-- Its turn. -/
  | turn
  /-- The shutdown that comes before a new tunnel. -/
  | clearing (chromeOs : Bool)
  /-- The shutdown of a configuration without addresses. -/
  | emptying
  /-- The close of a tunnel that the multiplexer refused. -/
  | discarding (device : DeviceRef) (error : TunnelError)
  /-- The shutdown or close that was asked for. -/
  | closing
  deriving DecidableEq, Repr

structure Job where
  caller : Caller
  task : Task
  stage : Stage := .turn
  deriving DecidableEq, Repr

structure State where
  options : Options
  multiplexer : Multiplexer.State
  applied : Option Applied := none
  /-- The service that issued the current tunnel. -/
  service : Option String := none
  monitor : Option String := none
  defaultInterface : String := ""
  jobs : List Job := []
  /-- The job whose turn it is. -/
  holder : Option Caller := none
  /-- The jobs that wait for their turn, in order. -/
  line : List Caller := []
  deriving Repr

/-- What a step did besides changing the state. -/
structure Effects where
  calls : List PlatformCall := []
  /-- The result of the job, once it has one. -/
  result : Option (Except VpnError Unit) := none

/-- Starts a manager and its multiplexer. -/
def start (options : Options) : Except (Multiplexer.StartFault VpnError) State :=
  match options.check with
  | .error e => .error (.refused e)
  | .ok () =>
    match Multiplexer.start options.multiplexer with
    | .error (.refused e) => .error (.refused (.tunnel e))
    | .error .tooDeep => .error .tooDeep
    | .ok multiplexer => .ok { options, multiplexer }

namespace State

def job? (s : State) (c : Caller) : Option Job :=
  s.jobs.find? (·.caller = c)

def setStage (s : State) (c : Caller) (stage : Stage) : State :=
  { s with jobs := s.jobs.map fun j => if j.caller = c then { j with stage } else j }

/-- Ends a job; its turn goes to the next in line. -/
def dismiss (s : State) (c : Caller) : State :=
  let s := { s with jobs := s.jobs.filter (·.caller != c), line := s.line.filter (· != c) }
  if s.holder = some c then { s with holder := s.line.head?, line := s.line.tail } else s

def finish (s : State) (c : Caller) (r : Except VpnError Unit) (calls : List PlatformCall := []) :
    State × Effects :=
  (s.dismiss c, { calls, result := some r })

/-- Starts a call on the multiplexer and waits for its answer. -/
def await (s : State) (c : Caller) (op : Multiplexer.Operation) (stage : Stage) : State × Effects :=
  match s.multiplexer.call c op with
  | some multiplexer => ({ s with multiplexer }.setStage c stage, {})
  | none => (s.setStage c stage, {})

/-! ## Updates -/

/-- Builds a tunnel and attaches it. -/
def build (s : State) (c : Caller) (service : String) (router : RouterConfig)
    (dns : Option DnsSettings) (chromeOs : Bool) (p : Platform) : State × Effects :=
  let s := { s with service := some service }
  let (made, error) := submit p.refuses 0 (plan s.options chromeOs router dns)
  let calls := .newBuilder service :: made
  match error with
  | some e => s.finish c (.error e) calls
  | none =>
    let calls := calls ++ [.establish p.establish]
    match p.establish with
    | .unavailable => s.finish c (.error .notPrepared) calls
    | .failed message =>
      if occursIn multipleUsersMarker.toList message.toList then
        s.finish c (.error .multipleUsers) (calls ++ [.updateStatus service false])
      else s.finish c (.error (.establish message)) calls
    | .tunnel device =>
      let calls := calls ++ [.updateStatus service true]
      let (added, multiplexer) := s.multiplexer.add device
      let s := { s with multiplexer }
      match added with
      | .error e => (s.setStage c (.discarding device e), { calls })
      | .ok _ => { s with applied := some ⟨router, dns⟩ }.finish c (.ok ()) calls

/-- The part of an update after the old tunnels were closed, where they had to be. -/
def proceed (s : State) (c : Caller) (service : String) (router : RouterConfig)
    (dns : Option DnsSettings) (chromeOs : Bool) (p : Platform) : State × Effects :=
  if router.localAddresses.isEmpty then
    { s with applied := none }.await c .shutdown .emptying
  else s.build c service router dns chromeOs p

/-- Runs a job whose turn has come. -/
def run (s : State) (c : Caller) (p : Platform) : Task → State × Effects
  | .update service router dns =>
    if s.applied = some ⟨router, dns⟩ then s.finish c (.ok ())
    else if !s.options.tunnel.seamlessHandover || p.chromeOs then
      { s with applied := none }.await c .shutdown (.clearing p.chromeOs)
    else s.proceed c service router dns p.chromeOs p
  | .closeTunnels => { s with applied := none, service := none }.await c .shutdown .closing
  | .close => { s with applied := none, service := none }.await c .close .closing

/-! ## Steps -/

/-- Starts a job; it gets in line. -/
def start (s : State) (c : Caller) (task : Task) : Option State :=
  if s.jobs.any (·.caller = c) || s.multiplexer.gone.contains c then none
  else
    let s := { s with jobs := s.jobs ++ [({ caller := c, task } : Job)] }
    if s.holder.isNone then some { s with holder := some c }
    else some { s with line := s.line ++ [c] }

/-- The job whose turn it is begins. -/
def enter (s : State) (c : Caller) (p : Platform) : Option (State × Effects) := do
  let j ← s.job? c
  if s.holder = some c && j.stage = .turn then return s.run c p j.task else none

/-- The outcome of a call on the multiplexer that is done or failed. -/
def outcomeOf : Answer → Except VpnError Unit
  | .failed e => .error (.tunnel e)
  | _ => .ok ()

/-- A job goes on with the answer of the multiplexer. Before a new tunnel, and without
    addresses, the outcome of closing does not matter. -/
def resume (s : State) (c : Caller) (p : Platform) : Option (State × Effects) := do
  let j ← s.job? c
  let a ← s.multiplexer.answer? c
  let multiplexer ← s.multiplexer.leave c
  let s := { s with multiplexer }
  match j.stage, j.task with
  | .clearing chromeOs, .update service router dns =>
    return s.proceed c service router dns chromeOs p
  | .emptying, _ => return { s with service := none }.finish c (.ok ())
  | .closing, _ => return s.finish c (outcomeOf a)
  | _, _ => none

/-- The tunnel that the multiplexer refused has been closed. -/
def discarded (s : State) (c : Caller) : Option (State × Effects) := do
  let j ← s.job? c
  match j.stage with
  | .discarding _ e => return s.finish c (.error (.tunnel e))
  | _ => none

/-- A caller gives up; what its job has done stays done. -/
def cancel (s : State) (c : Caller) : Option State := do
  let _ ← s.job? c
  let s := match s.multiplexer.cancel c with
    | some multiplexer => { s with multiplexer }
    | none => s
  return s.dismiss c

/-- The tunnels whose close jobs wait for. -/
def discards (s : State) : List (Caller × DeviceRef) :=
  s.jobs.filterMap fun j =>
    match j.stage with
    | .discarding device _ => some (j.caller, device)
    | _ => none

/-- Asks the current service to keep a socket off the tunnel, by what services answer. The
    result is the service that was asked, and the answer. -/
def protect (s : State) (protects : String → Int → Bool) (fd : Int) : Option String × Bool :=
  (s.service, s.service.any (protects · fd))

/-! ## The network -/

/-- Records the interface of the default route, `""` without one. The answer is the monitor
    to tell. -/
def networkChanged (s : State) (name : String) : Option String × State :=
  (s.monitor, { s with defaultInterface := name })

def setMonitor (s : State) (monitor : String) : State :=
  { s with monitor := some monitor }

end State

/-! ## Moves -/

inductive Move where
  | start (caller : Caller) (task : Task)
  | enter (caller : Caller) (p : Platform)
  | resume (caller : Caller) (p : Platform)
  | discarded (caller : Caller)
  | cancel (caller : Caller)
  /-- A move of the multiplexer, the engine's calls among them. -/
  | multiplexer (m : Multiplexer.Move)

/-- What a move makes of a state, and what it did besides. -/
def State.step (s : State) : Move → Option (State × Effects)
  | .start c task => (s.start c task).map (·, {})
  | .enter c p => s.enter c p
  | .resume c p => s.resume c p
  | .discarded c => s.discarded c
  | .cancel c => (s.cancel c).map (·, {})
  | .multiplexer m => (s.multiplexer.step m).map fun multiplexer => ({ s with multiplexer }, {})

end SeamlessTunnel.Manager
