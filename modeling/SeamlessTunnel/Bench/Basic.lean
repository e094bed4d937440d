import SeamlessTunnel.Bench.Station
import SeamlessTunnel.Manager.Basic
/-
  SeamlessTunnel.Bench.Basic — devices, a multiplexer and a manager on a bench.

  Whoever calls something that may wait runs as a numbered task. `settle` lets all tasks,
  those of the multiplexer included, run until each of them waits; it makes only moves that
  `Multiplexer.State.step` and `Manager.State.step` allow.

  Calls on devices are visits at stations. After each move of the multiplexer or the manager
  `visitStations` starts the calls that have come up and takes back those that were given
  up.
-/

namespace SeamlessTunnel.Bench

open Multiplexer (Answer DeviceRef DeviceCall Operation)

/-! ## Tasks -/

/-- Whom a device answers. -/
inductive Owner where
  | multiplexer (call : DeviceCall)
  | task (number : Nat)
  deriving DecidableEq, Repr

/-- What a task does. A call may be made several times in a row. -/
inductive Work where
  | operation (op : Operation) (times : Nat)
  | errand (device : DeviceRef) (errand : Errand) (times : Nat)
  | job (task : Manager.Task)
  deriving Repr

structure Task where
  number : Nat
  work : Work
  started : Bool := false
  deriving Repr

/-- What came of a task. -/
inductive Result where
  | answer (a : Answer)
  | error (e : VpnError)
  /-- The call of this kind crashed. -/
  | crash (kind : Kind)
  | cancelled
  deriving Repr

/-- A visit under way: where it is and whom it answers. -/
structure Ticket where
  number : Nat
  device : DeviceRef
  owner : Owner
  deriving DecidableEq, Repr

/-! ## The bench -/

/-- A multiplexer by itself, one owned by a manager, or none. -/
inductive Core where
  | none
  | multiplexer (m : Multiplexer.State)
  | manager (m : Manager.State)
  deriving Repr

/-- What `establish` will do. -/
inductive Prospect where
  | device (blueprint : Blueprint)
  | unavailable
  | failed (message : String)
  deriving Repr

/-- What the application tells the manager. -/
structure App where
  /-- Whether this is ChromeOS, unless it cannot be told. -/
  chromeOs : Option Bool := some false
  storeBuild : Bool := false
  interfaces : Except String String := .ok ""
  dns : String := ""
  deriving Repr

structure State where
  core : Core := .none
  /-- Devices in the order they were made. -/
  stations : List (String × Station) := []
  tickets : List Ticket := []
  nextTicket : Nat := 0
  tasks : List Task := []
  started : Nat := 0
  app : App := {}
  prospects : List Prospect := []
  /-- The builder call that is refused, and the message. -/
  refusal : Option (String × String) := none
  /-- Whether the handles to multiplexer and manager were let go. -/
  dropped : Bool := false
  /-- Results since the last step, with whether the task was a job of the manager. -/
  results : List (Nat × Bool × Result) := []
  /-- Platform calls since the last step. -/
  journal : List String := []
  /-- How the platform words that a device cannot be made. -/
  faultText : TunnelError → String := (·.message)

namespace State

def multiplexer? (s : State) : Option Multiplexer.State :=
  match s.core with
  | .none => none
  | .multiplexer m => some m
  | .manager m => some m.multiplexer

def manager? (s : State) : Option Manager.State :=
  match s.core with
  | .manager m => some m
  | _ => none

def setMultiplexer (s : State) (x : Multiplexer.State) : State :=
  match s.core with
  | .none => s
  | .multiplexer _ => { s with core := .multiplexer x }
  | .manager m => { s with core := .manager { m with multiplexer := x } }

def station? (s : State) (device : DeviceRef) : Option Station :=
  s.stations[device]?.map (·.2)

def updateStation (s : State) (device : DeviceRef) (f : Station → Station) : State :=
  { s with stations := s.stations.modify device fun (name, station) => (name, f station) }

/-- The place of the newest device of this name. -/
def find? (s : State) (name : String) : Option DeviceRef :=
  (s.stations.reverse.findIdx? (·.1 = name)).map fun i => s.stations.length - 1 - i

/-! ## Visits -/

def visit (s : State) (device : DeviceRef) (errand : Errand) (owner : Owner) : State :=
  let ticket := s.nextTicket
  let s : State := { s with
    nextTicket := ticket + 1
    tickets := s.tickets ++ [⟨ticket, device, owner⟩] }
  s.updateStation device (·.arrive ticket errand)

def takeBack (s : State) (t : Ticket) : State :=
  let s : State := { s with tickets := s.tickets.filter (·.number != t.number) }
  s.updateStation t.device (·.depart t.number)

/-- The visits that the multiplexer and the manager want to be under way. -/
def wanted (s : State) : List (Owner × DeviceRef × Errand) :=
  (match s.multiplexer? with
    | some x => x.outstanding.map fun o => (.multiplexer o.call, o.device, .call o.request)
    | none => []) ++
  (match s.manager? with
    | some m => m.discards.map fun (c, device) => (.task c, device, .call .close)
    | none => [])

/-- Starts the visits that have come up, and takes back those that the multiplexer has given
    up. -/
def visitStations (s : State) : State :=
  let wanted := s.wanted
  let stale := s.tickets.filter fun t =>
    t.owner matches .multiplexer _ && !wanted.any fun w => w.1 = t.owner && w.2.1 = t.device
  let s := stale.foldl takeBack s
  let fresh := wanted.filter fun w =>
    !s.tickets.any fun t => t.owner = w.1 && t.device = w.2.1
  fresh.foldl (fun s w => s.visit w.2.1 w.2.2 w.1) s

/-! ## Results -/

def endTask (s : State) (number : Nat) (r : Result) : State :=
  let isJob := s.tasks.any fun t => t.number = number && t.work matches .job _
  { s with
    tasks := s.tasks.filter (·.number != number)
    results := s.results ++ [(number, isJob, r)] }

/-- The kind of call that a task makes, for the report of a crash. -/
def kindOf (w : Work) : Kind :=
  match w with
  | .errand _ (.call r) _ => .ofRequest r
  | _ => .close

/-- The result of a task from the outcome of its last call. -/
def resultOf (w : Work) : Outcome Answer → Result
  | .value (.failed e) => .error (.tunnel e)
  | .value a => .answer a
  | .failure e => .error (.tunnel e)
  | .crash => .crash (kindOf w)

/-- A call of a task has been answered: the task makes its next call, or ends. -/
def answerTask (s : State) (number : Nat) (out : Outcome Answer) : State :=
  match s.tasks.find? (·.number = number) with
  | none => s
  | some t =>
    let again (w : Work) : State :=
      { s with tasks := s.tasks.map fun k =>
          if k.number = number then { k with work := w, started := false } else k }
    match t.work, out with
    | w, .crash => s.endTask number (resultOf w out)
    | .operation op (n + 2), _ => again (.operation op (n + 1))
    | .errand device errand (n + 2), _ => again (.errand device errand (n + 1))
    | w, _ => s.endTask number (resultOf w out)

/-! ## The platform -/

/-- Whether a device counts as closed. -/
def closedMarks (s : State) : String :=
  let marks := s.stations.map fun (_, station) => toString station.isClosed
  "[" ++ String.intercalate ", " marks ++ "]"

/-- How a platform call is written down; a refused one is not. -/
def noteOf (s : State) : Manager.PlatformCall → Option String
  | .newBuilder service => some s!"new_builder {service}"
  | .build call none => some s!"{call.name} {call.argument}"
  | .build _ (some _) => none
  | .establish _ =>
    if s.refusal.any (·.1 = "establish") then none else some s!"establish {s.closedMarks}"
  | .updateStatus service active => some s!"update_vpn_status {service} {active}"

/-- The name of the device that is made next. -/
def nextName (s : State) : String :=
  s!"tun{s.stations.length}"

/-- The next prospect; without any left a device in memory is made. -/
def prospect (s : State) : Prospect :=
  s.prospects.headD (.device {})

/-- The station that the next prospect leads to. -/
def nextStation (s : State) : Option Station :=
  match s.prospect with
  | .device blueprint => (blueprint.make s.nextName).toOption
  | _ => none

/-- What establishing a tunnel comes to. -/
def establishment (s : State) : Manager.Establishment :=
  match s.refusal.filter (·.1 = "establish") with
  | some (_, message) => .failed message
  | none =>
    match s.prospect with
    | .unavailable => .unavailable
    | .failed message => .failed message
    | .device blueprint =>
      match blueprint.make s.nextName with
      | .ok _ => .tunnel s.stations.length
      | .error e => .failed (s.faultText e)

/-- The platform as it behaves now. -/
def platform (s : State) : Manager.Platform where
  chromeOs := s.app.chromeOs.getD false
  refuses _ call := (s.refusal.filter (·.1 = call.name)).map (·.2)
  establish := s.establishment

/-- Whether the calls reached a prospect. -/
def reachedProspect (s : State) (calls : List Manager.PlatformCall) : Bool :=
  calls.any (· matches .establish _) && !s.refusal.any (·.1 = "establish")

/-- Takes over what a step of the manager did: calls are written down, and a tunnel that was
    established gets its station. -/
def absorb (s : State) (number : Nat) (m : Manager.State) (e : Manager.Effects) : State :=
  let notes := e.calls.filterMap s.noteOf
  let s : State :=
    if s.reachedProspect e.calls then
      { s with
        prospects := s.prospects.tail
        stations := s.stations ++ s.nextStation.toList.map (s.nextName, ·) }
    else s
  let s : State := { s with core := .manager m, journal := s.journal ++ notes }
  match e.result with
  | none => s
  | some (.ok ()) => s.endTask number (.answer .done)
  | some (.error e) => s.endTask number (.error e)

/-! ## Moves -/

/-- Starts a task. -/
def startTask (s : State) (t : Task) : State :=
  let s : State := { s with tasks := s.tasks.map fun k =>
    if k.number = t.number then { k with started := true } else k }
  match t.work with
  | .operation op _ =>
    match s.multiplexer?.bind (·.step (.call t.number op)) with
    | some x => s.setMultiplexer x
    | none => s
  | .errand device errand _ => s.visit device errand (.task t.number)
  | .job task =>
    match s.manager?.bind (·.start t.number task) with
    | some m => { s with core := .manager m }
    | none => s

/-- A task without a handle of its own is one that has made its call and makes no other. -/
def needsHandle (t : Task) : Bool :=
  match t.work with
  | .operation _ times => !t.started || 1 < times
  | .job _ => true
  | .errand _ _ _ => false

/-- Lets go of the multiplexer once nobody on the bench needs it. -/
def releaseIfDropped (s : State) : Option State := do
  let x ← s.multiplexer?
  if s.dropped && x.held && !s.tasks.any needsHandle then
    return s.setMultiplexer (← x.step .release)
  else none

/-- An answered call is taken by the manager's job or the task that made it. -/
def takeAnswer (s : State) : Option State := do
  let x ← s.multiplexer?
  let call ← x.calls.find? (·.answer.isSome)
  let answer ← call.answer
  let resumed := do
    let m ← s.manager?
    m.resume call.caller s.platform
  match resumed with
  | some (m, effects) => return s.absorb call.caller m effects
  | none =>
    let x ← x.step (.leave call.caller)
    return (s.setMultiplexer x).answerTask call.caller (.value answer)

/-- The manager's job whose turn has come begins. -/
def enterJob (s : State) : Option State := do
  let m ← s.manager?
  let c ← m.holder
  let (m, effects) ← m.enter c s.platform
  return s.absorb c m effects

def stepMultiplexer (s : State) : Option State := do
  let x ← s.multiplexer?
  let (_, x) ← x.next?
  return s.setMultiplexer x

/-- The result of a call that answers with nothing but success. -/
def toUnit : Outcome Answer → Outcome Unit
  | .value _ => .value ()
  | .failure e => .failure e
  | .crash => .crash

def toPacket : Outcome Answer → Outcome Packet
  | .value (.packet p) => .value p
  | .value _ => .value []
  | .failure e => .failure e
  | .crash => .crash

def toCount : Outcome Answer → Outcome Nat
  | .value (.written n) => .value n
  | .value _ => .value 0
  | .failure e => .failure e
  | .crash => .crash

def toEvent : Outcome Answer → Outcome (Option Event)
  | .value (.event e) => .value e
  | .value _ => .value none
  | .failure e => .failure e
  | .crash => .crash

/-- The move by which a device answers the multiplexer. -/
def returnMove (call : DeviceCall) (out : Outcome Answer) : Multiplexer.Move :=
  match call with
  | .read _ => .readReturned (toPacket out)
  | .write _ => .writeReturned (toCount out)
  | .nextEvent _ => .eventReturned (toEvent out)
  | .close id => .closeReturned id (toUnit out)
  | .lateClose id => .lateCloseReturned id
  | .ask ticket => .answered ticket out

/-- Hands an answer of a device to its owner. -/
def deliver (s : State) (t : Ticket) (out : Outcome Answer) : State :=
  let s : State := { s with tickets := s.tickets.filter (·.number != t.number) }
  match t.owner with
  | .multiplexer call =>
    match s.multiplexer?.bind (·.step (returnMove call out)) with
    | some x => s.setMultiplexer x
    | none => s
  | .task number =>
    match s.manager?.bind (·.discarded number), out with
    | none, _ => s.answerTask number out
    | some (m, _), .crash => { s with core := .manager m }.endTask number (.crash .close)
    | some (m, effects), _ => s.absorb number m effects

/-- One step of the first device that can make one. -/
def stepStation (s : State) : Option State := do
  let (device, station, out) ← (List.range s.stations.length).findSome? fun device => do
    let station ← s.station? device
    let (station, out) ← station.advance
    return (device, station, out)
  let s := s.updateStation device fun _ => station
  match out with
  | none => return s
  | some (ticket, out) =>
    match s.tickets.find? (·.number = ticket) with
    | some t => return s.deliver t out
    | none => return s

/-- Starts the first task that has not begun. -/
def stepTask (s : State) : Option State := do
  let t ← s.tasks.find? (!·.started)
  return s.startTask t

/-- One move of whoever does not wait. -/
def advance (s : State) : Option State :=
  (s.stepTask <|> s.takeAnswer <|> s.releaseIfDropped <|> s.enterJob <|> s.stepMultiplexer <|>
    s.stepStation).map visitStations

/-- Makes at most `fuel` moves. -/
def run : Nat → State → State
  | 0, s => s
  | fuel + 1, s =>
    match s.advance with
    | some s => run fuel s
    | none => s

/-- How often a task makes its call. -/
def Task.times (t : Task) : Nat :=
  match t.work with
  | .operation _ times | .errand _ _ times => times
  | .job _ => 1

/-- A measure of what is to be done: calls, messages, devices. -/
def load (s : State) : Nat :=
  s.tasks.foldl (fun n t => n + Task.times t) 0 + s.tickets.length + s.stations.length +
  (match s.multiplexer? with
    | none => 0
    | some x =>
      x.reads.contents.length + x.writes.contents.length + x.control.length + x.calls.length +
      x.slots.length)

/-- Lets all tasks run until each of them waits. -/
def settle (s : State) : State :=
  run (1000 * (s.load + 1) * (s.load + 1)) s.visitStations

end State

end SeamlessTunnel.Bench
