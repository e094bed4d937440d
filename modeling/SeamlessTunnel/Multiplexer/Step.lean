import SeamlessTunnel.Multiplexer.Pumps
/-
  SeamlessTunnel.Multiplexer.Step — the moves of a multiplexer.

  A move is what one task does between two waits, or what a caller, the owner or a device
  does. `step` is defined where the move can be made. Tasks may be scheduled in any order,
  so a run is any sequence of moves (`Run`); `next?` picks one of the moves that wait for
  nobody outside (`internal`).

  A call on a device may crash, and that is a move like its return (`Outcome.crash`). A pump
  that crashes drops its queue at once, and a crash in a pump or a closer brings down the
  coordinator, which learns of it when it joins the task (`State.crash`). A crash where a
  device is asked for an event or an answer costs no more than these. What is said of all
  runs is said of runs with crashes as well, and names what a crash takes away.
-/

namespace SeamlessTunnel.Multiplexer

inductive Move where
  /-- A caller starts a call. -/
  | call (caller : Caller) (op : Operation)
  /-- A caller for whom a queue has room puts its request in. -/
  | enter (caller : Caller)
  /-- A caller takes its answer and lets go. -/
  | leave (caller : Caller)
  /-- A caller gives up. -/
  | cancel (caller : Caller)
  /-- The owner hands in a device. -/
  | add (device : DeviceRef)
  /-- The owner lets go. -/
  | release
  /-- The coordinator takes its next message, or finds that nobody can send one. -/
  | control
  | joinReader
  | joinWriter
  | joinCloser (id : DeviceId)
  | pollReader
  | pollWriter
  | pollForwarder
  | takeEvent
  | readReturned (out : Outcome Packet)
  | writeReturned (out : Outcome Nat)
  | eventReturned (out : Outcome (Option Event))
  | closeReturned (id : DeviceId) (out : Outcome Unit)
  | lateCloseReturned (id : DeviceId)
  /-- A device has answered a question. -/
  | answered (ticket : Nat) (out : Outcome Answer)
  deriving Repr

namespace State

/-! ## Callers -/

/-- The message that asks for an operation. -/
def controlOf (c : Caller) : Operation → Option Control
  | .mtu => some (.mtu c)
  | .name => some (.name c)
  | .count => some (.count c)
  | .shutdown => some (.shutdown c)
  | .close => some (.close c)
  | .read _ | .write _ | .nextEvent => none

/-- Starts a call. Where nobody takes the request any more the answer is there at once. -/
def call (s : State) (c : Caller) (op : Operation) : Option State :=
  if !s.held || s.calls.any (·.caller = c) || s.gone.contains c then none
  else
    let s := { s with calls := s.calls ++ [({ caller := c } : Call)] }
    match op with
    | .read size =>
      if s.reads.isOpen then some { s with reads := s.reads.send ⟨c, size⟩ }
      else some (s.refuse [c])
    | .write packet =>
      if s.writes.isOpen then some { s with writes := s.writes.send ⟨c, packet⟩ }
      else some (s.refuse [c])
    | .nextEvent => some { s with listeners := s.listeners ++ [c] }
    | _ =>
      if s.isOver then some (s.refuse [c])
      else some { s with control := s.control ++ (controlOf c op).toList }

/-- Puts in the request of a caller that was given room. -/
def enter (s : State) (c : Caller) : Option State :=
  match s.reads.enter (·.caller = c) with
  | some reads => some { s with reads }
  | none => (s.writes.enter (·.caller = c)).map fun writes => { s with writes }

/-- The answer that a caller may take. -/
def answer? (s : State) (c : Caller) : Option Answer :=
  (s.calls.find? (·.caller = c)).bind (·.answer)

def leave (s : State) (c : Caller) : Option State :=
  (s.answer? c).map fun _ => { s with calls := s.calls.filter (·.caller != c) }.releaseEvents

/-- Ends a call unanswered. A request that is already in a queue stays there. -/
def cancel (s : State) (c : Caller) : Option State :=
  if !s.calls.any (·.caller = c) then none
  else
    some { s with
      calls := s.calls.filter (·.caller != c)
      gone := s.gone ++ [c]
      listeners := s.listeners.filter (· != c)
      reads := s.reads.withdraw (·.caller = c)
      writes := s.writes.withdraw (·.caller = c) }.releaseEvents

/-! ## The owner -/

/-- The id of the next device. -/
def nextId (s : State) : DeviceId :=
  ⟨s.added + 1⟩

/-- Hands in a device. An id is used up even when nobody takes the device. -/
def add (s : State) (device : DeviceRef) : Except TunnelError DeviceId × State :=
  let s' := { s with added := s.added + 1 }
  if s.isOver then (.error .closed, s')
  else (.ok s.nextId, { s' with control := s.control ++ [.add s.nextId device] })

def release (s : State) : Option State :=
  if s.held then some { s with held := false }.releaseEvents else none

/-! ## The coordinator -/

def takeControl (s : State) : Option State :=
  if s.coordinator != .serving then none
  else
    match s.control with
    | m :: rest => some ({ s with control := rest }.handle m)
    | [] => if s.hasHandle then none else some (s.beginTeardown .released)

def joinReader (s : State) : Option State :=
  if s.isOver then none
  else
    match s.reader with
    | some ⟨id, _, .stopped exit⟩ => some (s.onReadExit id exit).settleTeardown
    | some ⟨_, _, .crashed⟩ => some s.crash
    | _ => none

def joinWriter (s : State) : Option State :=
  if s.isOver then none
  else
    match s.writer with
    | some ⟨id, _, .stopped exit⟩ => some (s.onWriteExit id exit).settleTeardown
    | some ⟨_, _, .crashed⟩ => some s.crash
    | _ => none

def joinCloser (s : State) (id : DeviceId) : Option State :=
  if s.isOver then none
  else do
    let closer ← s.closers.find? (·.id = id)
    let out ← closer.result
    let s := { s with closers := s.closers.filter (·.id != id) }
    match out with
    | .value () => return (s.onClosed id none).settleTeardown
    | .failure e => return (s.onClosed id (some e)).settleTeardown
    | .crash => return s.crash

/-! ## Devices -/

def closeReturned (s : State) (id : DeviceId) (out : Outcome Unit) : Option State :=
  if s.closers.any fun k => k.id = id && k.result.isNone then
    some { s with closers := s.closers.map fun k =>
      if k.id = id then { k with result := some out } else k }
  else none

def lateCloseReturned (s : State) (id : DeviceId) : Option State :=
  if s.lateCloses.any (·.1 = id) then
    some { s with lateCloses := s.lateCloses.filter (·.1 != id) }
  else none

/-- Passes a device's answer on. A caller whose question crashed learns that nobody will
    answer. -/
def answered (s : State) (ticket : Nat) (out : Outcome Answer) : Option State := do
  let q ← s.queries.find? (·.ticket = ticket)
  let s := { s with queries := s.queries.filter (·.ticket != ticket) }
  match out with
  | .value a => return s.answer q.caller a
  | .failure e => return s.answer q.caller (.failed e)
  | .crash => return s.refuse [q.caller]

end State

/-! ## Steps and runs -/

/-- What a move makes of a state; `none` where it cannot be made. -/
def State.step (s : State) : Move → Option State
  | .call c op => s.call c op
  | .enter c => s.enter c
  | .leave c => s.leave c
  | .cancel c => s.cancel c
  | .add device => if s.held then some (s.add device).2 else none
  | .release => s.release
  | .control => s.takeControl
  | .joinReader => s.joinReader
  | .joinWriter => s.joinWriter
  | .joinCloser id => s.joinCloser id
  | .pollReader => s.pollReader
  | .pollWriter => s.pollWriter
  | .pollForwarder => s.pollForwarder
  | .takeEvent => s.takeEvent
  | .readReturned out => s.readReturned out
  | .writeReturned out => s.writeReturned out
  | .eventReturned out => s.eventReturned out
  | .closeReturned id out => s.closeReturned id out
  | .lateCloseReturned id => s.lateCloseReturned id
  | .answered ticket out => s.answered ticket out

/-- A run from one state to another, with its moves in order. -/
inductive Run : State → List Move → State → Prop
  | nil (s : State) : Run s [] s
  | cons {s t u : State} {m : Move} {ms : List Move} :
      s.step m = some t → Run t ms u → Run s (m :: ms) u

/-- The states that a multiplexer with these settings can come to. -/
def Reachable (settings : MultiplexerSettings) (s : State) : Prop :=
  ∃ ms, Run (.init settings) ms s

theorem Run.append {s t u : State} {ms ns : List Move} (h : Run s ms t) (k : Run t ns u) :
    Run s (ms ++ ns) u := by
  induction h with
  | nil => exact k
  | cons hs _ ih => exact .cons hs (ih k)

theorem Reachable.init (settings : MultiplexerSettings) : Reachable settings (.init settings) :=
  ⟨[], .nil _⟩

theorem Reachable.step {settings : MultiplexerSettings} {s t : State} {m : Move}
    (h : Reachable settings s) (hm : s.step m = some t) : Reachable settings t := by
  obtain ⟨ms, h⟩ := h
  exact ⟨ms ++ [m], h.append (.cons hm (.nil t))⟩

/-! ## Starting -/

/-- Why something that owns queues does not start: its settings are refused, or it crashes
    because no queue is that deep. -/
inductive StartFault (ε : Type) where
  | refused (e : ε)
  | tooDeep
  deriving Repr

/-- What a crash for want of depth says. -/
def tooDeepMessage : String :=
  s!"a semaphore may not have more than MAX_PERMITS permits ({MultiplexerSettings.maxDepth})"

/-- Starts a multiplexer. -/
def start (settings : MultiplexerSettings) : Except (StartFault TunnelError) State :=
  match settings.check with
  | .error e => .error (.refused e)
  | .ok () => if settings.fits then .ok (.init settings) else .error .tooDeep

/-! ## Scheduling -/

/-- The moves of the multiplexer's own tasks and of callers who are on their way, that is
    all that wait for nobody outside. The coordinator comes before the pumps. -/
def State.internal (s : State) : List Move :=
  s.calls.map (.leave ·.caller) ++
  [.joinReader, .joinWriter] ++ s.closers.map (.joinCloser ·.id) ++
  [.control, .pollReader, .pollWriter, .pollForwarder] ++
  s.calls.map (.enter ·.caller) ++
  [.takeEvent]

/-- The first internal move that can be made, and the state after it. -/
def State.next? (s : State) : Option (Move × State) :=
  s.internal.findSome? fun m => (s.step m).map (m, ·)

end SeamlessTunnel.Multiplexer
