import SeamlessTunnel.Multiplexer.Coordinator
/-
  SeamlessTunnel.Multiplexer.Pumps — the tasks that move packets and events.

  The read pump takes one request at a time and answers it with what the device returns. It
  stops when its device is closed and no read is under way, and when a read fails: while
  the device is active the caller is told, afterwards the request is kept for the next
  device. The write pump stops as soon as its device is no longer active and no write is
  under way; its forwarder stops with it.

  A pump whose coordinator is over ends instead of stopping, and its queue with it.
-/

namespace SeamlessTunnel.Multiplexer.State

/-! ## Reading -/

/-- The read pump stops and waits for the coordinator to take the queue back. -/
def stopReader (s : State) (pump : ReadPump) (exit : ReadExit) : State :=
  if s.isOver then { s with reader := none }.shutReads.refuse exit.callers
  else { s with reader := some { pump with stage := .stopped exit } }

/-- The read pump takes its next request, or stops. A request whose caller has gone away is
    skipped. -/
def pollReader (s : State) : Option State := do
  let pump ← s.reader
  let take (s : State) (r : ReadRequest) : State :=
    let stage := if s.awaits r.caller then .reading r else .ready none
    { s with reader := some { pump with stage } }
  match pump.stage with
  | .ready (some r) => return take s r
  | .ready none =>
    if s.isOver || s.isClosed pump.id then return s.stopReader pump (.drained none)
    else
      match s.reads.receive with
      | some (r, reads) => return take { s with reads } r
      | none => if s.hasHandle then none else return s.stopReader pump .disconnected
  | _ => none

/-- A device read has returned. -/
def readReturned (s : State) (out : Outcome Packet) : Option State := do
  let pump ← s.reader
  match pump.stage with
  | .reading r =>
    match out with
    | .value p =>
      return { s with reader := some { pump with stage := .ready none } }.answer r.caller (.packet p)
    | .failure e =>
      if s.isDraining pump.id then return s.stopReader pump (.drained (some r))
      else return (s.answer r.caller (.failed e)).stopReader pump .failed
    | .crash =>
      let reader := if s.isOver then none else some { pump with stage := .crashed }
      return ({ s with reader }.refuse [r.caller]).shutReads
  | _ => none

/-! ## Writing -/

/-- The forwarder ends, and the event in its hand is lost. -/
def dropForwarder (s : State) : State :=
  { s with forwarder := none, events := s.events.withdraw fun _ => true }

/-- The write pump stops and waits for the coordinator to take the queue back. -/
def stopWriter (s : State) (pump : WritePump) (exit : WriteExit) : State :=
  let s := s.dropForwarder
  if s.isOver then { s with writer := none }.shutWrites
  else { s with writer := some { pump with stage := .stopped exit } }

/-- The write pump starts its forwarder, takes its next request, or stops. -/
def pollWriter (s : State) : Option State := do
  let pump ← s.writer
  match pump.stage with
  | .starting =>
    if s.isOver || s.isDraining pump.id then return s.stopWriter pump .drained
    else return { s with
      writer := some { pump with stage := .ready }
      forwarder := some { id := pump.id, device := pump.device } }
  | .ready =>
    if s.isOver || s.isDraining pump.id then return s.stopWriter pump .drained
    else
      match s.writes.receive with
      | some (r, writes) =>
        let stage := if s.awaits r.caller then .writing r else .ready
        return { s with writes, writer := some { pump with stage } }
      | none => if s.hasHandle then none else return s.stopWriter pump .disconnected
  | _ => none

/-- A device write has returned. -/
def writeReturned (s : State) (out : Outcome Nat) : Option State := do
  let pump ← s.writer
  match pump.stage with
  | .writing r =>
    let ready := { s with writer := some { pump with stage := .ready } }
    match out with
    | .value n => return ready.answer r.caller (.written n)
    | .failure e => return ready.answer r.caller (.failed e)
    | .crash =>
      let writer := if s.isOver then none else some { pump with stage := .crashed }
      return ({ s with writer }.refuse [r.caller]).shutWrites
  | _ => none

/-! ## Events -/

/-- A device has reported its next event, or that there will be none. -/
def eventReturned (s : State) (out : Outcome (Option Event)) : Option State := do
  let f ← s.forwarder
  if !f.asking then none
  else
    match out with
    | .value (some e) =>
      if !s.events.isOpen then return { s with forwarder := none }
      else
        let events := s.events.send e
        return { s with events, forwarder := some { f with asking := events.blocked.isEmpty } }
    | .value none | .failure _ | .crash => return { s with forwarder := none }

/-- The forwarder puts in the event for which it was given room, or finds nobody to
    listen. -/
def pollForwarder (s : State) : Option State := do
  let f ← s.forwarder
  if f.asking then none
  else if !s.events.isOpen then return { s with forwarder := none }
  else
    let events ← s.events.enter fun _ => true
    return { s with events, forwarder := some { f with asking := true } }

/-- The first listener takes the next event, or learns that there will be none. -/
def takeEvent (s : State) : Option State := do
  match s.listeners with
  | [] => none
  | c :: rest =>
    match s.events.receive with
    | some (e, events) => return { s with events, listeners := rest }.answer c (.event (some e))
    | none =>
      if s.isOver && s.forwarder.isNone then
        return { s with listeners := rest }.answer c (.event none)
      else none

end SeamlessTunnel.Multiplexer.State
