import SeamlessTunnel.Multiplexer.State
/-
  SeamlessTunnel.Multiplexer.Coordinator — what the coordinator does between two waits.

  Adding a device makes the one before it drain and starts the pumps that are free to start
  (`ensureWriter` on the newest device, `ensureReader` on the oldest that is not closed and
  was never read). A device is closed once no write pump runs on it, and leaves the list
  once it is closed and no pump runs on it (`prune`). A teardown closes all devices and ends
  when the list is empty.
-/

namespace SeamlessTunnel.Multiplexer.State

/-! ## Closing and retiring -/

/-- Starts the close of a device, once. -/
def startCloser (s : State) (id : DeviceId) : State :=
  match s.slot? id with
  | none => s
  | some slot =>
    if slot.closing || slot.phase = .closed then s
    else
      let s := s.updateSlot id fun k => { k with closing := true }
      { s with closers := s.closers ++ [({ id, device := slot.device } : Closer)] }

/-- Makes a device drain, and closes it unless its write pump runs; then the close follows
    the end of that pump. -/
def requestClose (s : State) (id : DeviceId) : State :=
  let s := s.updateSlot id fun k =>
    if k.phase = .active then { k with phase := .draining } else k
  if (s.slot? id).any (·.writing = .running) then s else s.startCloser id

def prune (s : State) : State :=
  { s with slots := s.slots.filter (!·.isRetired) }

/-! ## Pumps -/

/-- Keeps a request until a device can take it. One kept before is refused. -/
def park (s : State) (request : Option ReadRequest) : State :=
  { s with parked := request }.refuse (callersOf s.parked)

/-- Starts the read pump with the queue in hand, if it is, on the oldest device that is not
    closed and was never read. A carried request, or else the parked one, is served first. -/
def ensureReader (s : State) (carry : Option ReadRequest) : State :=
  let (carry, s) := match carry with
    | some r => (some r, s)
    | none => (s.parked, { s with parked := none })
  if !s.holdsReads then s.park carry
  else
    match s.slots.find? fun k => k.phase != .closed && k.reading = .idle with
    | none => s.park carry
    | some slot =>
      { s.updateSlot slot.id fun k => { k with reading := .running } with
        holdsReads := false
        reader := some ⟨slot.id, slot.device, .ready carry⟩ }

/-- Starts the write pump with the queue in hand, if none runs, on the newest device while it
    is active and was never written. -/
def ensureWriter (s : State) : State :=
  if s.writer.isSome then s
  else
    match s.slots.getLast? with
    | none => s
    | some slot =>
      if slot.phase != .active || slot.writing != .idle then s
      else if !s.holdsWrites then s
      else
        { s.updateSlot slot.id fun k => { k with writing := .running } with
          holdsWrites := false
          writer := some ⟨slot.id, slot.device, .starting⟩ }

def addSlot (s : State) (id : DeviceId) (device : DeviceRef) : State :=
  let s := match s.slots.getLast? with
    | none => s
    | some last => s.requestClose last.id
  let s := { s with slots := s.slots ++ [({ id, device } : Slot)] }
  s.ensureWriter.ensureReader none

/-! ## Reports -/

/-- The read pump has stopped and hands the queue back. -/
def onReadExit (s : State) (id : DeviceId) (exit : ReadExit) : State :=
  let s := { s with reader := none, holdsReads := true }.updateSlot id
    fun k => { k with reading := .done }
  let s := match exit with
    | .drained carry => s.ensureReader carry
    | .failed => s.ensureReader none
    | .disconnected => s
  s.prune

/-- The write pump has stopped and hands the queue back. -/
def onWriteExit (s : State) (id : DeviceId) (exit : WriteExit) : State :=
  let s := { s with writer := none, holdsWrites := true }.updateSlot id
    fun k => { k with writing := .done }
  let s := match exit with
    | .drained => s.startCloser id
    | .disconnected => s
  s.ensureWriter.prune

/-- A close has returned, with or without an error. -/
def onClosed (s : State) (id : DeviceId) (error : Option TunnelError) : State :=
  let s := s.updateSlot id fun k => { k with phase := .closed }
  let s := match error with
    | none => s
    | some e => { s with closeError := some e }
  s.prune

/-! ## Questions -/

/-- Passes a question on to the newest device, or answers it when there is none. -/
def query (s : State) (c : Caller) (question : Question) (default : Answer) : State :=
  match s.slots.getLast? with
  | none => s.answer c default
  | some slot =>
    { s with
      queries := s.queries ++ [⟨s.tickets, c, slot.device, question⟩]
      tickets := s.tickets + 1 }

/-! ## The end -/

/-- The coordinator stops. Requests that are still waiting are refused, and devices that
    came too late are closed. -/
def finish (s : State) : State :=
  let late := s.control.filterMap fun
    | .add id device => some (id, device)
    | _ => none
  let s := { s with
    coordinator := .ended
    control := []
    lateCloses := s.lateCloses ++ late }.refuse (controlCallers s.control)
  s.dropReads.dropWrites

/-- The result of a teardown: the close failure reported last. -/
def teardownAnswer (s : State) : Answer :=
  match s.closeError with
  | some e => .failed e
  | none => .done

/-- Ends a teardown once no device is left. A read that no device could serve ends with an
    empty packet. -/
def settleTeardown (s : State) : State :=
  match s.coordinator with
  | .tearingDown cause =>
    if !s.slots.isEmpty then s
    else
      let result := s.teardownAnswer
      let s := match s.parked with
        | some r => s.answer r.caller (.packet [])
        | none => s
      let s := { s with parked := none, closeError := none }
      match cause with
      | .shutdown c => { s with coordinator := .serving }.answer c result
      | .close c => (s.answer c result).finish
      | .released => s.finish
  | _ => s

/-- Closes every device. -/
def beginTeardown (s : State) (cause : Teardown) : State :=
  let s := { s with closeError := none, coordinator := .tearingDown cause }
  (s.slots.foldl (fun s slot => s.requestClose slot.id) s).settleTeardown

/-- A task of the multiplexer crashed, and the coordinator with it. Whatever it holds is
    dropped: closes under way are given up, and only pumps in the middle of a device call
    go on. -/
def crash (s : State) : State :=
  let waiting := match s.coordinator with
    | .tearingDown cause => cause.caller?.toList
    | _ => []
  let s := { s with coordinator := .crashed, control := [], closers := [], parked := none }.refuse
    (waiting ++ controlCallers s.control ++ callersOf s.parked)
  let s := s.dropReads
  let s := match s.reader with
    | none => s
    | some pump =>
      match pump.stage with
      | .stopped exit =>
        { s with reader := none }.shutReads.refuse exit.callers
      | .crashed => { s with reader := none }
      | .ready _ | .reading _ => s
  let s := s.dropWrites
  match s.writer with
  | none => s
  | some pump =>
    match pump.stage with
    | .stopped _ => { s with writer := none }.shutWrites
    | .crashed => { s with writer := none }
    | .starting | .ready | .writing _ => s

/-! ## Messages -/

/-- Handles one message. -/
def handle (s : State) : Control → State
  | .add id device => s.addSlot id device
  | .mtu c => s.query c .mtu (.mtu s.defaultMtu)
  | .name c => s.query c .name (.name "")
  | .count c => s.answer c (.count s.slots.length)
  | .shutdown c => s.beginTeardown (.shutdown c)
  | .close c => s.beginTeardown (.close c)

end SeamlessTunnel.Multiplexer.State
