import SeamlessTunnel.Device.Descriptor
import SeamlessTunnel.Device.Memory
import SeamlessTunnel.Multiplexer.State
/-
  SeamlessTunnel.Bench.Station — a device behind gates.

  A call on a station first comes to the gate of its kind. While the gate is held it waits
  there; the calls of a kind pass in the order they came. Behind the gate a call may crash
  or, for the questions, be answered by an error put in before; otherwise it reaches the
  device, where it is answered at once or waits inside. `advance` lets one call make one
  step.
-/

namespace SeamlessTunnel.Bench

open Device (Memory Descriptor)
open Multiplexer (Answer)

inductive Kind where
  | read
  | write
  | mtu
  | name
  | nextEvent
  | close
  deriving DecidableEq, Repr

namespace Kind

def text : Kind → String
  | read => "read"
  | write => "write"
  | mtu => "mtu"
  | name => "name"
  | nextEvent => "next_event"
  | close => "close"

def all : List Kind :=
  [read, write, mtu, name, nextEvent, close]

def ofText? (s : String) : Option Kind :=
  all.find? (·.text = s)

def ofRequest : Multiplexer.Request → Kind
  | .read _ => read
  | .write _ => write
  | .mtu => mtu
  | .name => name
  | .nextEvent => nextEvent
  | .close => close

end Kind

/-- What a station is asked. Waiting for writes is no call on the device and has no gate. -/
inductive Errand where
  | call (r : Multiplexer.Request)
  | awaitWrites (count : Nat)
  deriving DecidableEq, Repr

inductive Body where
  | memory (m : Memory)
  | descriptor (d : Descriptor)
  deriving Repr

/-- A call at a station. -/
structure Visit where
  ticket : Nat
  errand : Errand
  /-- Whether it has passed the gate. -/
  inside : Bool := false
  deriving DecidableEq, Repr

structure Station where
  body : Body
  held : List Kind := []
  /-- Calls that are to crash behind the gate. -/
  crashes : List Kind := []
  mtuFaults : List TunnelError := []
  nameFaults : List TunnelError := []
  /-- The close calls that have come, counted before the gate. -/
  closeCalls : Nat := 0
  visits : List Visit := []
  deriving Repr

/-- How a device is made: on a channel or in memory. -/
structure Blueprint where
  channel : Option Device.Channel := none
  name : Option String := none
  mtu : Option UInt16 := none
  held : List Kind := []
  deriving Repr

/-- Makes a device, named `default` unless it has a name of its own. -/
def Blueprint.make (b : Blueprint) (default : String) : Except TunnelError Station := do
  let name := b.name.getD default
  let mtu := b.mtu.getD 1280
  match b.channel with
  | none => return { body := .memory { name, mtu }, held := b.held }
  | some channel =>
    let d ← Descriptor.adopt channel { name, mtu }
    return { body := .descriptor d, held := b.held }

namespace Station

def isClosed (s : Station) : Bool :=
  match s.body with
  | .memory m => m.isClosed
  | .descriptor _ => false

/-! ## Coming and going -/

def arrive (s : Station) (ticket : Nat) (errand : Errand) : Station :=
  { s with
    visits := s.visits ++ [{ ticket, errand, inside := !errand matches .call _ }]
    closeCalls := if errand = .call .close then s.closeCalls + 1 else s.closeCalls }

/-- Takes a call away, unanswered or answered. -/
def depart (s : Station) (ticket : Nat) : Station :=
  { s with
    visits := s.visits.filter (·.ticket != ticket)
    body := match s.body with
      | .memory m => .memory (m.cancelRead ticket)
      | .descriptor d => .descriptor d }

/-- An answered call leaves. -/
def answered (s : Station) (v : Visit) (body : Body) (out : Outcome Answer) :
    Station × Option (Outcome Answer) :=
  ({ s with body }.depart v.ticket, some out)

def letIn (s : Station) (v : Visit) (body : Body) : Station × Option (Outcome Answer) :=
  ({ s with
    body
    visits := s.visits.map fun w => if w.ticket = v.ticket then { w with inside := true } else w },
    none)

/-! ## Answers -/

def answerOf {α : Type} (f : α → Answer) : Outcome α → Outcome Answer
  | .value a => .value (f a)
  | .failure e => .failure e
  | .crash => .crash

/-- A call reaches the device. -/
def reach (s : Station) (v : Visit) (r : Multiplexer.Request) : Station × Option (Outcome Answer) :=
  match s.body, r with
  | .memory m, .read size => s.letIn v (.memory (m.startRead v.ticket size))
  | .memory m, .write p =>
    let (out, m) := m.write p
    s.answered v (.memory m) (answerOf .written out)
  | .memory m, .mtu => s.answered v s.body (.value (.mtu m.mtu))
  | .memory m, .name => s.answered v s.body (.value (.name m.name))
  | .memory _, .nextEvent => s.letIn v s.body
  | .memory m, .close =>
    let (out, m) := m.close
    s.answered v (.memory m) (answerOf (fun _ => .done) out)
  | .descriptor d, .read _ | .descriptor d, .write _ =>
    if d.isClosed then s.answered v s.body (.failure d.closedError) else s.letIn v s.body
  | .descriptor d, .mtu => s.answered v s.body (.value (.mtu d.settings.mtu))
  | .descriptor d, .name => s.answered v s.body (.value (.name d.settings.name))
  | .descriptor _, .nextEvent => s.letIn v s.body
  | .descriptor d, .close => s.answered v (.descriptor d.close) (.value .done)

/-- A call passes its gate. -/
def pass (s : Station) (v : Visit) (r : Multiplexer.Request) : Station × Option (Outcome Answer) :=
  let kind := Kind.ofRequest r
  if s.crashes.contains kind then
    { s with crashes := s.crashes.erase kind }.answered v s.body .crash
  else
    match kind, s.mtuFaults, s.nameFaults with
    | .mtu, e :: rest, _ => { s with mtuFaults := rest }.answered v s.body (.failure e)
    | .name, _, e :: rest => { s with nameFaults := rest }.answered v s.body (.failure e)
    | _, _, _ => s.reach v r

/-- Whether a call for events is the first inside; the others wait behind it. -/
def isFirstListener (s : Station) (v : Visit) : Bool :=
  (s.visits.find? fun w => w.inside && w.errand = .call .nextEvent) = some v

/-- A call inside makes a step, if it can. -/
def proceed (s : Station) (v : Visit) : Option (Station × Option (Outcome Answer)) :=
  match s.body, v.errand with
  | .memory m, .call (.read _) =>
    (m.stepReader v.ticket).map fun (m, out) =>
      match out with
      | some out => s.answered v (.memory m) (answerOf .packet out)
      | none => ({ s with body := .memory m }, none)
  | .memory m, .call .nextEvent =>
    if s.isFirstListener v then
      m.nextEvent.map fun (e, m) => s.answered v (.memory m) (.value (.event e))
    else none
  | .memory m, .awaitWrites count =>
    if count ≤ m.written.length then some (s.answered v s.body (.value .done)) else none
  | .descriptor d, .call (.read size) =>
    match d.read size with
    | (some out, d) => some (s.answered v (.descriptor d) (answerOf .packet out))
    | (none, d') =>
      if d.ready && !d'.ready then some ({ s with body := .descriptor d' }, none) else none
  | .descriptor d, .call (.write p) =>
    match d.write p with
    | (some out, d) => some (s.answered v (.descriptor d) (answerOf .written out))
    | (none, _) => none
  | .descriptor d, .call .nextEvent =>
    d.nextEvent.map fun (e, d) => s.answered v (.descriptor d) (.value (.event e))
  | _, _ => none

/-- One step of a call, at the gate or inside. -/
def stepVisit (s : Station) (v : Visit) : Option (Station × Option (Outcome Answer)) :=
  if v.inside then s.proceed v
  else
    match v.errand with
    | .call r => if s.held.contains (Kind.ofRequest r) then none else some (s.pass v r)
    | .awaitWrites _ => none

/-- One step of the first call that can make one, with its ticket and its answer once it is
    there. -/
def advance (s : Station) : Option (Station × Option (Nat × Outcome Answer)) :=
  s.visits.findSome? fun v =>
    (s.stepVisit v).map fun (s, out) => (s, out.map (v.ticket, ·))

end Station

end SeamlessTunnel.Bench
