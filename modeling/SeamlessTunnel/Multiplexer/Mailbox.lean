/-
  SeamlessTunnel.Multiplexer.Mailbox — a bounded queue with waiting senders.

  A sender that finds room puts its message in at once (`send`); otherwise it waits its
  turn in `blocked`. Room that comes free is given to the sender at the head, which is then
  `admitted` and puts its message in by a step of its own (`enter`). A sender that gives up
  leaves (`withdraw`) and hands on the room it was given. Messages come out in the order
  they went in (`receive`). `shut` refuses all that is inside or waiting.
-/

namespace SeamlessTunnel.Multiplexer

structure Mailbox (α : Type) where
  capacity : Nat
  items : List α := []
  admitted : List α := []
  blocked : List α := []
  isOpen : Bool := true
  deriving Repr

namespace Mailbox

variable {α : Type}

/-- Whether a place is neither taken nor promised. -/
def hasRoom (m : Mailbox α) : Bool :=
  m.items.length + m.admitted.length < m.capacity

def send (m : Mailbox α) (a : α) : Mailbox α :=
  if m.blocked.isEmpty && m.hasRoom then { m with items := m.items ++ [a] }
  else { m with blocked := m.blocked ++ [a] }

/-- Gives free places to the senders at the head. -/
def grant (m : Mailbox α) : Mailbox α :=
  let free := m.capacity - (m.items.length + m.admitted.length)
  { m with admitted := m.admitted ++ m.blocked.take free, blocked := m.blocked.drop free }

/-- The message at the head, and what is left once its place is free. -/
def receive (m : Mailbox α) : Option (α × Mailbox α) :=
  match m.items with
  | [] => none
  | a :: rest => some (a, { m with items := rest }.grant)

/-- Puts in the message of the first admitted sender that satisfies `p`. -/
def enter (m : Mailbox α) (p : α → Bool) : Option (Mailbox α) :=
  (m.admitted.find? p).map fun a =>
    { m with items := m.items ++ [a], admitted := m.admitted.eraseP p }

/-- Takes out the waiting senders that satisfy `p`. -/
def withdraw (m : Mailbox α) (p : α → Bool) : Mailbox α :=
  { m with admitted := m.admitted.filter (!p ·), blocked := m.blocked.filter (!p ·) }.grant

/-- All messages inside or waiting. -/
def contents (m : Mailbox α) : List α :=
  m.items ++ m.admitted ++ m.blocked

def shut (m : Mailbox α) : Mailbox α :=
  { m with items := [], admitted := [], blocked := [], isOpen := false }

/-- Whether no message is inside or about to be. -/
def isEmpty (m : Mailbox α) : Bool :=
  m.items.isEmpty && m.admitted.isEmpty && m.blocked.isEmpty

theorem items_receive {m m' : Mailbox α} {a : α} (h : m.receive = some (a, m')) :
    m.items = a :: m'.items := by
  unfold receive at h
  split at h
  · simp at h
  · simp only [Option.some.injEq, Prod.mk.injEq] at h
    obtain ⟨rfl, rfl⟩ := h
    simp_all [grant]

@[simp] theorem contents_grant (m : Mailbox α) : m.grant.contents = m.contents := by
  simp [grant, contents]

end Mailbox

end SeamlessTunnel.Multiplexer
