import Mathlib.Data.List.Basic
import SeamlessTunnel.Multiplexer.Mailbox
/-
  SeamlessTunnel.Proofs.Multiplexer.Mailbox — what goes in comes out, and room is not wasted.

  Each operation of a queue puts in one message, takes one out or keeps them all
  (`perm_send`, `contents_receive`, `perm_enter`, ...). Senders that wait keep their order
  (`waiting`). No sender waits while a place is neither taken nor promised (`Keeps.tight`).
-/

namespace SeamlessTunnel.Multiplexer.Mailbox

open scoped List

variable {α : Type} {m m' : Mailbox α} {a : α} {p : α → Bool}

/-! ## Contents -/

theorem perm_send : (m.send a).contents.Perm (a :: m.contents) := by
  unfold send
  split
  · show (m.items ++ [a] ++ m.admitted ++ m.blocked).Perm _
    simp [contents]
  · show (m.items ++ m.admitted ++ (m.blocked ++ [a])).Perm _
    rw [← List.append_assoc]
    exact List.perm_append_singleton a m.contents

theorem perm_enter (h : m.enter p = some m') : m'.contents.Perm m.contents := by
  obtain ⟨a, ha, rfl⟩ := Option.map_eq_some_iff.1 h
  obtain ⟨hp, before, after, hadmitted, hbefore⟩ := List.find?_eq_some_iff_append.1 ha
  have herase : m.admitted.eraseP p = before ++ after := by
    rw [hadmitted, List.eraseP_append_right _ (by simpa using hbefore), List.eraseP_cons_of_pos hp]
  have hmoved : (a :: (before ++ after)).Perm (before ++ a :: after) := List.perm_middle.symm
  calc m.items ++ [a] ++ m.admitted.eraseP p ++ m.blocked
      = m.items ++ (a :: (before ++ after) ++ m.blocked) := by simp [herase]
    _ ~ m.items ++ (before ++ a :: after ++ m.blocked) :=
      (hmoved.append_right m.blocked).append_left m.items
    _ = m.contents := by simp [contents, hadmitted]

theorem contents_receive (h : m.receive = some (a, m')) : m.contents = a :: m'.contents := by
  unfold receive at h
  split at h
  · cases h
  · rename_i a' rest hi
    simp only [Option.some.injEq, Prod.mk.injEq] at h
    obtain ⟨rfl, rfl⟩ := h
    rw [contents_grant]
    simp [contents, hi]

theorem sublist_withdraw : (m.withdraw p).contents.Sublist m.contents := by
  rw [withdraw, contents_grant]
  exact ((List.Sublist.refl _).append (List.filter_sublist)).append List.filter_sublist

theorem sublist_items (m : Mailbox α) : m.items.Sublist m.contents :=
  (List.sublist_append_left _ _).trans (List.sublist_append_left _ _)

@[simp] theorem items_withdraw : (m.withdraw p).items = m.items := rfl

theorem prefix_send : m.items <+: (m.send a).items := by
  unfold send
  split
  · exact List.prefix_append _ _
  · exact List.prefix_rfl

theorem prefix_enter (h : m.enter p = some m') : m.items <+: m'.items := by
  obtain ⟨a, -, rfl⟩ := Option.map_eq_some_iff.1 h
  exact List.prefix_append _ _

@[simp] theorem contents_shut : m.shut.contents = [] := rfl

/-! ## Senders that wait -/

/-- The messages of the senders that wait, the first one first. -/
def waiting (m : Mailbox α) : List α :=
  m.admitted ++ m.blocked

@[simp] theorem waiting_grant (m : Mailbox α) : m.grant.waiting = m.waiting := by
  simp [grant, waiting]

@[simp] theorem waiting_shut (m : Mailbox α) : m.shut.waiting = [] := rfl

/-- Where nobody waits a sender puts its message in, or waits with it. -/
theorem send_cases (h : m.waiting = []) :
    ((m.send a).blocked = [] ∧ (m.send a).items = m.items ++ [a] ∧ (m.send a).waiting = []) ∨
      ((m.send a).blocked = [a] ∧ (m.send a).items = m.items ∧ (m.send a).waiting = [a]) := by
  obtain ⟨hadmitted, hblocked⟩ := List.append_eq_nil_iff.1 h
  unfold send
  split
  · exact .inl ⟨hblocked, rfl, h⟩
  · exact .inr ⟨by simp [hblocked], rfl, by simp [waiting, hadmitted, hblocked]⟩

theorem waiting_receive (h : m.receive = some (a, m')) : m'.waiting = m.waiting := by
  unfold receive at h
  split at h
  · cases h
  · cases h
    exact waiting_grant _

/-- The first of the senders that wait puts its message in. -/
theorem enter_first (h : m.enter (fun _ => true) = some m') :
    ∃ a, m.waiting = a :: m'.waiting ∧ m'.items = m.items ++ [a] := by
  obtain ⟨a, ha, rfl⟩ := Option.map_eq_some_iff.1 h
  obtain ⟨rest, hrest⟩ : ∃ rest, m.admitted = a :: rest := by
    cases hm : m.admitted with
    | nil => simp [hm] at ha
    | cons b rest =>
      obtain rfl : b = a := by simpa [hm] using ha
      exact ⟨rest, rfl⟩
  exact ⟨a, by simp [waiting, hrest], rfl⟩

theorem waiting_withdraw_all (m : Mailbox α) : (m.withdraw fun _ => true).waiting = [] := by
  simp [withdraw, waiting, grant]

/-! ## Whether the queue is open -/

theorem isOpen_send : (m.send a).isOpen = m.isOpen := by
  unfold send
  split <;> rfl

theorem isOpen_receive (h : m.receive = some (a, m')) : m'.isOpen = m.isOpen := by
  unfold receive at h
  split at h
  · cases h
  · cases h
    rfl

/-! ## Room -/

/-- No sender waits while there is room. -/
def Tight (m : Mailbox α) : Prop :=
  m.blocked ≠ [] → m.capacity ≤ m.items.length + m.admitted.length

theorem tight_grant : m.grant.Tight := by
  intro hb
  have hlen : m.capacity - (m.items.length + m.admitted.length) < m.blocked.length := by
    simpa [grant] using hb
  simp only [grant, List.length_append, List.length_take]
  omega

/-- What operations keep of a queue. -/
structure Keeps (m m' : Mailbox α) : Prop where
  capacity : m'.capacity = m.capacity
  tight : m.Tight → m'.Tight

namespace Keeps

theorem refl : m.Keeps m :=
  ⟨rfl, fun h => h⟩

theorem trans {m'' : Mailbox α} (h : m.Keeps m') (h' : m'.Keeps m'') : m.Keeps m'' :=
  ⟨h'.capacity.trans h.capacity, fun ht => h'.tight (h.tight ht)⟩

theorem send : m.Keeps (m.send a) := by
  unfold Mailbox.send
  split
  · rename_i hc
    simp only [Bool.and_eq_true, List.isEmpty_iff] at hc
    exact ⟨rfl, fun _ hb => absurd hc.1 hb⟩
  · rename_i hc
    refine ⟨rfl, ?_⟩
    intro hm _
    by_cases hb : m.blocked = []
    · simpa [hb, hasRoom] using hc
    · exact hm hb

theorem enter (h : m.enter p = some m') : m.Keeps m' := by
  obtain ⟨a, ha, rfl⟩ := Option.map_eq_some_iff.1 h
  have hmem := List.mem_of_find?_eq_some ha
  refine ⟨rfl, ?_⟩
  intro hm hb
  have hroom := hm hb
  have hlen : (m.admitted.eraseP p).length = m.admitted.length - 1 :=
    List.length_eraseP_of_mem hmem (List.find?_some ha)
  have hpos : 0 < m.admitted.length := List.length_pos_of_mem hmem
  simp only [List.length_append, hlen, List.length_singleton]
  omega

theorem receive (h : m.receive = some (a, m')) : m.Keeps m' := by
  unfold Mailbox.receive at h
  split at h
  · cases h
  · cases h
    exact ⟨rfl, fun _ => tight_grant⟩

theorem withdraw : m.Keeps (m.withdraw p) :=
  ⟨rfl, fun _ => tight_grant⟩

theorem shut : m.Keeps m.shut :=
  ⟨rfl, fun _ hb => absurd rfl hb⟩

end Keeps

end SeamlessTunnel.Multiplexer.Mailbox
