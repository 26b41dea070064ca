/-!
# A bounded channel

A first-in first-out queue between senders that never wait and one receiver, with the list of what
the receiver has taken.
-/

namespace BoundedChannel

structure Channel (α : Type) (capacity : Nat) where
  queue : List α
  bounded : queue.length ≤ capacity
  received : List α
  closed : Bool

inductive TrySendError
  | full
  | closed
  deriving DecidableEq

namespace Channel

variable {α : Type} {capacity : Nat}

def new : Channel α capacity where
  queue := []
  bounded := Nat.zero_le _
  received := []
  closed := false

def trySend (c : Channel α capacity) (a : α) : Except TrySendError (Channel α capacity) :=
  if c.closed then .error .closed
  else if h : c.queue.length < capacity then
    .ok { c with queue := c.queue ++ [a], bounded := by rw [List.length_append]; exact h }
  else .error .full

def recv (c : Channel α capacity) : Channel α capacity :=
  match h : c.queue with
  | [] => c
  | a :: rest =>
    { c with
      queue := rest
      bounded := by have hb := c.bounded; rw [h, List.length_cons] at hb; omega
      received := c.received ++ [a] }

def close (c : Channel α capacity) : Channel α capacity := { c with closed := true }

/-- everything the channel ever accepted, in order -/
def sent (c : Channel α capacity) : List α := c.received ++ c.queue

/-- **What a send can do**: it appends the item, or refuses because of the queue or the receiver. -/
theorem trySend_cases (c : Channel α capacity) (a : α) :
    (∃ c', c.trySend a = .ok c' ∧ c.closed = false ∧ c'.sent = c.sent ++ [a] ∧
        c'.closed = c.closed ∧ c'.received = c.received) ∨
      (c.trySend a = .error .full ∧ c.closed = false) ∨
      (c.trySend a = .error .closed ∧ c.closed = true) := by
  unfold trySend
  by_cases hc : c.closed = true
  · right; right
    exact ⟨by rw [if_pos hc], hc⟩
  have hc' : c.closed = false := by simpa using hc
  rw [if_neg hc]
  by_cases hl : c.queue.length < capacity
  · left
    rw [dif_pos hl]
    refine ⟨_, rfl, hc', ?_, rfl, rfl⟩
    show c.received ++ (c.queue ++ [a]) = c.received ++ c.queue ++ [a]
    rw [List.append_assoc]
  · right; left
    rw [dif_neg hl]
    exact ⟨rfl, hc'⟩

theorem trySend_of_room {c : Channel α capacity} (hc : c.closed = false)
    (h : c.queue.length < capacity) (a : α) :
    ∃ c', c.trySend a = .ok c' ∧ c'.queue = c.queue ++ [a] ∧ c'.closed = false := by
  unfold trySend
  rw [hc, if_neg Bool.false_ne_true, dif_pos h]
  exact ⟨_, rfl, rfl, rfl⟩

theorem trySend_of_full {c : Channel α capacity} (hc : c.closed = false)
    (h : capacity ≤ c.queue.length) (a : α) : c.trySend a = .error .full := by
  unfold trySend
  rw [hc, if_neg Bool.false_ne_true, dif_neg (Nat.not_lt.mpr h)]

theorem queue_recv {c : Channel α capacity} {a : α} {rest : List α} (h : c.queue = a :: rest) :
    c.recv.queue = rest := by
  unfold recv
  split
  next hnil =>
    rw [h] at hnil
    cases hnil
  next hcons =>
    rw [h] at hcons
    exact (List.cons.inj hcons).2.symm

theorem sent_recv (c : Channel α capacity) : c.recv.sent = c.sent := by
  unfold recv
  split
  · rfl
  · next a rest h =>
    show c.received ++ [a] ++ rest = c.received ++ c.queue
    rw [h, List.append_assoc, List.singleton_append]

theorem closed_recv (c : Channel α capacity) : c.recv.closed = c.closed := by
  unfold recv
  split <;> rfl

theorem received_prefix (c : Channel α capacity) : c.received <+: c.sent :=
  List.prefix_append _ _

end Channel

end BoundedChannel
