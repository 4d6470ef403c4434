import Mathlib.Data.List.Infix
import Mathlib.Tactic.Common
/-!
# Bounded channels

A channel with many senders and one receiver. It takes nothing in when it is full or
its receiver is gone. What the receiver has got is always a prefix of what the channel
took in, and the rest is in the queue for as long as the receiver lives.
-/

namespace FeedHandler.Lib

structure Channel (α : Type) where
  queue : List α
  /-- The receiver is gone, and what was queued with it. -/
  closed : Bool

namespace Channel

variable {α : Type}

def empty : Channel α := ⟨[], false⟩

def Open (capacity : Nat) (c : Channel α) : Prop := c.closed = false ∧ c.queue.length < capacity

instance (capacity : Nat) (c : Channel α) : Decidable (c.Open capacity) :=
  inferInstanceAs (Decidable (_ ∧ _))

def push (c : Channel α) (x : α) : Channel α := { c with queue := c.queue ++ [x] }

def advance (c : Channel α) : Channel α := { c with queue := c.queue.tail }

def close (_ : Channel α) : Channel α := ⟨[], true⟩

@[simp] theorem queue_empty : (empty : Channel α).queue = [] := rfl

@[simp] theorem queue_push (c : Channel α) (x : α) : (c.push x).queue = c.queue ++ [x] := rfl

@[simp] theorem closed_close (c : Channel α) : c.close.closed = true := rfl

/-- What the channel took in and what its receiver got. -/
structure Carries (c : Channel α) (taken received : List α) : Prop where
  prefix_taken : received <+: taken
  of_open : c.closed = false → taken = received ++ c.queue

namespace Carries

variable {c : Channel α} {taken received : List α}

theorem empty : Carries (Channel.empty : Channel α) [] [] :=
  ⟨List.prefix_rfl, fun _ => rfl⟩

theorem push (h : c.Carries taken received) (x : α) :
    (c.push x).Carries (taken ++ [x]) received := by
  constructor
  · exact h.prefix_taken.trans (List.prefix_append _ _)
  · intro hopen
    rw [h.of_open hopen, queue_push, List.append_assoc]

theorem advance (h : c.Carries taken received) (hopen : c.closed = false) {x : α}
    {rest : List α} (hqueue : c.queue = x :: rest) : c.advance.Carries taken (received ++ [x]) := by
  have htaken : taken = (received ++ [x]) ++ rest := by
    rw [h.of_open hopen, hqueue, List.append_assoc]
    rfl
  constructor
  · rw [htaken]
    exact List.prefix_append _ _
  · intro _
    rw [htaken, Channel.advance, hqueue]
    rfl

theorem close (h : c.Carries taken received) : c.close.Carries taken received :=
  ⟨h.prefix_taken, fun hopen => absurd hopen (by simp)⟩

end Carries

end Channel

end FeedHandler.Lib
