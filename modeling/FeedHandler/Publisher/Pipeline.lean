import FeedHandler.Lib.Machine
import FeedHandler.Publisher.Hub
import Mathlib.Algebra.BigOperators.Group.List.Basic
import Mathlib.Algebra.GroupWithZero.Nat
import Mathlib.Data.Finset.Card
/-!
# From the shards to the subscribers

The way of a message: a shard counts it and puts it on the channel of its stream
(`run_shard` of `rust/src/feed_handler.rs`), a drain of `run_dispatcher` takes it and
publishes it, and each subscriber reads its own channel. Messages are shed where they
are put and where they are offered, and nowhere else.
-/

namespace FeedHandler.Publisher

open Lib

/-- The bounds of the channels, and the shard each symbol belongs to. -/
structure Layout (ι : Type) where
  capacity : Stream → Nat
  subscriberQueueMax : Nat
  owner : String → ι
  capacity_pos : ∀ stream, 1 ≤ capacity stream
  subscriberQueueMax_pos : 1 ≤ subscriberQueueMax

structure Pipeline (ι β : Type) where
  /-- The shards between their increment and their put. -/
  counted : List (ι × Message β)
  /-- `bbo_count` and `book_count`. -/
  count : Stream → Nat
  /-- `BBO_DROPPED` and `BOOK_DROPPED`. -/
  shed : Stream → Nat
  queue : Stream → Channel (Message β)
  /-- Taken by the drain of the stream, and waiting for the lock. -/
  inHand : Stream → Option (Message β)
  hub : Hub β

namespace Pipeline

variable {ι β : Type}

inductive Act (ι β : Type)
  | count (i : ι) (msg : Message β)
  | put (i : ι) (msg : Message β)
  | take (stream : Stream)
  | beginPublish (stream : Stream)
  | offer
  | endPublish
  | subscribe (filter : Filter)
  | unsubscribe (tx : Nat)
  | read (c : Nat)
  | dropReceiver (c : Nat)

def start : Pipeline ι β where
  counted := []
  count _ := 0
  shed _ := 0
  queue _ := .empty
  inHand _ := none
  hub := .start

def Idle (s : Pipeline ι β) (stream : Stream) : Prop :=
  (s.inHand stream).isNone ∧ ∀ p ∈ s.hub.publishing, p.msg.stream ≠ stream

instance (s : Pipeline ι β) (stream : Stream) : Decidable (s.Idle stream) :=
  inferInstanceAs (Decidable (_ ∧ _))

section

variable [DecidableEq ι] [DecidableEq β]

def enabled (l : Layout ι) (s : Pipeline ι β) : Act ι β → Prop
  | .count i msg => l.owner msg.symbol = i ∧ ∀ e ∈ s.counted, e.1 ≠ i
  | .put i msg => (i, msg) ∈ s.counted
  | .take stream => s.Idle stream ∧ (s.queue stream).queue ≠ []
  | .beginPublish stream => (s.inHand stream).isSome = true ∧ s.hub.publishing.isNone = true
  | .offer => ∃ p ∈ s.hub.publishing, p.remaining ≠ []
  | .endPublish => ∃ p ∈ s.hub.publishing, p.remaining = []
  | .subscribe _ | .unsubscribe _ => s.hub.publishing.isNone = true
  | .read c => (s.hub.channels c).closed = false ∧ (s.hub.channels c).queue ≠ []
  | .dropReceiver c => c < s.hub.nextChannel ∧ (s.hub.channels c).closed = false

instance (l : Layout ι) (s : Pipeline ι β) (a : Act ι β) : Decidable (s.enabled l a) := by
  cases a <;> unfold enabled <;> infer_instance

def put (l : Layout ι) (s : Pipeline ι β) (msg : Message β) : Pipeline ι β :=
  if (s.queue msg.stream).Open (l.capacity msg.stream) then
    { s with queue := Function.update s.queue msg.stream ((s.queue msg.stream).push msg) }
  else { s with shed := Function.update s.shed msg.stream (s.shed msg.stream + 1) }

def next (l : Layout ι) (s : Pipeline ι β) : Act ι β → Pipeline ι β
  | .count i msg =>
      { s with
        counted := s.counted ++ [(i, msg)]
        count := Function.update s.count msg.stream (s.count msg.stream + 1) }
  | .put i msg => { s.put l msg with counted := s.counted.erase (i, msg) }
  | .take stream =>
      { s with
        queue := Function.update s.queue stream (s.queue stream).advance
        inHand := Function.update s.inHand stream (s.queue stream).queue.head? }
  | .beginPublish stream =>
      match s.inHand stream with
      | some msg =>
          { s with
            inHand := Function.update s.inHand stream none
            hub := s.hub.beginPublish msg }
      | none => s
  | .offer => { s with hub := s.hub.offer l.subscriberQueueMax }
  | .endPublish => { s with hub := s.hub.endPublish }
  | .subscribe filter => { s with hub := s.hub.subscribe filter }
  | .unsubscribe tx => { s with hub := s.hub.unsubscribe tx }
  | .read c => { s with hub := s.hub.recv c }
  | .dropReceiver c => { s with hub := s.hub.dropReceiver c }

def machine (l : Layout ι) : Machine (Pipeline ι β) (Act ι β) where
  initial s := s = start
  enabled := enabled l
  next := next l

end

/-! ## What happened so far -/

/-- A call of `publish`: the subscribers its message was for, and those whose channel
took it. -/
structure Call (β : Type) where
  msg : Message β
  matching : Finset Nat
  enqueuedTo : Finset Nat

structure Log (ι β : Type) where
  /-- What each shard enqueued, oldest first. -/
  enqueued : ι → List (Message β)
  taken : Stream → List (Message β)
  finished : List (Call β)
  current : Option (Call β)
  read : Nat → List (Message β)

namespace Log

def start : Log ι β where
  enqueued _ := []
  taken _ := []
  finished := []
  current := none
  read _ := []

def calls (g : Log ι β) : List (Call β) := g.finished ++ g.current.toList

/-- The messages published for a subscriber while it was registered. -/
def publishedFor (g : Log ι β) (c : Nat) : List (Message β) :=
  (g.calls.filter fun call => decide (c ∈ call.matching)).map Call.msg

def deliveredTo (g : Log ι β) (c : Nat) : List (Message β) :=
  (g.calls.filter fun call => decide (c ∈ call.enqueuedTo)).map Call.msg

/-- The pairs of a message and a subscriber it was for that were not enqueued. -/
def notEnqueued (g : Log ι β) : Nat :=
  (g.calls.map fun call => (call.matching \ call.enqueuedTo).card).sum

variable [DecidableEq ι]

def offered (capacity : Nat) (h : Hub β) (g : Log ι β) : Log ι β :=
  match h.publishing with
  | some ⟨msg, sub :: _⟩ =>
      if sub.Accepts msg ∧ (h.channels sub.tx).Open capacity then
        { g with
          current := g.current.map fun call =>
            { call with enqueuedTo := insert sub.tx call.enqueuedTo } }
      else g
  | _ => g

def track (l : Layout ι) (s : Pipeline ι β) (a : Act ι β) (g : Log ι β) : Log ι β :=
  match a with
  | .put i msg =>
      if (s.queue msg.stream).Open (l.capacity msg.stream) then
        { g with enqueued := Function.update g.enqueued i (g.enqueued i ++ [msg]) }
      else g
  | .take stream =>
      { g with
        taken := Function.update g.taken stream
          (g.taken stream ++ (s.queue stream).queue.head?.toList) }
  | .beginPublish stream =>
      { g with
        current := (s.inHand stream).map fun msg => ⟨msg, (s.hub.matching msg).toFinset, ∅⟩ }
  | .offer => g.offered l.subscriberQueueMax s.hub
  | .endPublish => { g with finished := g.calls, current := none }
  | .read c =>
      { g with
        read := Function.update g.read c (g.read c ++ (s.hub.channels c).queue.head?.toList) }
  | _ => g

end Log

section

variable [DecidableEq ι] [DecidableEq β]

def logged (l : Layout ι) : Machine (Pipeline ι β × Log ι β) (Act ι β) :=
  (machine l).withGhost Log.start (Log.track l)

instance (l : Layout ι) (sg : Pipeline ι β × Log ι β) (a : Act ι β) :
    Decidable ((logged l).enabled sg a) :=
  inferInstanceAs (Decidable (sg.1.enabled l a))

end

end Pipeline

end FeedHandler.Publisher
