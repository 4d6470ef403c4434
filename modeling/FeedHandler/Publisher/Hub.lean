import FeedHandler.Lib.Channel
import FeedHandler.Publisher.Filter
import Mathlib.Data.List.Nodup
import Mathlib.Logic.Function.Basic
/-!
# The subscribers

The registry of `rust/src/publisher.rs` and the channel of each subscriber. Its lock
is held by a `publish` call from the reaping to the last offer; a receiver may read
or vanish in between, so a call is a step for the reaping, one for each subscriber and
one for the release. `subscribe` and `unsubscribe` are one step each.
-/

namespace FeedHandler

open Lib

/-- A message with what `publish` looks at. -/
structure Message (β : Type) where
  stream : Stream
  symbol : String
  body : β
deriving DecidableEq

namespace Publisher

/-- The sender is told by the channel it belongs to. -/
structure Subscriber where
  tx : Nat
  filter : Filter
deriving DecidableEq

def Subscriber.Accepts {β : Type} (sub : Subscriber) (msg : Message β) : Prop :=
  sub.filter.Accepts msg.stream msg.symbol

instance {β : Type} (sub : Subscriber) (msg : Message β) : Decidable (sub.Accepts msg) :=
  inferInstanceAs (Decidable (sub.filter.Accepts _ _))

/-- A `publish` call that holds the lock, with the subscribers it has still to visit. -/
structure Publishing (β : Type) where
  msg : Message β
  remaining : List Subscriber

/-- `SUBSCRIBERS`, its lock and `SUBSCRIBER_DROPPED`. -/
structure Hub (β : Type) where
  subscribers : List Subscriber
  channels : Nat → Channel (Message β)
  nextChannel : Nat
  dropped : Nat
  publishing : Option (Publishing β)

namespace Hub

variable {β : Type}

def start : Hub β where
  subscribers := []
  channels _ := .empty
  nextChannel := 0
  dropped := 0
  publishing := none

def setChannel (h : Hub β) (c : Nat) (channel : Channel (Message β)) : Hub β :=
  { h with channels := Function.update h.channels c channel }

def subscribe (h : Hub β) (filter : Filter) : Hub β :=
  { h with
    subscribers := h.subscribers ++ [⟨h.nextChannel, filter⟩]
    nextChannel := h.nextChannel + 1 }

/-- `retain(|s| !s.tx.same_channel(target_tx))`. -/
def unsubscribe (h : Hub β) (tx : Nat) : Hub β :=
  { h with subscribers := h.subscribers.filter fun sub => decide (sub.tx ≠ tx) }

def reaped (h : Hub β) : List Subscriber :=
  h.subscribers.filter fun sub => !(h.channels sub.tx).closed

/-- `publish` takes the lock and reaps. -/
def beginPublish (h : Hub β) (msg : Message β) : Hub β :=
  { h with subscribers := h.reaped, publishing := some ⟨msg, h.reaped⟩ }

def putValue (capacity : Nat) (h : Hub β) (tx : Nat) (msg : Message β) : Hub β :=
  if (h.channels tx).Open capacity then h.setChannel tx ((h.channels tx).push msg)
  else { h with dropped := h.dropped + 1 }

def offer (capacity : Nat) (h : Hub β) : Hub β :=
  match h.publishing with
  | some ⟨msg, sub :: rest⟩ =>
      if sub.Accepts msg then
        { h.putValue capacity sub.tx msg with publishing := some ⟨msg, rest⟩ }
      else { h with publishing := some ⟨msg, rest⟩ }
  | _ => h

def endPublish (h : Hub β) : Hub β := { h with publishing := none }

def recv (h : Hub β) (c : Nat) : Hub β := h.setChannel c (h.channels c).advance

def dropReceiver (h : Hub β) (c : Nat) : Hub β := h.setChannel c (h.channels c).close

/-- Whom the message of a call is for: the subscribers that were still registered
after its reaping and whose filter accepts it. -/
def matching (h : Hub β) (msg : Message β) : List Nat :=
  (h.reaped.filter fun sub => decide (sub.Accepts msg)).map Subscriber.tx

def pending (h : Hub β) : List Nat :=
  match h.publishing with
  | some p => (p.remaining.filter fun sub => decide (sub.Accepts p.msg)).map Subscriber.tx
  | none => []

@[simp] theorem subscribers_putValue (capacity : Nat) (h : Hub β) (tx : Nat) (msg : Message β) :
    (h.putValue capacity tx msg).subscribers = h.subscribers := by
  unfold putValue
  split <;> rfl

@[simp] theorem nextChannel_putValue (capacity : Nat) (h : Hub β) (tx : Nat) (msg : Message β) :
    (h.putValue capacity tx msg).nextChannel = h.nextChannel := by
  unfold putValue
  split <;> rfl

@[simp] theorem subscribers_offer (capacity : Nat) (h : Hub β) :
    (h.offer capacity).subscribers = h.subscribers := by
  unfold offer
  split
  · split <;> simp
  · rfl

@[simp] theorem nextChannel_offer (capacity : Nat) (h : Hub β) :
    (h.offer capacity).nextChannel = h.nextChannel := by
  unfold offer
  split
  · split <;> simp
  · rfl

/-! ## The registry -/

structure Registered (h : Hub β) : Prop where
  nodup : (h.subscribers.map Subscriber.tx).Nodup
  lt_next : ∀ sub ∈ h.subscribers, sub.tx < h.nextChannel
  /-- The registry does not change under a `publish` call. -/
  remaining : ∀ p ∈ h.publishing, p.remaining.Sublist h.subscribers
  /-- A channel that is not made yet holds nothing. -/
  unmade : ∀ c, h.nextChannel ≤ c → h.channels c = .empty

namespace Registered

variable {h : Hub β}

theorem start : Registered (Hub.start : Hub β) := by
  constructor <;> simp [Hub.start]

theorem subscribe (hr : h.Registered) (hfree : h.publishing = none) (filter : Filter) :
    (h.subscribe filter).Registered := by
  constructor
  · have hnew : h.nextChannel ∉ h.subscribers.map Subscriber.tx := by
      intro hmem
      obtain ⟨sub, hsub, heq⟩ := List.mem_map.mp hmem
      exact absurd (hr.lt_next sub hsub) (by omega)
    simp only [Hub.subscribe, List.map_append, List.map_cons, List.map_nil]
    exact List.nodup_append.mpr ⟨hr.nodup, List.nodup_singleton _, by
      rintro tx htx tx' htx' rfl
      exact hnew (List.mem_singleton.mp htx' ▸ htx)⟩
  · intro sub hsub
    rcases List.mem_append.mp hsub with hsub | hsub
    · exact Nat.lt_succ_of_lt (hr.lt_next sub hsub)
    · rw [List.mem_singleton.mp hsub]
      exact Nat.lt_succ_self _
  · simp [Hub.subscribe, hfree]
  · intro c hc
    exact hr.unmade c (Nat.le_of_succ_le hc)

theorem sublist (hr : h.Registered) {h' : Hub β} (hsub : h'.subscribers.Sublist h.subscribers)
    (hnext : h'.nextChannel = h.nextChannel)
    (hremaining : ∀ p ∈ h'.publishing, p.remaining.Sublist h'.subscribers)
    (hunmade : ∀ c, h.nextChannel ≤ c → h'.channels c = h.channels c) : h'.Registered := by
  constructor
  · exact hr.nodup.sublist (hsub.map _)
  · intro sub hmem
    rw [hnext]
    exact hr.lt_next sub (hsub.subset hmem)
  · exact hremaining
  · intro c hc
    rw [hnext] at hc
    rw [hunmade c hc]
    exact hr.unmade c hc

theorem unsubscribe (hr : h.Registered) (hfree : h.publishing = none) (tx : Nat) :
    (h.unsubscribe tx).Registered :=
  hr.sublist List.filter_sublist rfl (by simp [Hub.unsubscribe, hfree]) fun _ _ => rfl

theorem beginPublish (hr : h.Registered) (msg : Message β) : (h.beginPublish msg).Registered := by
  refine hr.sublist List.filter_sublist rfl ?_ fun _ _ => rfl
  intro p hp
  obtain rfl := Option.mem_some.mp hp
  exact List.Sublist.refl _

theorem endPublish (hr : h.Registered) : h.endPublish.Registered :=
  hr.sublist (List.Sublist.refl _) rfl (by simp [Hub.endPublish]) fun _ _ => rfl

theorem setChannel (hr : h.Registered) {c : Nat} (hc : c < h.nextChannel)
    (channel : Channel (Message β)) : (h.setChannel c channel).Registered :=
  hr.sublist (List.Sublist.refl _) rfl hr.remaining fun c' hc' =>
    Function.update_of_ne (by omega) _ _

theorem putValue (hr : h.Registered) (capacity : Nat) {tx : Nat} (htx : tx < h.nextChannel)
    (msg : Message β) : (h.putValue capacity tx msg).Registered := by
  unfold Hub.putValue
  split_ifs
  · exact hr.setChannel htx _
  · exact hr.sublist (List.Sublist.refl _) rfl hr.remaining fun _ _ => rfl

theorem offer (hr : h.Registered) (capacity : Nat) : (h.offer capacity).Registered := by
  unfold Hub.offer
  split
  · next msg sub rest hp =>
      have hsublist := hr.remaining _ hp
      have hrest : rest.Sublist h.subscribers := (List.sublist_cons_self _ _).trans hsublist
      have htx := hr.lt_next sub (hsublist.subset List.mem_cons_self)
      split_ifs
      · have hput := hr.putValue capacity htx msg
        refine hput.sublist (List.Sublist.refl _) rfl ?_ fun _ _ => rfl
        intro p hp
        obtain rfl := Option.mem_some.mp hp
        exact (subscribers_putValue capacity h sub.tx msg).symm ▸ hrest
      · refine hr.sublist (List.Sublist.refl _) rfl ?_ fun _ _ => rfl
        intro p hp
        obtain rfl := Option.mem_some.mp hp
        exact hrest
  · exact hr

theorem recv (hr : h.Registered) {c : Nat} (hqueue : (h.channels c).queue ≠ []) :
    (h.recv c).Registered := by
  apply hr.setChannel
  by_contra hle
  rw [hr.unmade c (not_lt.mp hle)] at hqueue
  exact hqueue rfl

end Registered

end Hub

end Publisher

end FeedHandler
