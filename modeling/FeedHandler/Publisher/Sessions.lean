import FeedHandler.Lib.Machine
import FeedHandler.Publisher.Hub
import FeedHandler.Publisher.Protocol
/-!
# The sessions

Any number of `handle_ws_client` of `rust/src/publisher.rs`, the forwarding task of
each subscription and the calls of `publish`. Between the registry and a socket stand
the channel of the subscriber, the forwarder and the channel out of it. A session runs
in steps from one `await` to the next, so the others may run while it waits for the
lock of the registry or for its socket.
-/

namespace FeedHandler.Publisher

open Lib

/-- Where a `handle_ws_client` is. -/
inductive ClientPc
  /-- In the outer loop, waiting for a frame. -/
  | outer
  /-- A subscribe frame came: waiting for the lock to remove the old subscription. -/
  | leavingOld (r : Request)
  /-- Waiting for the lock to register. -/
  | subscribing (r : Request)
  /-- Registered, sending the confirmation. -/
  | confirming
  | streaming
  /-- An unsubscribe frame came: waiting for the lock. -/
  | unsubscribing (tx : Nat)
  | answering
  /-- Out of the loop: waiting for the lock. -/
  | closing (tx : Nat)
  | returned

/-- The local variables of a session. A forwarder is told by the channel it reads. -/
structure Client where
  pc : ClientPc
  subTx : Option Nat
  streamHandle : Option Nat
  outRx : Option Nat

def Client.new : Client := ⟨.outer, none, none, none⟩

structure Forwarder (β : Type) where
  aborted : Bool
  /-- Received, and waiting for room in the channel out. -/
  inHand : Option (Message β)
  out : Channel (Message β)
  ended : Bool

def Forwarder.new {β : Type} : Forwarder β := ⟨false, none, .empty, false⟩

structure Server (β : Type) where
  hub : Hub β
  clients : Nat → Option Client
  forwarders : Nat → Option (Forwarder β)

structure QueueSizes where
  subscriberQueueMax : Nat
  out : Nat

namespace Server

variable {β : Type}

inductive Act (β : Type)
  | connect (i : Nat)
  /-- A text frame: its JSON value, or none. -/
  | text (i : Nat) (parsed : Option Json)
  /-- A close frame or the end of the socket. -/
  | close (i : Nat)
  | lock (i : Nat)
  /-- The confirmation is sent, or fails to be. -/
  | confirm (i : Nat)
  /-- The next message out is sent, or fails to be. -/
  | pump (i : Nat) (sent : Bool)
  /-- The answer to an unsubscribe frame is sent, or fails to be. -/
  | answer (i : Nat)
  | forward (c : Nat)
  | hand (c : Nat)
  /-- The forwarder ends, and with it the receiver. -/
  | stop (c : Nat)
  | beginPublish (msg : Message β)
  | offer
  | endPublish

def Act.client : Act β → Option Nat
  | .connect i | .text i _ | .close i | .lock i | .confirm i | .pump i _ | .answer i => some i
  | _ => none

def start : Server β := ⟨.start, fun _ => none, fun _ => none⟩

def setClient (s : Server β) (i : Nat) (k : Client) : Server β :=
  { s with clients := Function.update s.clients i (some k) }

def setForwarder (s : Server β) (c : Nat) (f : Forwarder β) : Server β :=
  { s with forwarders := Function.update s.forwarders c (some f) }

def mapForwarder (s : Server β) (handle : Option Nat) (f : Forwarder β → Forwarder β) : Server β :=
  match handle.bind fun c => (s.forwarders c).map fun forwarder => (c, forwarder) with
  | some (c, forwarder) => s.setForwarder c (f forwarder)
  | none => s

/-- `h.abort()`: the task is dropped at its next `await`, not now. -/
def abort (s : Server β) (handle : Option Nat) : Server β :=
  s.mapForwarder handle fun f => { f with aborted := true }

def dropOut (s : Server β) (rx : Option Nat) : Server β :=
  s.mapForwarder rx fun f => { f with out := f.out.close }

def leaveInner (s : Server β) (i : Nat) (k : Client) : Server β :=
  (s.dropOut k.outRx).setClient i { k with pc := .outer, outRx := none }

def outerText (s : Server β) (i : Nat) (k : Client) (parsed : Json) : Server β :=
  if (parsed.getStr "action").getD "" = "subscribe" then
    (s.abort k.streamHandle).setClient i
      { k with
        streamHandle := none
        pc :=
          if k.subTx.isSome then .leavingOld (.ofJson parsed) else .subscribing (.ofJson parsed) }
  else s

def innerText (s : Server β) (i : Nat) (k : Client) (parsed : Json) : Server β :=
  if parsed.getStr "action" = some "unsubscribe" then
    (s.abort k.streamHandle).setClient i
      { k with
        streamHandle := none
        subTx := none
        pc :=
          match k.subTx with
          | some tx => .unsubscribing tx
          | none => .answering }
  else s

/-- The end of the socket in the outer loop, and what follows the loop. -/
def leaveOuter (s : Server β) (i : Nat) (k : Client) : Server β :=
  (s.abort k.streamHandle).setClient i
    { k with
      streamHandle := none
      subTx := none
      pc :=
        match k.subTx with
        | some tx => .closing tx
        | none => .returned }

def locked (s : Server β) (i : Nat) (k : Client) : Server β :=
  match k.pc with
  | .leavingOld r =>
      match k.subTx with
      | some tx =>
          { s.setClient i { k with pc := .subscribing r } with hub := s.hub.unsubscribe tx }
      | none => s.setClient i { k with pc := .subscribing r }
  | .subscribing r =>
      { s.setClient i { k with pc := .confirming, subTx := some s.hub.nextChannel } with
        hub := s.hub.subscribe (.subscribe r.stream r.symbols) }
  | .unsubscribing tx =>
      { s.setClient i { k with pc := .answering } with hub := s.hub.unsubscribe tx }
  | .closing tx => { s.setClient i { k with pc := .returned } with hub := s.hub.unsubscribe tx }
  | _ => s

def beginStreaming (s : Server β) (i : Nat) (k : Client) : Server β :=
  match k.subTx with
  | some tx =>
      (s.setForwarder tx .new).setClient i
        { k with pc := .streaming, streamHandle := some tx, outRx := some tx }
  | none => s

/-- The next message out of the forwarder is taken; when it cannot be sent the inner
loop ends. -/
def pumped (s : Server β) (i : Nat) (k : Client) (c : Nat) (f : Forwarder β) (sent : Bool) :
    Server β :=
  if sent then s.setForwarder c { f with out := f.out.advance }
  else (s.setForwarder c { f with out := f.out.advance }).leaveInner i k

def clientAt (s : Server β) (i : Nat) (p : ClientPc → Bool) : Option Client :=
  (s.clients i).filter fun k => p k.pc

def outNext (s : Server β) (k : Client) : Option (Nat × Forwarder β × Message β) := do
  let c ← k.outRx
  let f ← s.forwarders c
  let msg ← f.out.queue.head?
  pure (c, f, msg)

end Server

namespace ClientPc

def isOuter : ClientPc → Bool
  | .outer => true
  | _ => false

def isStreaming : ClientPc → Bool
  | .streaming => true
  | _ => false

def isConfirming : ClientPc → Bool
  | .confirming => true
  | _ => false

def isAnswering : ClientPc → Bool
  | .answering => true
  | _ => false

def wantsLock : ClientPc → Bool
  | .leavingOld _ | .subscribing _ | .unsubscribing _ | .closing _ => true
  | _ => false

end ClientPc

namespace Server

variable {β : Type}

def enabled (q : QueueSizes) (s : Server β) : Act β → Prop
  | .connect i => (s.clients i).isNone = true
  | .text i _ | .close i => (s.clientAt i fun pc => pc.isOuter || pc.isStreaming).isSome = true
  | .lock i => (s.clientAt i ClientPc.wantsLock).isSome = true ∧ s.hub.publishing.isNone = true
  | .confirm i => (s.clientAt i ClientPc.isConfirming).isSome = true
  | .pump i _ => ∃ k ∈ s.clientAt i ClientPc.isStreaming, (s.outNext k).isSome = true
  | .answer i => (s.clientAt i ClientPc.isAnswering).isSome = true
  | .forward c =>
      ∃ f ∈ s.forwarders c, f.ended = false ∧ f.inHand.isNone = true ∧
        (s.hub.channels c).queue ≠ []
  | .hand c => ∃ f ∈ s.forwarders c, f.ended = false ∧ f.inHand.isSome = true ∧ f.out.Open q.out
  | .stop c =>
      ∃ f ∈ s.forwarders c, f.ended = false ∧
        (f.aborted = true ∨ (f.inHand.isSome = true ∧ f.out.closed = true))
  | .beginPublish _ => s.hub.publishing.isNone = true
  | .offer => ∃ p ∈ s.hub.publishing, p.remaining ≠ []
  | .endPublish => ∃ p ∈ s.hub.publishing, p.remaining = []

def next (q : QueueSizes) (s : Server β) : Act β → Server β
  | .connect i => s.setClient i .new
  | .text i parsed =>
      match s.clients i, parsed with
      | some k, some parsed =>
          if k.pc.isStreaming then s.innerText i k parsed else s.outerText i k parsed
      -- the error reply to a text that is not JSON changes nothing
      | _, _ => s
  | .close i =>
      match s.clients i with
      | some k => if k.pc.isStreaming then s.leaveInner i k else s.leaveOuter i k
      | none => s
  | .lock i =>
      match s.clients i with
      | some k => s.locked i k
      | none => s
  | .confirm i =>
      match s.clients i with
      | some k => s.beginStreaming i k
      | none => s
  | .pump i sent =>
      match s.clients i with
      | some k =>
          match s.outNext k with
          | some (c, f, _) => s.pumped i k c f sent
          | none => s
      | none => s
  | .answer i =>
      match s.clients i with
      | some k => s.leaveInner i k
      | none => s
  | .forward c =>
      match s.forwarders c with
      | some f =>
          { s.setForwarder c { f with inHand := (s.hub.channels c).queue.head? } with
            hub := s.hub.recv c }
      | none => s
  | .hand c =>
      match s.forwarders c with
      | some ⟨aborted, some msg, out, ended⟩ =>
          s.setForwarder c ⟨aborted, none, out.push msg, ended⟩
      | _ => s
  | .stop c =>
      match s.forwarders c with
      | some f =>
          { s.setForwarder c { f with ended := true } with hub := s.hub.dropReceiver c }
      | none => s
  | .beginPublish msg => { s with hub := s.hub.beginPublish msg }
  | .offer => { s with hub := s.hub.offer q.subscriberQueueMax }
  | .endPublish => { s with hub := s.hub.endPublish }

instance (q : QueueSizes) (s : Server β) (a : Act β) : Decidable (s.enabled q a) := by
  cases a <;> unfold enabled <;> infer_instance

def machine (β : Type) (q : QueueSizes) : Machine (Server β) (Act β) where
  initial s := s = start
  enabled := enabled q
  next := next q

/-! ## What happened so far -/

/-- What a session did that its client can see. -/
inductive Sent (β : Type)
  /-- It registered a subscription. -/
  | subscribed
  /-- It answered an unsubscribe frame. -/
  | unsubscribed
  | data (msg : Message β)
deriving DecidableEq

structure Trace (β : Type) where
  owner : Nat → Option Nat
  /-- What each session sent, oldest first. -/
  sent : Nat → List (Sent β)

def Trace.start : Trace β := ⟨fun _ => none, fun _ => []⟩

def Trace.send (g : Trace β) (i : Nat) (item : Sent β) : Trace β :=
  { g with sent := Function.update g.sent i (g.sent i ++ [item]) }

def Trace.track (s : Server β) (a : Act β) (g : Trace β) : Trace β :=
  match a with
  | .lock i =>
      match (s.clients i).map Client.pc with
      | some (.subscribing _) =>
          { g.send i .subscribed with
            owner := Function.update g.owner s.hub.nextChannel (some i) }
      | _ => g
  | .pump i true =>
      match (s.clients i).bind s.outNext with
      | some (_, _, msg) => g.send i (.data msg)
      | none => g
  | .answer i => g.send i .unsubscribed
  | _ => g

def traced (β : Type) (q : QueueSizes) : Machine (Server β × Trace β) (Act β) :=
  (machine β q).withGhost Trace.start Trace.track

instance (q : QueueSizes) (sg : Server β × Trace β) (a : Act β) :
    Decidable ((traced β q).enabled sg a) :=
  inferInstanceAs (Decidable (sg.1.enabled q a))

end Server

end FeedHandler.Publisher
