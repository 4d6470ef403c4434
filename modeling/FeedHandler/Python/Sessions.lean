import FeedHandler.Lib.Holders
import FeedHandler.Publisher.Mirror
import FeedHandler.Python.Shedding
/-!
# The sessions of the Python port

Any number of `_ws_handler` of `python/publisher.py`, the `_stream_to_ws` task of each
subscription, `demo_consumer` and the calls of `_publish`. All of them run on one event
loop, so a step goes from one `await` to the next. A task that is cancelled is thrown
`CancelledError` where it waits and takes no further message.

The arguments of a subscribe frame go to `subscribe` as they came. It may raise before
it registers, and it may raise after: for `false` and for zero the set of symbols is
`None`, the entry is appended, and then the line for the log asks for `len(symbols)`.
The handler never learns of that queue.
-/

namespace FeedHandler

namespace Json

def falsy : Json → Bool
  | null => true
  | bool b => !b
  | posInt n => n == 0
  | negInt n => n == 0
  | float x => x == 0
  | string s => s == ""
  | array elements => elements.isEmpty
  | object fields => fields.isEmpty

def hashable : Json → Bool
  | array _ | object _ => false
  | _ => true

/-- `set(value)`; none is the `TypeError`. -/
def toSet : Json → Option (List Json)
  | string s => some (s.toList.map fun c => string c.toString)
  | array elements => if elements.all hashable then some elements else none
  | object fields => some (fields.map fun field => string field.1)
  | _ => none

/-- `len(value)` does not raise. -/
def sized : Json → Bool
  | string _ | array _ | object _ => true
  | _ => false

def isNull : Json → Bool
  | null => true
  | _ => false

def isObject : Json → Bool
  | object _ => true
  | _ => false

/-- The symbol is in `set(value)`. -/
def lists (value : Json) (symbol : String) : Bool :=
  value.toSet.any fun set => set.any fun v => v.asStr == some symbol

end Json

namespace Python.Sessions

open Lib Publisher.Server

def subscriberQueueMax : Nat := 10000

/-- A dictionary of `_subscribers`; none for `symbols` is `None`. -/
structure Entry where
  queue : Nat
  symbols : Option (List Json)
  stream : Json

/-- Neither `continue` of `_publish` is taken. -/
def Entry.accepts {β : Type} (e : Entry) (msg : Message β) : Bool :=
  (e.stream.asStr == some "all" || e.stream.asStr == some msg.stream.name) &&
    match e.symbols with
    | none => true
    | some symbols => symbols.any fun v => v.asStr == some msg.symbol

inductive Outcome
  /-- `set(symbols)` raises, before anything is registered. -/
  | raised
  /-- The entry is registered, and `len(symbols)` raises. -/
  | orphaned
  | returned (set : Option (List Json))

def outcome (symbols : Json) : Outcome :=
  if symbols.falsy then
    if symbols.isNull || symbols.sized then .returned none else .orphaned
  else
    match symbols.toSet with
    | none => .raised
    | some set => .returned (some set)

inductive Frame
  | invalidJson
  /-- Not an object: `msg.get` raises. -/
  | unfit
  | subscribe (stream symbols : Json)
  | unsubscribe
  | other

def Frame.ofText : Option Json → Frame
  | none => .invalidJson
  | some msg =>
      if msg.isObject then
        if msg.getStr "action" = some "subscribe" then
          .subscribe ((msg.get "stream").getD (.string "all")) ((msg.get "symbols").getD .null)
        else if msg.getStr "action" = some "unsubscribe" then .unsubscribe
        else .other
      else .unfit

inductive HandlerPc
  /-- In the `async for`, waiting for a frame. -/
  | reading
  /-- In a `ws.send_str`. -/
  | replying
  | returned
deriving DecidableEq

/-- The local variables of a `_ws_handler`. A task is told by the queue it reads. -/
structure Handler where
  pc : HandlerPc
  q : Option Nat
  streamTask : Option Nat

def Handler.new : Handler := ⟨.reading, none, none⟩

inductive StreamPc
  /-- In `q.get()`, or not yet begun. -/
  | getting
  /-- In `ws.send_str`. -/
  | sending
  | ended
deriving DecidableEq

structure StreamTask where
  pc : StreamPc
  cancelled : Bool

def StreamTask.Running (t : StreamTask) : Prop := t.pc ≠ .ended ∧ t.cancelled = false

instance (t : StreamTask) : Decidable t.Running := inferInstanceAs (Decidable (_ ∧ _))

structure Server (β : Type) where
  subscribers : List Entry
  queues : Nat → List (Message β)
  nextQueue : Nat
  dropped : Nat
  handlers : Nat → Option Handler
  streams : Nat → Option StreamTask
  /-- The queue of each `demo_consumer`. -/
  consumers : List Nat

inductive Act (β : Type)
  | connect (i : Nat)
  /-- A text frame: its JSON value, or none. -/
  | frame (i : Nat) (text : Option Json)
  /-- `ws.send_str` returns. -/
  | replied (i : Nat)
  /-- The end of the socket, or what a `send_str` raises. -/
  | leave (i : Nat)
  | get (t : Nat)
  | written (t : Nat)
  /-- The socket is closed, its reset or `CancelledError` is raised, or the message has
  no JSON text. -/
  | finish (t : Nat)
  | consume
  | take (q : Nat)
  | publish (msg : Message β)

namespace Server

variable {β : Type}

def start : Server β where
  subscribers := []
  queues _ := []
  nextQueue := 0
  dropped := 0
  handlers _ := none
  streams _ := none
  consumers := []

def setHandler (s : Server β) (i : Nat) (k : Handler) : Server β :=
  { s with handlers := Function.update s.handlers i (some k) }

def setQueue (s : Server β) (q : Nat) (queue : List (Message β)) : Server β :=
  { s with queues := Function.update s.queues q queue }

def setStream (s : Server β) (t : Nat) (task : StreamTask) : Server β :=
  { s with streams := Function.update s.streams t (some task) }

/-- `q = asyncio.Queue(...)` and `_subscribers.append`. -/
def register (s : Server β) (symbols : Option (List Json)) (stream : Json) : Server β :=
  { s with
    subscribers := s.subscribers ++ [⟨s.nextQueue, symbols, stream⟩]
    nextQueue := s.nextQueue + 1 }

/-- `if q is not None: unsubscribe(q)`. -/
def unsubscribe (s : Server β) (q : Option Nat) : Server β :=
  { s with subscribers := s.subscribers.filter fun e => decide (q ≠ some e.queue) }

/-- `if stream_task is not None: stream_task.cancel()`. -/
def cancel (s : Server β) (handle : Option Nat) : Server β :=
  { s with
    streams := fun t =>
      if handle = some t then (s.streams t).map fun task => { task with cancelled := true }
      else s.streams t }

/-- What both frames and the `finally` do first. -/
def endSubscription (s : Server β) (k : Handler) : Server β :=
  (s.cancel k.streamTask).unsubscribe k.q

def leave (s : Server β) (i : Nat) (k : Handler) : Server β :=
  (s.endSubscription k).setHandler i ⟨.returned, none, none⟩

def onSubscribe (s : Server β) (i : Nat) (k : Handler) (stream symbols : Json) : Server β :=
  match outcome symbols with
  | .raised => (s.endSubscription k).leave i k
  | .orphaned => ((s.endSubscription k).register none stream).leave i k
  | .returned set =>
      (((s.endSubscription k).register set stream).setStream s.nextQueue ⟨.getting, false⟩
        ).setHandler i ⟨.replying, some s.nextQueue, some s.nextQueue⟩

def onFrame (s : Server β) (i : Nat) (k : Handler) : Frame → Server β
  | .invalidJson => s.setHandler i { k with pc := .replying }
  | .unfit => s.leave i k
  | .subscribe stream symbols => s.onSubscribe i k stream symbols
  | .unsubscribe => (s.endSubscription k).setHandler i ⟨.replying, none, none⟩
  | .other => s

def put (s : Server β) (q : Nat) (msg : Message β) : Server β :=
  let (dropped, queue) :=
    Shedding.publisherPut subscriberQueueMax s.dropped (s.queues q) msg
  { s.setQueue q queue with dropped := dropped }

def offer (msg : Message β) (s : Server β) (e : Entry) : Server β :=
  if e.accepts msg then s.put e.queue msg else s

def publish (s : Server β) (msg : Message β) : Server β := s.subscribers.foldl (offer msg) s

def StreamAt (s : Server β) (t : Nat) (pc : StreamPc) : Prop :=
  ∃ task ∈ s.streams t, task.Running ∧ task.pc = pc

instance (s : Server β) (t : Nat) (pc : StreamPc) : Decidable (s.StreamAt t pc) :=
  inferInstanceAs (Decidable (∃ task ∈ s.streams t, _))

def enabled (s : Server β) : Act β → Prop
  | .connect i => (s.handlers i).isNone = true
  | .frame i _ => ∃ k ∈ s.handlers i, k.pc = .reading
  | .replied i => ∃ k ∈ s.handlers i, k.pc = .replying
  | .leave i => ∃ k ∈ s.handlers i, k.pc ≠ .returned
  | .get t => s.StreamAt t .getting ∧ s.queues t ≠ []
  | .written t => s.StreamAt t .sending
  | .finish t => (s.streams t).isSome = true
  | .consume | .publish _ => True
  | .take q => q ∈ s.consumers ∧ s.queues q ≠ []

def next (s : Server β) : Act β → Server β
  | .connect i => s.setHandler i .new
  | .frame i text =>
      match s.handlers i with
      | some k => s.onFrame i k (.ofText text)
      | none => s
  | .replied i =>
      match s.handlers i with
      | some k => s.setHandler i { k with pc := .reading }
      | none => s
  | .leave i =>
      match s.handlers i with
      | some k => s.leave i k
      | none => s
  | .get t => (s.setQueue t (s.queues t).tail).setStream t ⟨.sending, false⟩
  | .written t => s.setStream t ⟨.getting, false⟩
  | .finish t => s.setStream t ⟨.ended, false⟩
  | .consume =>
      { s.register none (.string "bbo") with consumers := s.consumers ++ [s.nextQueue] }
  | .take q => s.setQueue q (s.queues q).tail
  | .publish msg => s.publish msg

instance (s : Server β) (a : Act β) : Decidable (s.enabled a) := by
  cases a <;> unfold enabled <;> infer_instance

def machine (β : Type) : Machine (Server β) (Act β) where
  initial s := s = start
  enabled := enabled
  next := next

end Server

/-! ## What happened so far -/

/-- What `subscribe` was called with, and how many messages were published before. -/
structure Terms where
  stream : Json
  symbols : Json
  since : Nat

/-- The message is one the subscriber asked for. -/
def Terms.passes {β : Type} (terms : Terms) (msg : Message β) : Bool :=
  (terms.stream.asStr == some "all" || terms.stream.asStr == some msg.stream.name) &&
    (terms.symbols.falsy || terms.symbols.lists msg.symbol)

structure Trace (β : Type) where
  /-- The queues that `subscribe` registered and did not return. -/
  orphans : List Nat
  owner : Nat → Option Nat
  /-- The tasks that ended before they were cancelled. -/
  finished : List Nat
  /-- The call that made each queue. -/
  terms : Nat → Option Terms
  published : List (Message β)
  /-- What each queue was offered and its filter let pass. -/
  matched : Nat → List (Message β)
  taken : Nat → List (Message β)
  /-- What each session sent, oldest first. -/
  sent : Nat → List (Sent β)

namespace Trace

variable {β : Type}

def start : Trace β where
  orphans := []
  owner _ := none
  finished := []
  terms _ := none
  published := []
  matched _ := []
  taken _ := []
  sent _ := []

def send (g : Trace β) (i : Nat) (item : Sent β) : Trace β :=
  { g with sent := Function.update g.sent i (g.sent i ++ [item]) }

def offer (msg : Message β) (g : Trace β) (e : Entry) : Trace β :=
  if e.accepts msg then
    { g with matched := Function.update g.matched e.queue (g.matched e.queue ++ [msg]) }
  else g

def publish (g : Trace β) (msg : Message β) : Trace β :=
  { g with published := g.published ++ [msg] }

def agree (g : Trace β) (q : Nat) (stream symbols : Json) : Trace β :=
  { g with
    terms := Function.update g.terms q (some ⟨stream, symbols, g.published.length⟩) }

def take (g : Trace β) (q : Nat) (msg : Message β) : Trace β :=
  { g with taken := Function.update g.taken q (g.taken q ++ [msg]) }

def deliver (g : Trace β) (t : Nat) (msg : Message β) : Trace β :=
  match g.owner t with
  | some i => (g.take t msg).send i (.data msg)
  | none => g.take t msg

def trackFrame (q i : Nat) (g : Trace β) : Frame → Trace β
  | .subscribe stream symbols =>
      match outcome symbols with
      | .raised => g
      | .orphaned => { g.agree q stream symbols with orphans := g.orphans ++ [q] }
      | .returned _ =>
          { (g.agree q stream symbols).send i .subscribed with
            owner := Function.update g.owner q (some i) }
  | .unsubscribe => g.send i .unsubscribed
  | _ => g

def track (s : Server β) (a : Act β) (g : Trace β) : Trace β :=
  match a with
  | .frame i text => g.trackFrame s.nextQueue i (.ofText text)
  | .get t =>
      match (s.queues t).head? with
      | some msg => g.deliver t msg
      | none => g
  | .take q =>
      match (s.queues q).head? with
      | some msg => g.take q msg
      | none => g
  | .finish t => { g with finished := g.finished ++ [t] }
  | .consume => g.agree s.nextQueue (.string "bbo") .null
  | .publish msg => s.subscribers.foldl (offer msg) (g.publish msg)
  | _ => g

end Trace

def traced (β : Type) : Machine (Server β × Trace β) (Act β) :=
  (Server.machine β).withGhost Trace.start Trace.track

instance {β : Type} (sg : Server β × Trace β) (a : Act β) :
    Decidable ((traced β).enabled sg a) :=
  inferInstanceAs (Decidable (sg.1.enabled a))

/-! ## Who holds what -/

namespace Server

variable {β : Type} {s s' : Server β} {g g' : Trace β} {orphans : List Nat} {i : Nat}
  {k k' : Handler}

def held (s : Server β) (i : Nat) : Option Nat := (s.handlers i).bind Handler.q

def ids (s : Server β) : List Nat := s.subscribers.map Entry.queue

/-- The task of the queue is there and not cancelled; if it has ended, it did so by
itself. -/
def Tasked (s : Server β) (g : Trace β) (q : Nat) : Prop :=
  ∃ task, s.streams q = some task ∧ task.cancelled = false ∧
    (task.pc = .ended → q ∈ g.finished)

/-- What a queue in the registry is known to. -/
inductive Holder
  /-- The variable `q` of a session. -/
  | handler (i : Nat)
  /-- The variable `q` of a `demo_consumer`. -/
  | consumer
  | nobody
deriving DecidableEq

def HeldBy (s : Server β) (orphans : List Nat) : Holder → Nat → Prop
  | .handler i, q => s.held i = some q
  | .consumer, q => q ∈ s.consumers
  | .nobody, q => q ∈ orphans

def release (s : Server β) (i : Nat) (k : Handler) (pc : HandlerPc) : Server β :=
  (s.endSubscription k).setHandler i ⟨pc, none, none⟩

theorem held_of_handlers (hk : s.handlers i = some k) : s.held i = k.q := by
  rw [held, hk]
  rfl

theorem held_setHandler (s : Server β) (i j : Nat) (k : Handler) :
    (s.setHandler i k).held j = if j = i then k.q else s.held j := by
  unfold held setHandler
  by_cases hj : j = i
  · subst hj
    simp
  · rw [if_neg hj]
    simp [Function.update_of_ne hj]

@[simp] theorem ids_unsubscribe (s : Server β) (q : Option Nat) :
    (s.unsubscribe q).ids = s.ids.filter fun id => decide (q ≠ some id) := by
  simp only [ids, unsubscribe, List.filter_map]
  rfl

/-! ## A subscription ends -/

theorem endSubscription_idem (s : Server β) (k : Handler) :
    (s.endSubscription k).endSubscription k = s.endSubscription k := by
  have hstreams : ∀ t, ((s.endSubscription k).endSubscription k).streams t =
      (s.endSubscription k).streams t := by
    intro t
    simp only [endSubscription, unsubscribe, cancel]
    by_cases ht : k.streamTask = some t
    · rw [if_pos ht, if_pos ht, Option.map_map]
      rfl
    · rw [if_neg ht, if_neg ht]
  have hsubscribers : ((s.endSubscription k).endSubscription k).subscribers =
      (s.endSubscription k).subscribers := by
    simp only [endSubscription, unsubscribe, cancel, List.filter_filter, Bool.and_self]
  simp only [endSubscription, unsubscribe, cancel, mk.injEq, and_true, true_and]
  exact ⟨hsubscribers, funext hstreams⟩

theorem endSubscription_register (s : Server β) (symbols : Option (List Json)) (stream : Json)
    (hfresh : k.q ≠ some s.nextQueue) :
    (s.register symbols stream).endSubscription k =
      (s.endSubscription k).register symbols stream := by
  simp [endSubscription, unsubscribe, cancel, register, hfresh]

theorem leave_raised (s : Server β) (i : Nat) (k : Handler) :
    (s.endSubscription k).leave i k = s.release i k .returned := by
  rw [leave, endSubscription_idem]
  rfl

theorem leave_orphaned (s : Server β) (i : Nat) (stream : Json)
    (hfresh : k.q ≠ some s.nextQueue) :
    ((s.endSubscription k).register none stream).leave i k =
      (s.release i k .returned).register none stream := by
  have hnext : k.q ≠ some (s.endSubscription k).nextQueue := hfresh
  rw [leave, endSubscription_register _ _ _ hnext, endSubscription_idem]
  rfl

def subscribed (s : Server β) (i : Nat) (set : Option (List Json)) (stream : Json) : Server β :=
  ((s.register set stream).setStream s.nextQueue ⟨.getting, false⟩).setHandler i
    ⟨.replying, some s.nextQueue, some s.nextQueue⟩

theorem subscribed_release (s : Server β) (i : Nat) (k : Handler) (pc : HandlerPc)
    (set : Option (List Json)) (stream : Json) :
    (s.release i k pc).subscribed i set stream =
      (((s.endSubscription k).register set stream).setStream s.nextQueue ⟨.getting, false⟩
        ).setHandler i ⟨.replying, some s.nextQueue, some s.nextQueue⟩ := by
  simp [subscribed, release, setHandler, setStream, register, endSubscription, unsubscribe, cancel]

/-! ## What every step keeps -/

/-- The registry mirrors the holders, and whatever still reads a queue is the task of
the session that holds it. -/
structure Kept (s : Server β) (g : Trace β) : Prop where
  mirrors : Mirrors s.ids s.nextQueue (s.HeldBy g.orphans)
  paired : ∀ i k, s.handlers i = some k →
    k.streamTask = k.q ∧ (k.pc = .returned → k.q = none)
  owned : ∀ i q, s.held i = some q → g.owner q = some i
  running : ∀ t task, s.streams t = some task → task.Running → ∃ i, s.held i = some t
  tasked : ∀ i q, s.held i = some q → s.Tasked g q
  wide : ∀ e ∈ s.subscribers, e.queue ∈ g.orphans → e.symbols = none

namespace Kept

theorem start : Kept (Server.start : Server β) Trace.start where
  mirrors := by
    apply Mirrors.empty
    intro h q hh
    cases h <;> simp [HeldBy, Server.held, Server.start, Trace.start] at hh
  paired i k hk := by simp [Server.start] at hk
  owned i q hq := by simp [Server.held, Server.start] at hq
  running t task ht := by simp [Server.start] at ht
  tasked i q hq := by simp [Server.held, Server.start] at hq
  wide e he := by simp [Server.start] at he

theorem of_same (h : Kept s g) (hsubscribers : s'.subscribers = s.subscribers)
    (hnext : s'.nextQueue = s.nextQueue) (hconsumers : s'.consumers = s.consumers)
    (hheld : ∀ i, s'.held i = s.held i) (horphans : g'.orphans = g.orphans)
    (howner : g'.owner = g.owner)
    (hpaired : ∀ i k, s'.handlers i = some k →
      k.streamTask = k.q ∧ (k.pc = .returned → k.q = none))
    (hrunning : ∀ t task, s'.streams t = some task → task.Running →
      ∃ task', s.streams t = some task' ∧ task'.Running)
    (htasked : ∀ q, s.Tasked g q → s'.Tasked g' q) : Kept s' g' := by
  constructor
  · rw [ids, hsubscribers, hnext, horphans]
    apply h.mirrors.congr
    intro holder q
    cases holder <;> simp [HeldBy, hheld, hconsumers]
  · exact hpaired
  · intro i q hq
    rw [howner]
    exact h.owned i q ((hheld i).symm.trans hq)
  · intro t task ht hrun
    obtain ⟨task', ht', hrun'⟩ := hrunning t task ht hrun
    obtain ⟨i, hi⟩ := h.running t task' ht' hrun'
    exact ⟨i, (hheld i).trans hi⟩
  · intro i q hq
    exact htasked q (h.tasked i q ((hheld i).symm.trans hq))
  · rw [hsubscribers, horphans]
    exact h.wide

theorem fresh (h : Kept s g) (hk : s.handlers i = some k) : k.q ≠ some s.nextQueue := by
  intro hq
  have hlt := h.mirrors.lt (h := .handler i) ((held_of_handlers hk).trans hq)
  omega

theorem release (h : Kept s g) (hk : s.handlers i = some k) (pc : HandlerPc) :
    Kept (s.release i k pc) g := by
  have hheld : ∀ j, (s.release i k pc).held j = if j = i then none else s.held j := fun j =>
    held_setHandler (s.endSubscription k) i j ⟨pc, none, none⟩
  have hmine := held_of_handlers hk
  constructor
  · have hids : (s.release i k pc).ids = s.ids.filter fun id => decide (k.q ≠ some id) :=
      ids_unsubscribe _ _
    rw [hids]
    apply h.mirrors.release (.handler i)
    · intro q
      rw [decide_eq_true_iff, HeldBy, hmine]
    · intro holder q
      cases holder with
      | handler j =>
          rw [HeldBy, HeldBy, hheld]
          by_cases hj : j = i
          · simp [hj]
          · simp [hj]
      | consumer => exact (and_iff_right Holder.noConfusion).symm
      | nobody => exact (and_iff_right Holder.noConfusion).symm
  · intro j k' hk'
    by_cases hj : j = i
    · subst hj
      have hself : (s.release j k pc).handlers j = some ⟨pc, none, none⟩ :=
        Function.update_self j _ s.handlers
      rw [hself] at hk'
      obtain rfl := Option.some.inj hk'
      exact ⟨rfl, fun _ => rfl⟩
    · have hother : (s.release i k pc).handlers j = s.handlers j :=
        Function.update_of_ne hj _ s.handlers
      exact h.paired j k' (hother ▸ hk')
  · intro j q hq
    rw [hheld] at hq
    split_ifs at hq
    exact h.owned j q hq
  · intro t task ht hrun
    have hcancel : (if k.streamTask = some t then
        (s.streams t).map fun task => { task with cancelled := true }
      else s.streams t) = some task := ht
    split_ifs at hcancel with hmy
    · obtain ⟨task', -, rfl⟩ := Option.map_eq_some_iff.mp hcancel
      exact absurd hrun.2 Bool.noConfusion
    · obtain ⟨j, hj⟩ := h.running t task hcancel hrun
      refine ⟨j, ?_⟩
      rw [hheld, if_neg ?_]
      · exact hj
      · intro heq
        subst heq
        rw [hmine] at hj
        exact hmy ((h.paired j k hk).1.trans hj)
  · intro j q hq
    rw [hheld] at hq
    split_ifs at hq with hj
    have hmy : k.streamTask ≠ some q := by
      rw [(h.paired i k hk).1, ← hmine]
      intro hi
      exact hj (Holder.handler.inj (h.mirrors.sole (.handler j) (.handler i) q hq hi))
    obtain ⟨task, htask, hrest⟩ := h.tasked j q hq
    exact ⟨task, (if_neg hmy).trans htask, hrest⟩
  · intro e he
    exact h.wide e (List.mem_filter.mp he).1

theorem of_register (h : Kept s g) (new : Holder) {symbols : Option (List Json)} {stream : Json}
    (hsubscribers : s'.subscribers = s.subscribers ++ [⟨s.nextQueue, symbols, stream⟩])
    (hnext : s'.nextQueue = s.nextQueue + 1)
    (hheld : ∀ holder q, s'.HeldBy g'.orphans holder q ↔
      s.HeldBy g.orphans holder q ∨ holder = new ∧ q = s.nextQueue)
    (hwide : new = .nobody → symbols = none)
    (hpaired : ∀ j k, s'.handlers j = some k →
      k.streamTask = k.q ∧ (k.pc = .returned → k.q = none))
    (howned : ∀ j q, s'.held j = some q → g'.owner q = some j)
    (hrunning : ∀ t task, s'.streams t = some task → task.Running → ∃ j, s'.held j = some t)
    (htasked : ∀ j q, s'.held j = some q → s'.Tasked g' q) : Kept s' g' := by
  constructor
  · have hids : s'.ids = s.ids ++ [s.nextQueue] := by
      rw [ids, hsubscribers, List.map_append]
      rfl
    rw [hids, hnext]
    exact h.mirrors.grant new hheld
  · exact hpaired
  · exact howned
  · exact hrunning
  · exact htasked
  · intro e he horphan
    rw [hsubscribers] at he
    have hor := (hheld .nobody e.queue).mp horphan
    rcases List.mem_append.mp he with hold | hnew
    · have hlt := h.mirrors.fresh e.queue (List.mem_map_of_mem hold)
      rcases hor with hold' | ⟨-, hq⟩
      · exact h.wide e hold hold'
      · omega
    · obtain rfl := List.mem_singleton.mp hnew
      rcases hor with hold' | ⟨hnew', -⟩
      · exact absurd (h.mirrors.lt (h := .nobody) hold') (Nat.lt_irrefl _)
      · exact hwide hnew'.symm

theorem subscribed (h : Kept s g) (hfree : s.held i = none) (set : Option (List Json))
    (stream : Json) (horphans : g'.orphans = g.orphans) (hfinished : g'.finished = g.finished)
    (howner : g'.owner = Function.update g.owner s.nextQueue (some i)) :
    Kept (s.subscribed i set stream) g' := by
  have hheld : ∀ j, (s.subscribed i set stream).held j =
      if j = i then some s.nextQueue else s.held j := fun j => held_setHandler _ i j _
  have hstreams : ∀ t, t ≠ s.nextQueue →
      (s.subscribed i set stream).streams t = s.streams t := fun t ht =>
    Function.update_of_ne ht _ s.streams
  apply h.of_register (.handler i) rfl rfl
  · intro holder q
    cases holder with
    | handler j =>
        rw [HeldBy, HeldBy, hheld]
        by_cases hj : j = i
        · subst hj
          simp [hfree, eq_comm]
        · simp [hj]
    | consumer => simp [HeldBy, Server.subscribed, setHandler, setStream, register]
    | nobody => simp [HeldBy, horphans]
  · exact fun hnew => Holder.noConfusion hnew
  · intro j k hk
    by_cases hj : j = i
    · subst hj
      have hself : (s.subscribed j set stream).handlers j =
          some ⟨.replying, some s.nextQueue, some s.nextQueue⟩ :=
        Function.update_self j _ s.handlers
      rw [hself] at hk
      obtain rfl := Option.some.inj hk
      exact ⟨rfl, HandlerPc.noConfusion⟩
    · have hother : (s.subscribed i set stream).handlers j = s.handlers j :=
        Function.update_of_ne hj _ s.handlers
      exact h.paired j k (hother ▸ hk)
  · intro j q hq
    rw [hheld] at hq
    rw [howner]
    split_ifs at hq with hj
    · rw [← Option.some.inj hq, Function.update_self, hj]
    · have hlt := h.mirrors.lt (h := .handler j) hq
      rw [Function.update_of_ne (Nat.ne_of_lt hlt)]
      exact h.owned j q hq
  · intro t task ht hrun
    by_cases hnew : t = s.nextQueue
    · refine ⟨i, ?_⟩
      rw [hheld, if_pos rfl, hnew]
    · obtain ⟨j, hj⟩ := h.running t task (hstreams t hnew ▸ ht) hrun
      refine ⟨j, ?_⟩
      rw [hheld, if_neg ?_]
      · exact hj
      · intro heq
        rw [heq, hfree] at hj
        cases hj
  · intro j q hq
    rw [hheld] at hq
    split_ifs at hq with hj
    · obtain rfl := Option.some.inj hq
      have hself : (s.subscribed i set stream).streams s.nextQueue = some ⟨.getting, false⟩ :=
        Function.update_self s.nextQueue _ s.streams
      exact ⟨⟨.getting, false⟩, hself, rfl, StreamPc.noConfusion⟩
    · have hlt := h.mirrors.lt (h := .handler j) hq
      obtain ⟨task, htask, hrest⟩ := h.tasked j q hq
      rw [← hfinished] at hrest
      exact ⟨task, (hstreams q (Nat.ne_of_lt hlt)).trans htask, hrest⟩

theorem orphan (h : Kept s g) (stream : Json) (horphans : g'.orphans = g.orphans ++ [s.nextQueue])
    (howner : g'.owner = g.owner) (hfinished : g'.finished = g.finished) :
    Kept (s.register none stream) g' := by
  apply h.of_register .nobody rfl rfl
  · intro holder q
    cases holder with
    | handler j => simp [HeldBy, Server.held, register]
    | consumer => simp [HeldBy, register]
    | nobody => simp [HeldBy, horphans]
  · exact fun _ => rfl
  · exact h.paired
  · intro j q hq
    rw [howner]
    exact h.owned j q hq
  · exact h.running
  · intro j q hq
    rw [Tasked, hfinished]
    exact h.tasked j q hq

theorem consume (h : Kept s g) : Kept (s.next .consume) (Trace.track s .consume g) := by
  apply h.of_register .consumer rfl rfl
  · intro holder q
    cases holder with
    | handler j => simp [HeldBy, Server.held, Server.next, register]
    | consumer => simp [HeldBy, Server.next]
    | nobody => simp [HeldBy, Trace.track, Trace.agree]
  · exact fun hnew => Holder.noConfusion hnew
  · exact h.paired
  · exact h.owned
  · exact h.running
  · exact h.tasked

theorem setHandler (h : Kept s g) (hheld : k.q = s.held i)
    (hpaired : k.streamTask = k.q ∧ (k.pc = .returned → k.q = none)) :
    Kept (s.setHandler i k) g := by
  refine h.of_same rfl rfl rfl ?_ rfl rfl ?_ (fun t task ht hrun => ⟨task, ht, hrun⟩)
    fun _ => id
  · intro j
    rw [held_setHandler]
    split_ifs with hj
    · rw [hj, hheld]
    · rfl
  · intro j k' hk'
    by_cases hj : j = i
    · subst hj
      have hself : (s.setHandler j k).handlers j = some k := Function.update_self j _ s.handlers
      rw [hself] at hk'
      obtain rfl := Option.some.inj hk'
      exact hpaired
    · have hother : (s.setHandler i k).handlers j = s.handlers j :=
        Function.update_of_ne hj _ s.handlers
      exact h.paired j k' (hother ▸ hk')

theorem setPc (h : Kept s g) (hk : s.handlers i = some k) {pc : HandlerPc}
    (hpc : pc ≠ .returned) : Kept (s.setHandler i { k with pc := pc }) g :=
  h.setHandler (held_of_handlers hk).symm ⟨(h.paired i k hk).1, fun heq => absurd heq hpc⟩

theorem setStream (h : Kept s g) {t : Nat} {task : StreamTask}
    (hrunning : task.Running → ∃ task', s.streams t = some task' ∧ task'.Running)
    (hcancelled : task.cancelled = false) (hended : task.pc = .ended → t ∈ g'.finished)
    (hfinished : g.finished ⊆ g'.finished)
    (hsubscribers : s'.subscribers = s.subscribers) (hnext : s'.nextQueue = s.nextQueue)
    (hconsumers : s'.consumers = s.consumers) (hhandlers : s'.handlers = s.handlers)
    (hstreams : s'.streams = Function.update s.streams t (some task))
    (horphans : g'.orphans = g.orphans) (howner : g'.owner = g.owner) : Kept s' g' := by
  apply h.of_same hsubscribers hnext hconsumers ?_ horphans howner ?_ ?_ ?_
  · intro j
    rw [held, held, hhandlers]
  · rw [hhandlers]
    exact h.paired
  · intro t' task' ht' hrun
    rw [hstreams] at ht'
    by_cases heq : t' = t
    · subst heq
      rw [Function.update_self] at ht'
      obtain rfl := Option.some.inj ht'
      exact hrunning hrun
    · rw [Function.update_of_ne heq] at ht'
      exact ⟨task', ht', hrun⟩
  · intro q hq
    obtain ⟨task', htask, hkept, hby⟩ := hq
    unfold Tasked
    rw [hstreams]
    by_cases heq : q = t
    · subst heq
      exact ⟨task, Function.update_self _ _ _, hcancelled, hended⟩
    · exact ⟨task', (Function.update_of_ne heq _ _).trans htask, hkept, fun h => hfinished (hby h)⟩

end Kept

/-! ## One step -/

theorem foldl_offer_eq (s : Server β) (msg : Message β) (entries : List Entry) :
    ∃ queues dropped,
      entries.foldl (offer msg) s = { s with queues := queues, dropped := dropped } := by
  induction entries generalizing s with
  | nil => exact ⟨s.queues, s.dropped, rfl⟩
  | cons e entries ih =>
      obtain ⟨queues, dropped, heq⟩ := ih (offer msg s e)
      refine ⟨queues, dropped, heq.trans ?_⟩
      unfold offer
      split_ifs <;> rfl

theorem foldl_trace_eq (g : Trace β) (msg : Message β) (entries : List Entry) :
    ∃ matched, entries.foldl (Trace.offer msg) g = { g with matched := matched } := by
  induction entries generalizing g with
  | nil => exact ⟨g.matched, rfl⟩
  | cons e entries ih =>
      obtain ⟨matched, heq⟩ := ih (g.offer msg e)
      refine ⟨matched, heq.trans ?_⟩
      unfold Trace.offer
      split_ifs <;> rfl

theorem track_get_eq (s : Server β) (g : Trace β) (t : Nat) :
    ∃ taken sent, Trace.track s (.get t) g = { g with taken := taken, sent := sent } := by
  cases hhead : (s.queues t).head? with
  | none => exact ⟨g.taken, g.sent, by simp only [Trace.track, hhead]⟩
  | some msg =>
      cases howner : g.owner t <;>
        exact ⟨_, _, by simp only [Trace.track, hhead, Trace.deliver, howner]; rfl⟩

theorem track_take_eq (s : Server β) (g : Trace β) (q : Nat) :
    ∃ taken, Trace.track s (.take q) g = { g with taken := taken } := by
  cases hhead : (s.queues q).head? with
  | none => exact ⟨g.taken, by simp only [Trace.track, hhead]⟩
  | some msg => exact ⟨_, by simp only [Trace.track, hhead]; rfl⟩

theorem kept_onFrame (h : Kept s g) (hk : s.handlers i = some k) (frame : Frame) :
    Kept (s.onFrame i k frame) (g.trackFrame s.nextQueue i frame) := by
  cases frame with
  | invalidJson => exact h.setPc hk HandlerPc.noConfusion
  | unfit => exact h.release hk .returned
  | subscribe stream symbols =>
      cases houtcome : outcome symbols with
      | raised =>
          simp only [onFrame, onSubscribe, Trace.trackFrame, houtcome]
          rw [leave_raised]
          exact h.release hk .returned
      | orphaned =>
          simp only [onFrame, onSubscribe, Trace.trackFrame, houtcome]
          rw [leave_orphaned s i stream (h.fresh hk)]
          exact (h.release hk .returned).orphan stream rfl rfl rfl
      | returned set =>
          simp only [onFrame, onSubscribe, Trace.trackFrame, houtcome]
          rw [← subscribed_release s i k .replying]
          have hfree : (s.release i k .replying).held i = none :=
            (held_setHandler _ i i _).trans (if_pos rfl)
          exact (h.release hk .replying).subscribed hfree set stream rfl rfl rfl
  | unsubscribe =>
      have hreleased := h.release hk .replying
      exact hreleased.of_same rfl rfl rfl (fun _ => rfl) rfl rfl hreleased.paired
        (fun t task ht hrun => ⟨task, ht, hrun⟩) fun _ => id
  | other => exact h

theorem kept_next (h : Kept s g) {a : Act β} (ha : s.enabled a) :
    Kept (s.next a) (Trace.track s a g) := by
  cases a with
  | connect i =>
      apply h.setHandler _ ⟨rfl, fun _ => rfl⟩
      rw [held, Option.isNone_iff_eq_none.mp ha]
      rfl
  | frame i text =>
      obtain ⟨k, hk, -⟩ := ha
      have hnext : s.next (.frame i text) = s.onFrame i k (.ofText text) := by
        simp only [next, Option.mem_def.mp hk]
      rw [hnext]
      exact kept_onFrame h hk _
  | replied i =>
      obtain ⟨k, hk, -⟩ := ha
      have hnext : s.next (.replied i) = s.setHandler i { k with pc := .reading } := by
        simp only [next, Option.mem_def.mp hk]
      rw [hnext]
      exact h.setPc hk HandlerPc.noConfusion
  | leave i =>
      obtain ⟨k, hk, -⟩ := ha
      have hnext : s.next (.leave i) = s.leave i k := by
        simp only [next, Option.mem_def.mp hk]
      rw [hnext]
      exact h.release hk .returned
  | get t =>
      obtain ⟨⟨task, ht, hrun, -⟩, -⟩ := ha
      obtain ⟨taken, sent, hg⟩ := track_get_eq s g t
      rw [hg]
      exact h.setStream (fun _ => ⟨task, ht, hrun⟩) rfl StreamPc.noConfusion (fun _ => id)
        rfl rfl rfl rfl rfl rfl rfl
  | written t =>
      obtain ⟨task, ht, hrun, -⟩ := ha
      exact h.setStream (fun _ => ⟨task, ht, hrun⟩) rfl StreamPc.noConfusion (fun _ => id)
        rfl rfl rfl rfl rfl rfl rfl
  | finish t =>
      exact h.setStream (fun hrun => absurd rfl hrun.1) rfl
        (fun _ => List.mem_append_right _ List.mem_cons_self) (List.subset_append_left _ _)
        rfl rfl rfl rfl rfl rfl rfl
  | consume => exact h.consume
  | take q =>
      obtain ⟨taken, hg⟩ := track_take_eq s g q
      rw [hg]
      exact h.of_same rfl rfl rfl (fun _ => rfl) rfl rfl h.paired
        (fun t task ht hrun => ⟨task, ht, hrun⟩) fun _ => id
  | publish msg =>
      obtain ⟨queues, dropped, hs⟩ := foldl_offer_eq s msg s.subscribers
      obtain ⟨matched, hg⟩ := foldl_trace_eq (g.publish msg) msg s.subscribers
      show Kept (s.subscribers.foldl (offer msg) s)
        (s.subscribers.foldl (Trace.offer msg) (g.publish msg))
      rw [hs, hg]
      exact h.of_same rfl rfl rfl (fun _ => rfl) rfl rfl h.paired
        (fun t task ht hrun => ⟨task, ht, hrun⟩) fun _ => id

theorem kept_reachable {sg : Server β × Trace β} (hs : (traced β).Reachable sg) :
    Kept sg.1 sg.2 := by
  apply hs.invariant
  · intro sg hstart
    obtain ⟨s, g⟩ := sg
    obtain ⟨rfl, rfl⟩ := hstart
    exact .start
  · intro sg a h ha
    exact kept_next h ha

/-! ## Whole runs -/

theorem mem_orphans_track {q : Nat} (hq : q ∈ g.orphans) (a : Act β) :
    q ∈ (Trace.track s a g).orphans := by
  cases a with
  | frame i text =>
      show q ∈ (g.trackFrame s.nextQueue i (.ofText text)).orphans
      cases Frame.ofText text with
      | subscribe stream symbols =>
          cases houtcome : outcome symbols <;> simp only [Trace.trackFrame, houtcome]
          · exact hq
          · exact List.mem_append_left _ hq
          · exact hq
      | invalidJson => exact hq
      | unfit => exact hq
      | unsubscribe => exact hq
      | other => exact hq
  | get t =>
      obtain ⟨taken, sent, hg⟩ := track_get_eq s g t
      rw [hg]
      exact hq
  | take q' =>
      obtain ⟨taken, hg⟩ := track_take_eq s g q'
      rw [hg]
      exact hq
  | publish msg =>
      obtain ⟨matched, hg⟩ := foldl_trace_eq (g.publish msg) msg s.subscribers
      show q ∈ (s.subscribers.foldl (Trace.offer msg) (g.publish msg)).orphans
      rw [hg]
      exact hq
  | connect i => exact hq
  | replied i => exact hq
  | leave i => exact hq
  | written t => exact hq
  | finish t => exact hq
  | consume => exact hq

theorem outcome_eq_orphaned (symbols : Json) :
    outcome symbols = .orphaned ↔
      symbols = .bool false ∨ symbols = .posInt 0 ∨ symbols = .negInt 0 ∨ symbols = .float 0 := by
  have htruthy : ∀ set : Option (List Json),
      (match set with
        | none => Outcome.raised
        | some set => .returned (some set)) ≠ .orphaned := by
    intro set
    cases set <;> exact Outcome.noConfusion
  unfold outcome
  by_cases hfalsy : symbols.falsy = true
  · rw [if_pos hfalsy]
    cases symbols with
    | bool b =>
        have hb : b = false := by simpa [Json.falsy] using hfalsy
        simp [hb, Json.isNull, Json.sized]
    | posInt n =>
        have hn : n = 0 := by simpa [Json.falsy] using hfalsy
        simp [hn, Json.isNull, Json.sized]
    | negInt n =>
        have hn : n = 0 := by simpa [Json.falsy] using hfalsy
        simp [hn, Json.isNull, Json.sized]
    | float x =>
        have hx : x = 0 := by simpa [Json.falsy] using hfalsy
        simp [hx, Json.isNull, Json.sized]
    | _ => simp [Json.isNull, Json.sized]
  · rw [if_neg hfalsy]
    apply iff_of_false (htruthy symbols.toSet)
    intro hzero
    rcases hzero with rfl | rfl | rfl | rfl <;> exact hfalsy rfl

/-- The registry holds the queue of each subscribed session and of each consumer, once,
and besides them the queues that `subscribe` registered and did not return, for a frame
whose symbols are `false` or zero. Those stay, for all symbols, whatever happens next.
A session that has a queue is there, with one task on it, which nobody has cancelled and
which runs unless it ended by itself; and every task that runs is that of a session that
still has its queue. -/
theorem python_registry_mirrors {sg : Server β × Trace β} (hs : (traced β).Reachable sg) :
    Mirrors sg.1.ids sg.1.nextQueue (sg.1.HeldBy sg.2.orphans) ∧
    (∀ q ∈ sg.2.orphans, ∀ as, (traced β).Admits sg as →
      ∃ e ∈ ((traced β).exec sg as).1.subscribers, e.queue = q ∧ e.symbols = none) ∧
    (∀ symbols, outcome symbols = .orphaned ↔
      symbols = .bool false ∨ symbols = .posInt 0 ∨ symbols = .negInt 0 ∨ symbols = .float 0) ∧
    (∀ i k q, sg.1.handlers i = some k → k.q = some q →
      k.pc ≠ .returned ∧ k.streamTask = some q ∧ ∃ task, sg.1.streams q = some task ∧
        task.cancelled = false ∧ (task.Running ∨ q ∈ sg.2.finished)) ∧
    (∀ t task, sg.1.streams t = some task → task.Running →
      ∃ i k, sg.1.handlers i = some k ∧ k.q = some t ∧ k.streamTask = some t) := by
  have h := kept_reachable hs
  refine ⟨h.mirrors, ?_, outcome_eq_orphaned, ?_, ?_⟩
  · intro q hq as has
    have horphan : q ∈ ((traced β).exec sg as).2.orphans :=
      Machine.exec_kept (P := fun sg => q ∈ sg.2.orphans)
        (fun sg a _ _ hq => mem_orphans_track hq a) hs hq has
    have hafter := kept_reachable (hs.exec as has)
    have hlisted : q ∈ ((traced β).exec sg as).1.ids :=
      (hafter.mirrors.listed q).mpr ⟨.nobody, horphan⟩
    obtain ⟨e, he, rfl⟩ := List.mem_map.mp hlisted
    exact ⟨e, he, rfl, hafter.wide e he horphan⟩
  · intro i k q hk hq
    obtain ⟨htask, hreturned⟩ := h.paired i k hk
    obtain ⟨task, hstream, hcancelled, hended⟩ := h.tasked i q ((held_of_handlers hk).trans hq)
    refine ⟨?_, htask.trans hq, task, hstream, hcancelled, ?_⟩
    · intro hpc
      rw [hreturned hpc] at hq
      cases hq
    · by_cases hpc : task.pc = .ended
      · exact Or.inr (hended hpc)
      · exact Or.inl ⟨hpc, hcancelled⟩
  · intro t task ht hrun
    obtain ⟨i, hi⟩ := h.running t task ht hrun
    obtain ⟨k, hk, hq⟩ := Option.bind_eq_some_iff.mp hi
    exact ⟨i, k, hk, hq, (h.paired i k hk).1.trans hq⟩

def subscribeText (fields : List (String × Json)) : Option Json :=
  some (.object (("action", .string "subscribe") :: fields))

/-- The first session asks for the symbols `false` and is gone; the second subscribes
and is sent a message that both queues get. -/
def orphaning : List (Act Nat) :=
  [.connect 0, .frame 0 (subscribeText [("symbols", .bool false)]),
    .connect 1, .frame 1 (subscribeText [("symbols", .array [.string "BTCUSDT"])]), .replied 1,
    .publish (tick 4), .get 1, .written 1, .publish (tick 5)]

def orphaningState : Server Nat × Trace Nat := (traced Nat).exec (.start, .start) orphaning

theorem orphaningState_reachable : (traced Nat).Reachable orphaningState :=
  (Machine.Reachable.start (m := traced Nat) (s := (.start, .start)) ⟨rfl, rfl⟩).exec
    orphaning (by decide +kernel)

theorem python_registry_mirrors_orphan :
    orphaningState.2.orphans = [0] ∧
      ∃ e ∈ orphaningState.1.subscribers, e.queue = 0 ∧ e.symbols = none :=
  ⟨by decide +kernel,
    (python_registry_mirrors orphaningState_reachable).2.1 0 (by decide +kernel) [] trivial⟩

end Server

end Python.Sessions

end FeedHandler
