import FeedHandler.Python.Delivery
/-!
# From the shards to the sockets of the Python port

A shard counts an event and puts it on `bbo_q` or `book_q`, a `drain` of
`run_dispatcher` takes it and publishes it, and the task of each subscription sends it.
There is no `await` between the count and the put, nor between the `get` of a drain and
its `_publish`. Both hops shed the oldest, so what comes out is still in order.
-/

namespace FeedHandler.Python.Sessions

open Lib Publisher.Server

open Shedding (PythonQueue)

def queueMax : Nat := 100000

structure Pipeline (β : Type) where
  /-- `_bbo_count` and `_book_count`. -/
  count : Stream → Nat
  /-- `bbo_q` with `_bbo_dropped`, and `book_q` with `_book_dropped`. -/
  source : Stream → PythonQueue (Message β)
  server : Server β

structure Passage (β : Type) where
  emitted : Stream → List (Message β)
  /-- Tickers that were counted and then had an amount that is no decimal. -/
  botched : Nat
  drained : Stream → List (Message β)
  trace : Trace β

namespace Pipeline

variable {β : Type}

inductive Act (β : Type)
  | emit (msg : Message β)
  /-- `Decimal(msg["B"])` or `Decimal(msg["A"])` raises after `_bbo_count += 1`, or the
  frame has no such key. -/
  | botch
  | drain (stream : Stream)
  | serve (a : Sessions.Act β)

def Serves : Sessions.Act β → Bool
  | .publish _ => false
  | _ => true

def start : Pipeline β := ⟨fun _ => 0, fun _ => ⟨[], 0⟩, Server.start⟩

def enabled (s : Pipeline β) : Act β → Prop
  | .emit _ | .botch => True
  | .drain stream => (s.source stream).queue ≠ []
  | .serve a => s.server.enabled a ∧ Serves a = true

instance (s : Pipeline β) (a : Act β) : Decidable (s.enabled a) := by
  cases a <;> unfold enabled <;> infer_instance

def next (s : Pipeline β) : Act β → Pipeline β
  | .emit msg =>
      { s with
        count := Function.update s.count msg.stream (s.count msg.stream + 1)
        source := Function.update s.source msg.stream ((s.source msg.stream).put queueMax msg) }
  | .botch => { s with count := Function.update s.count .bbo (s.count .bbo + 1) }
  | .drain stream =>
      match (s.source stream).queue with
      | msg :: _ =>
          { s with
            source := Function.update s.source stream (s.source stream).get
            server := s.server.publish msg }
      | [] => s
  | .serve a => { s with server := s.server.next a }

def machine (β : Type) : Machine (Pipeline β) (Act β) where
  initial s := s = start
  enabled := enabled
  next := next

end Pipeline

namespace Passage

variable {β : Type}

def start : Passage β := ⟨fun _ => [], 0, fun _ => [], Trace.start⟩

def track (s : Pipeline β) (a : Pipeline.Act β) (g : Passage β) : Passage β :=
  match a with
  | .emit msg =>
      { g with
        emitted := Function.update g.emitted msg.stream (g.emitted msg.stream ++ [msg]) }
  | .botch => { g with botched := g.botched + 1 }
  | .drain stream =>
      match (s.source stream).queue with
      | msg :: _ =>
          { g with
            drained := Function.update g.drained stream (g.drained stream ++ [msg])
            trace := Trace.track s.server (.publish msg) g.trace }
      | [] => g
  | .serve a => { g with trace := Trace.track s.server a g.trace }

end Passage

namespace Pipeline

variable {β : Type} {s : Pipeline β} {g : Passage β}

def passing (β : Type) : Machine (Pipeline β × Passage β) (Act β) :=
  (machine β).withGhost Passage.start Passage.track

instance (sg : Pipeline β × Passage β) (a : Act β) : Decidable ((passing β).enabled sg a) :=
  inferInstanceAs (Decidable (sg.1.enabled a))

/-! ## What every step keeps -/

structure InOrder (s : Pipeline β) (g : Passage β) : Prop where
  reachable : (traced β).Reachable (s.server, g.trace)
  source : ∀ stream, Slid queueMax (g.emitted stream) (g.drained stream) (s.source stream).queue
  counted : ∀ stream, (g.emitted stream).length = (s.source stream).dropped +
    (g.drained stream).length + (s.source stream).queue.length
  count : ∀ stream,
    s.count stream = (g.emitted stream).length + if stream = .bbo then g.botched else 0
  stream : ∀ stream, ∀ msg ∈ g.emitted stream, msg.stream = stream
  published : ∀ stream,
    (g.trace.published.filter fun msg => decide (msg.stream = stream)) = g.drained stream

namespace InOrder

theorem start : InOrder (Pipeline.start : Pipeline β) Passage.start where
  reachable := .start ⟨rfl, rfl⟩
  source _ := ⟨Nat.zero_le _, List.suffix_refl _, List.Sublist.refl _⟩
  counted _ := rfl
  count stream := by cases stream <;> rfl
  stream stream msg hmsg := absurd hmsg List.not_mem_nil
  published _ := rfl

theorem emit (h : InOrder s g) (msg : Message β) :
    InOrder (s.next (.emit msg)) (Passage.track s (.emit msg) g) := by
  have hbounded := (h.source msg.stream).bounded
  have hput := Shedding.put_python (by decide) hbounded msg
  have hlength := length_slide (by decide) hbounded msg
  simp only [next, Passage.track]
  constructor
  · exact h.reachable
  · intro stream
    by_cases heq : stream = msg.stream
    · subst heq
      simp only [Function.update_self]
      rw [hput]
      exact (h.source msg.stream).put (by decide) msg
    · simp only [Function.update_of_ne heq]
      exact h.source stream
  · intro stream
    by_cases heq : stream = msg.stream
    · subst heq
      have hcounted := h.counted msg.stream
      simp only [Function.update_self]
      rw [hput]
      simp only [List.length_append, List.length_singleton, hlength]
      split_ifs <;> omega
    · simp only [Function.update_of_ne heq]
      exact h.counted stream
  · intro stream
    by_cases heq : stream = msg.stream
    · subst heq
      have hcount := h.count msg.stream
      simp only [Function.update_self, List.length_append, List.length_singleton]
      omega
    · simp only [Function.update_of_ne heq]
      exact h.count stream
  · intro stream other hother
    by_cases heq : stream = msg.stream
    · subst heq
      simp only [Function.update_self] at hother
      rcases List.mem_append.mp hother with hold | hnew
      · exact h.stream msg.stream other hold
      · rw [List.mem_singleton.mp hnew]
    · simp only [Function.update_of_ne heq] at hother
      exact h.stream stream other hother
  · exact h.published

theorem botch (h : InOrder s g) : InOrder (s.next .botch) (Passage.track s .botch g) := by
  constructor
  · exact h.reachable
  · exact h.source
  · exact h.counted
  · intro stream
    have hcount := h.count stream
    simp only [next, Passage.track]
    cases stream with
    | bbo =>
        rw [Function.update_self]
        simp only [if_true] at hcount ⊢
        omega
    | book =>
        rw [Function.update_of_ne Stream.noConfusion]
        exact hcount
  · exact h.stream
  · exact h.published

theorem drain (h : InOrder s g) {stream : Stream} {msg : Message β} {rest : List (Message β)}
    (hqueue : (s.source stream).queue = msg :: rest) :
    InOrder (s.next (.drain stream)) (Passage.track s (.drain stream) g) := by
  have hslid := h.source stream
  rw [hqueue] at hslid
  have hmsg : msg.stream = stream :=
    h.stream stream msg (hslid.latest.subset List.mem_cons_self)
  have hget : (s.source stream).get = ⟨rest, (s.source stream).dropped⟩ := by
    rw [Shedding.get_python, hqueue]
    rfl
  simp only [next, Passage.track, hqueue]
  constructor
  · have henabled : (traced β).enabled (s.server, g.trace) (.publish msg) := trivial
    exact h.reachable.step henabled
  · intro other
    by_cases heq : other = stream
    · subst heq
      simp only [Function.update_self]
      rw [hget]
      exact hslid.take
    · simp only [Function.update_of_ne heq]
      exact h.source other
  · intro other
    by_cases heq : other = stream
    · subst heq
      have hcounted := h.counted other
      simp only [Function.update_self]
      rw [hqueue, List.length_cons] at hcounted
      rw [hget, List.length_append, List.length_singleton]
      dsimp only
      omega
    · simp only [Function.update_of_ne heq]
      exact h.counted other
  · exact h.count
  · exact h.stream
  · intro other
    have hpublished := Server.published_foldl g.trace msg s.server.subscribers
    show ((s.server.subscribers.foldl (Trace.offer msg) (g.trace.publish msg)).published.filter
      fun m => decide (m.stream = other)) =
        Function.update g.drained stream (g.drained stream ++ [msg]) other
    rw [hpublished, List.filter_append, List.filter_singleton, hmsg, h.published other]
    by_cases heq : other = stream
    · subst heq
      simp
    · rw [Function.update_of_ne heq]
      simp [Ne.symm heq]

theorem serve (h : InOrder s g) {a : Sessions.Act β} (ha : s.server.enabled a)
    (hserves : Serves a = true) : InOrder (s.next (.serve a)) (Passage.track s (.serve a) g) := by
  constructor
  · exact h.reachable.step ha
  · exact h.source
  · exact h.counted
  · exact h.count
  · exact h.stream
  · have hpublished : (Trace.track s.server a g.trace).published = g.trace.published := by
      rcases Server.publish_or_same s.server a g.trace with ⟨msg, rfl⟩ | ⟨-, hsame⟩
      · cases hserves
      · exact hsame
    intro stream
    show ((Trace.track s.server a g.trace).published.filter _) = _
    rw [hpublished]
    exact h.published stream

end InOrder

theorem inOrder_reachable {sg : Pipeline β × Passage β} (hs : (passing β).Reachable sg) :
    InOrder sg.1 sg.2 := by
  apply hs.invariant
  · intro sg hstart
    obtain ⟨s, g⟩ := sg
    obtain ⟨rfl, rfl⟩ := hstart
    exact .start
  · intro sg a h ha
    cases a with
    | emit msg => exact h.emit msg
    | botch => exact h.botch
    | drain stream =>
        obtain ⟨msg, rest, hqueue⟩ := List.exists_cons_of_ne_nil ha
        exact h.drain hqueue
    | serve a => exact h.serve ha.1 ha.2

end Pipeline

end FeedHandler.Python.Sessions
