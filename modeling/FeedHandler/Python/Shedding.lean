import FeedHandler.Lib.Machine
import FeedHandler.Lib.Window
import FeedHandler.Publisher.Pipeline
/-!
# Shedding the oldest or the newest

What a full queue sheds: `_put` of `python/feed_handler.py` and of
`python/publisher.py` takes the oldest item out, `put` of `rust/src/feed_handler.rs` and
`put_value` of `rust/src/publisher.rs` do not take the new one in. Fed and drained in
parallel, the two queues differ in what they hold and in nothing that is counted.
-/

namespace FeedHandler.Shedding

open Lib

variable {α : Type}

/-! ## The Python port -/

/-- `asyncio.Queue.full`: a queue of size zero has no bound. -/
def Full (maxsize : Nat) (q : List α) : Prop := 0 < maxsize ∧ maxsize ≤ q.length

instance (maxsize : Nat) (q : List α) : Decidable (Full maxsize q) :=
  inferInstanceAs (Decidable (_ ∧ _))

def putNowait (maxsize : Nat) (q : List α) (item : α) : Option (List α) :=
  if Full maxsize q then none else some (q ++ [item])

def getNowait : List α → Option (α × List α)
  | [] => none
  | item :: q => some (item, q)

/-- What both versions do once `put_nowait` has failed; both exceptions are passed over. -/
def shedOldest (maxsize : Nat) (q : List α) (item : α) : List α :=
  let q := ((getNowait q).map Prod.snd).getD q
  (putNowait maxsize q item).getD q

/-- `_put` of the handler: false when anything was shed, so that the caller can count. -/
def handlerPut (maxsize : Nat) (q : List α) (item : α) : Bool × List α :=
  match putNowait maxsize q item with
  | some q => (true, q)
  | none => (false, shedOldest maxsize q item)

/-- `_put` of the publisher, which counts by itself. -/
def publisherPut (maxsize : Nat) (dropped : Nat) (q : List α) (item : α) : Nat × List α :=
  match putNowait maxsize q item with
  | some q => (dropped, q)
  | none => (dropped + 1, shedOldest maxsize q item)

structure PythonQueue (α : Type) where
  queue : List α
  dropped : Nat

/-- `if not _put(q, item): dropped += 1`. -/
def PythonQueue.put (maxsize : Nat) (s : PythonQueue α) (item : α) : PythonQueue α where
  queue := (handlerPut maxsize s.queue item).2
  dropped := if (handlerPut maxsize s.queue item).1 then s.dropped else s.dropped + 1

def PythonQueue.get (s : PythonQueue α) : PythonQueue α :=
  { s with queue := ((getNowait s.queue).map Prod.snd).getD s.queue }

/-! ## The Rust port -/

structure RustQueue (α : Type) where
  channel : Channel α
  dropped : Nat

/-- `put` and `put_value`: a `try_send`, counted when it fails. -/
def RustQueue.put (capacity : Nat) (s : RustQueue α) (item : α) : RustQueue α :=
  if s.channel.Open capacity then { s with channel := s.channel.push item }
  else { s with dropped := s.dropped + 1 }

def RustQueue.get (s : RustQueue α) : RustQueue α := { s with channel := s.channel.advance }

/-! ## The other put of each port -/

theorem publisherPut_eq (maxsize : Nat) (s : PythonQueue α) (item : α) :
    publisherPut maxsize s.dropped s.queue item =
      ((s.put maxsize item).dropped, (s.put maxsize item).queue) := by
  unfold publisherPut PythonQueue.put handlerPut
  cases putNowait maxsize s.queue item with
  | none => rfl
  | some q => rfl

theorem putValue_eq {β : Type} (capacity : Nat) (h : Publisher.Hub β) (tx : Nat)
    (msg : Message β) :
    (⟨(h.putValue capacity tx msg).channels tx, (h.putValue capacity tx msg).dropped⟩ :
      RustQueue (Message β)) = RustQueue.put capacity ⟨h.channels tx, h.dropped⟩ msg := by
  unfold Publisher.Hub.putValue RustQueue.put
  split_ifs with hopen
  · simp [Publisher.Hub.setChannel]
  · rfl

theorem pipelinePut_eq {ι β : Type} (l : Publisher.Layout ι) (s : Publisher.Pipeline ι β)
    (msg : Message β) :
    (⟨(s.put l msg).queue msg.stream, (s.put l msg).shed msg.stream⟩ :
      RustQueue (Message β)) =
        RustQueue.put (l.capacity msg.stream) ⟨s.queue msg.stream, s.shed msg.stream⟩ msg := by
  unfold Publisher.Pipeline.put RustQueue.put
  split_ifs with hopen
  · simp
  · simp

/-! ## In parallel -/

inductive QueueOp (α : Type)
  | put (item : α)
  | get

structure Twins (α : Type) where
  python : PythonQueue α
  rust : RustQueue α

def Twins.start : Twins α := ⟨⟨[], 0⟩, ⟨.empty, 0⟩⟩

def Twins.next (capacity : Nat) (s : Twins α) : QueueOp α → Twins α
  | .put item => ⟨s.python.put capacity item, s.rust.put capacity item⟩
  | .get => ⟨s.python.get, s.rust.get⟩

structure History (α : Type) where
  puts : List α
  pythonGot : List α
  rustGot : List α

def History.start : History α := ⟨[], [], []⟩

def History.track (s : Twins α) (op : QueueOp α) (h : History α) : History α :=
  match op with
  | .put item => { h with puts := h.puts ++ [item] }
  | .get =>
      { h with
        pythonGot := h.pythonGot ++ s.python.queue.head?.toList
        rustGot := h.rustGot ++ s.rust.channel.queue.head?.toList }

def twins (α : Type) (capacity : Nat) : Machine (Twins α × History α) (QueueOp α) :=
  Machine.withGhost
    { initial := fun s => s = Twins.start
      enabled := fun _ _ => True
      next := Twins.next capacity }
    History.start History.track

/-! ## One put and one get -/

variable {capacity : Nat}

theorem putNowait_of_lt {q : List α} (h : q.length < capacity) (item : α) :
    putNowait capacity q item = some (q ++ [item]) := if_neg fun hfull => by
  have hle := hfull.2
  omega

theorem putNowait_of_le (hcapacity : 1 ≤ capacity) {q : List α} (h : capacity ≤ q.length)
    (item : α) : putNowait capacity q item = none := if_pos ⟨hcapacity, h⟩

theorem put_python (hcapacity : 1 ≤ capacity) {s : PythonQueue α}
    (hbounded : s.queue.length ≤ capacity) (item : α) :
    s.put capacity item =
      ⟨slide capacity s.queue item,
        if s.queue.length < capacity then s.dropped else s.dropped + 1⟩ := by
  unfold PythonQueue.put handlerPut
  by_cases hroom : s.queue.length < capacity
  · rw [putNowait_of_lt hroom, slide_of_lt hroom, if_pos hroom]
    rfl
  · have hle : capacity ≤ s.queue.length := Nat.not_lt.mp hroom
    rw [putNowait_of_le hcapacity hle, slide_of_le hle, if_neg hroom]
    cases hqueue : s.queue with
    | nil => simp [hqueue] at hle; omega
    | cons oldest rest =>
        have hrest : rest.length < capacity := by
          rw [hqueue, List.length_cons] at hbounded
          exact hbounded
        show PythonQueue.mk ((putNowait capacity rest item).getD rest) _ = _
        rw [putNowait_of_lt hrest]
        rfl

theorem get_python (s : PythonQueue α) : s.get = { s with queue := s.queue.tail } := by
  unfold PythonQueue.get
  cases s.queue with
  | nil => rfl
  | cons item q => rfl

theorem put_rust {s : RustQueue α} (hopen : s.channel.closed = false) (item : α) :
    s.put capacity item =
      if s.channel.queue.length < capacity then { s with channel := s.channel.push item }
      else { s with dropped := s.dropped + 1 } := by
  unfold RustQueue.put Channel.Open
  simp [hopen]

theorem head_append_tail (q : List α) : q.head?.toList ++ q.tail = q := by
  rw [← List.take_one, ← List.drop_one, List.take_append_drop]

structure InStep (capacity : Nat) (s : Twins α) (h : History α) : Prop where
  opened : s.rust.channel.closed = false
  bounded : s.python.queue.length ≤ capacity
  length_eq : s.python.queue.length = s.rust.channel.queue.length
  dropped_eq : s.python.dropped = s.rust.dropped
  got_eq : h.pythonGot.length = h.rustGot.length
  counted : h.puts.length = s.python.dropped + h.pythonGot.length + s.python.queue.length
  latest : s.python.queue <:+ h.puts
  python_order : (h.pythonGot ++ s.python.queue).Sublist h.puts
  rust_order : (h.rustGot ++ s.rust.channel.queue).Sublist h.puts

namespace InStep

variable {s : Twins α} {h : History α}

theorem start : InStep capacity (Twins.start : Twins α) History.start where
  opened := rfl
  bounded := Nat.zero_le _
  length_eq := rfl
  dropped_eq := rfl
  got_eq := rfl
  counted := rfl
  latest := List.suffix_refl _
  python_order := List.Sublist.refl _
  rust_order := List.Sublist.refl _

theorem put (h₀ : InStep capacity s h) (hcapacity : 1 ≤ capacity) (item : α) :
    InStep capacity (s.next capacity (.put item)) { h with puts := h.puts ++ [item] } := by
  have hlength := length_slide hcapacity h₀.bounded item
  have hbounded := h₀.bounded
  have hcounted := h₀.counted
  have hnext : s.next capacity (.put item) = ⟨_, _⟩ :=
    congrArg₂ Twins.mk (put_python hcapacity h₀.bounded item) (put_rust h₀.opened item)
  rw [hnext, ← h₀.length_eq, ← h₀.dropped_eq]
  -- the rust queue is full when the python queue is
  by_cases hroom : s.python.queue.length < capacity
  · rw [if_pos hroom] at hlength ⊢
    rw [if_pos hroom]
    constructor
    · exact h₀.opened
    · show (slide capacity s.python.queue item).length ≤ capacity
      omega
    · simp [hlength, h₀.length_eq]
    · rfl
    · exact h₀.got_eq
    · simp only [List.length_append, List.length_singleton, hlength]
      omega
    · exact slide_suffix h₀.latest capacity item
    · exact slide_sublist h₀.python_order capacity item
    · simp only [Channel.queue_push, ← List.append_assoc]
      exact h₀.rust_order.append_right [item]
  · rw [if_neg hroom] at hlength ⊢
    rw [if_neg hroom]
    constructor
    · exact h₀.opened
    · show (slide capacity s.python.queue item).length ≤ capacity
      omega
    · exact hlength.trans h₀.length_eq
    · rfl
    · exact h₀.got_eq
    · simp only [List.length_append, List.length_singleton, hlength]
      omega
    · exact slide_suffix h₀.latest capacity item
    · exact slide_sublist h₀.python_order capacity item
    · exact h₀.rust_order.trans (List.sublist_append_left h.puts [item])

theorem get (h₀ : InStep capacity s h) :
    InStep capacity (s.next capacity .get) (History.track s .get h) := by
  have hnext : s.next capacity .get = ⟨_, s.rust.get⟩ :=
    congrArg (Twins.mk · s.rust.get) (get_python s.python)
  have hheads : s.python.queue.head?.toList.length =
      s.rust.channel.queue.head?.toList.length := by
    rw [← List.take_one, ← List.take_one, List.length_take, List.length_take, h₀.length_eq]
  have hpython : s.python.queue.head?.toList.length + s.python.queue.tail.length =
      s.python.queue.length := by
    rw [← List.length_append, head_append_tail]
  rw [hnext]
  constructor
  · exact h₀.opened
  · exact (List.tail_sublist _).length_le.trans h₀.bounded
  · show s.python.queue.tail.length = s.rust.channel.queue.tail.length
    rw [List.length_tail, List.length_tail, h₀.length_eq]
  · exact h₀.dropped_eq
  · show (h.pythonGot ++ _).length = (h.rustGot ++ _).length
    rw [List.length_append, List.length_append, h₀.got_eq, hheads]
  · show h.puts.length = s.python.dropped + (h.pythonGot ++ _).length + _
    rw [List.length_append, h₀.counted]
    dsimp only
    omega
  · exact (List.tail_suffix _).trans h₀.latest
  · show (h.pythonGot ++ _ ++ _).Sublist h.puts
    rw [List.append_assoc, head_append_tail]
    exact h₀.python_order
  · show (h.rustGot ++ _ ++ s.rust.channel.queue.tail).Sublist h.puts
    rw [List.append_assoc, head_append_tail]
    exact h₀.rust_order

theorem next (h₀ : InStep capacity s h) (hcapacity : 1 ≤ capacity) (op : QueueOp α) :
    InStep capacity (s.next capacity op) (History.track s op h) := by
  cases op with
  | put item => exact h₀.put hcapacity item
  | get => exact h₀.get

end InStep

theorem inStep_reachable (hcapacity : 1 ≤ capacity) {sh : Twins α × History α}
    (hs : (twins α capacity).Reachable sh) : InStep capacity sh.1 sh.2 := by
  apply hs.invariant
  · rintro ⟨s, h⟩ ⟨hs, hh⟩
    rw [show s = Twins.start from hs, show h = History.start from hh]
    exact InStep.start
  · intro sh op h₀ _
    exact h₀.next hcapacity op

/-! ## What shedding the other end changes -/

/-- After any puts and gets the queues have the same length and the same count, which is
what was put and is neither queued nor got. The python queue has the latest items, and
each consumer got its items in the order they were put. The puts of the publishers do to
their queues what those of the handlers do. -/
theorem shedding_counts_alike (hcapacity : 1 ≤ capacity) {s : Twins α} {h : History α}
    (hs : (twins α capacity).Reachable (s, h)) :
    (s.python.queue.length = s.rust.channel.queue.length ∧
      s.python.dropped = s.rust.dropped) ∧
    h.puts.length = s.python.dropped + h.pythonGot.length + s.python.queue.length ∧
    h.puts.length = s.rust.dropped + h.rustGot.length + s.rust.channel.queue.length ∧
    s.python.queue = h.puts.rtake s.python.queue.length ∧
    h.pythonGot.Sublist h.puts ∧ h.rustGot.Sublist h.puts ∧
    ∀ item, publisherPut capacity s.python.dropped s.python.queue item =
      ((s.python.put capacity item).dropped, (s.python.put capacity item).queue) := by
  have h₀ : InStep capacity s h := inStep_reachable hcapacity hs
  have hrust : h.puts.length =
      s.rust.dropped + h.rustGot.length + s.rust.channel.queue.length := by
    rw [← h₀.dropped_eq, ← h₀.got_eq, ← h₀.length_eq]
    exact h₀.counted
  refine ⟨⟨h₀.length_eq, h₀.dropped_eq⟩, h₀.counted, hrust, ?_, ?_, ?_, ?_⟩
  · exact List.suffix_iff_eq_drop.mp h₀.latest
  · exact (List.sublist_append_left _ _).trans h₀.python_order
  · exact (List.sublist_append_left _ _).trans h₀.rust_order
  · intro item
    exact publisherPut_eq capacity s.python item

/-- Two puts and a get on queues of one: the consumers get different items. -/
theorem shedding_counts_alike_one :
    let sh := (twins Nat 1).exec (Twins.start, History.start) [.put 4, .put 5, .get]
    sh.1.python.dropped = 1 ∧ sh.1.rust.dropped = 1 ∧
      sh.2.pythonGot = [5] ∧ [5].Sublist sh.2.puts ∧
      sh.2.rustGot = [4] ∧ [4].Sublist sh.2.puts := by
  have hrun := Machine.reachable_of_enabled (m := twins Nat 1)
    (s := (Twins.start, History.start)) (fun _ _ => trivial) ⟨rfl, rfl⟩ [.put 4, .put 5, .get]
  have h := shedding_counts_alike (Nat.le_refl 1) hrun
  exact ⟨rfl, rfl, rfl, h.2.2.2.2.1, rfl, h.2.2.2.2.2.1⟩

end FeedHandler.Shedding
