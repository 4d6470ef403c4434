import FeedHandler.Lib.Machine
import FeedHandler.Lib.MaxHeap
import Mathlib.Algebra.Order.Ring.Rat
import Mathlib.Data.Finset.Basic
import Mathlib.Data.Finset.Dedup
import Mathlib.Data.Finset.Insert
import Mathlib.Data.Prod.Lex
/-!
# The snapshot pacer

`SnapshotPacer` of `rust/src/feed_handler.rs`: requesters draw a sequence number
and send a ticket, the `pace` loop hands out one slot per interval. A step is what
one party does between two points where others may run, so a requester may number
its ticket, be overtaken, and send it late, and may go away at any moment while it
waits.
-/

namespace FeedHandler.Pacer

open Lib

/-- A pending request for a slot. The permit is told by the sequence number. -/
structure Ticket where
  rank : Nat
  seq : Nat
deriving DecidableEq

namespace Ticket

/-- `Ord for Ticket`: the comparison is inverted. -/
def cmp (self other : Ticket) : Ordering :=
  (compare other.rank self.rank).then (compare other.seq self.seq)

def key (t : Ticket) : (Nat ×ₗ Nat)ᵒᵈ := OrderDual.toDual (toLex (t.rank, t.seq))

theorem key_injective : Function.Injective key := by
  rintro ⟨rank, seq⟩ ⟨rank', seq'⟩ h
  simpa [key] using h

instance : LinearOrder Ticket := LinearOrder.lift' key key_injective

theorem le_iff {t t' : Ticket} :
    t' ≤ t ↔ t.rank < t'.rank ∨ t.rank = t'.rank ∧ t.seq ≤ t'.seq :=
  Prod.Lex.toLex_le_toLex

theorem cmp_ne_gt {t t' : Ticket} : t'.cmp t ≠ .gt ↔ t' ≤ t := by
  rw [le_iff, cmp, ne_eq, Ordering.then_eq_gt, Nat.compare_eq_gt, Nat.compare_eq_gt,
    Nat.compare_eq_eq]
  omega

end Ticket

inductive Pc
  /-- Spawned, not run yet. -/
  | starting
  /-- Emptying the channel into the heap. -/
  | draining
  /-- The heap is empty: waiting for a ticket. -/
  | idle
  /-- The heap is not empty; the clock is not read yet. -/
  | ready
  | sleeping (wakeAt : Rat)
  /-- The slot is due at clock reading `now`. -/
  | granting (now : Rat)
  | returned
  | panicked
deriving DecidableEq

def Pc.ended : Pc → Bool
  | .returned | .panicked => true
  | _ => false

def Pc.wakeTime : Pc → Option Rat
  | .sleeping wakeAt => some wakeAt
  | _ => none

def Pc.grantTime : Pc → Option Rat
  | .granting now => some now
  | _ => none

theorem Pc.wakeTime_eq_some {pc : Pc} {wakeAt : Rat} :
    pc.wakeTime = some wakeAt ↔ pc = .sleeping wakeAt := by
  cases pc <;> simp [wakeTime]

theorem Pc.grantTime_eq_some {pc : Pc} {now : Rat} :
    pc.grantTime = some now ↔ pc = .granting now := by
  cases pc <;> simp [grantTime]

structure SnapshotPacer where
  seq : Nat
  /-- Numbered in `acquire`, not sent yet. -/
  drawn : List Ticket
  channel : List Ticket
  /-- Every sender is gone. -/
  closed : Bool
  /-- The requesters that hold the receiving end of their permit. -/
  waiting : Finset Nat
  permits : Finset Nat
  heap : List Ticket
  /-- Set when the loop starts. -/
  nextAt : Rat
  clock : Rat
  pc : Pc

/-- `1 / rate`. -/
structure Pace where
  interval : Rat
  interval_pos : 0 < interval

inductive Act
  | tick (now : Rat)
  /-- `acquire(rank)` up to the number of its ticket. -/
  | draw (rank : Nat)
  | send (t : Ticket)
  | cancel (seq : Nat)
  | resume (seq : Nat)
  | close
  /-- The loop starts and sets its first slot. -/
  | begin
  /-- `try_recv` or `recv` yields a ticket. -/
  | recv
  /-- `try_recv` finds the channel empty. -/
  | drained
  /-- `recv` finds the channel closed. -/
  | finish
  | readClock
  | wake
  | grant

namespace SnapshotPacer

def new (clock : Rat) : SnapshotPacer where
  seq := 0
  drawn := []
  channel := []
  closed := false
  waiting := ∅
  permits := ∅
  heap := []
  nextAt := 0
  clock := clock
  pc := .starting

def Awaits (s : SnapshotPacer) (seq : Nat) : Prop :=
  seq ∈ s.waiting ∧ ∀ t ∈ s.drawn, t.seq ≠ seq

instance (s : SnapshotPacer) (seq : Nat) : Decidable (s.Awaits seq) :=
  inferInstanceAs (Decidable (_ ∧ _))

def enabled (s : SnapshotPacer) : Act → Prop
  | .tick now => s.clock ≤ now
  | .draw _ => s.closed = false
  | .send t => t ∈ s.drawn
  | .cancel seq => s.Awaits seq
  | .resume seq => s.Awaits seq ∧ (seq ∈ s.permits ∨ s.pc.ended = true)
  | .close => s.drawn = []
  | .begin => s.pc = .starting
  | .recv => (s.pc = .draining ∨ s.pc = .idle) ∧ s.channel ≠ []
  | .drained => s.pc = .draining ∧ s.channel = []
  | .finish => s.pc = .idle ∧ s.channel = [] ∧ s.closed = true
  | .readClock => s.pc = .ready
  | .wake => ∃ wakeAt ∈ s.pc.wakeTime, wakeAt ≤ s.clock
  | .grant => s.pc.grantTime.isSome = true

instance (s : SnapshotPacer) (a : Act) : Decidable (s.enabled a) := by
  cases a <;> unfold enabled <;> infer_instance

/-- The permit goes out, when somebody waits for it, and the next slot is one
interval after the clock reading of this one. A dropped requester burns no slot. -/
def grant (p : Pace) (s : SnapshotPacer) (now : Rat) (t : Ticket) (rest : List Ticket) :
    SnapshotPacer :=
  if t.seq ∈ s.waiting then
    { s with
      heap := rest
      pc := .draining
      permits := insert t.seq s.permits
      nextAt := now + p.interval }
  else { s with heap := rest, pc := .draining }

def next (p : Pace) (s : SnapshotPacer) : Act → SnapshotPacer
  | .tick now => { s with clock := now }
  | .draw rank =>
      { s with
        seq := s.seq + 1
        drawn := s.drawn ++ [⟨rank, s.seq⟩]
        waiting := insert s.seq s.waiting }
  | .send t =>
      -- without a receiver the send fails, and `acquire` returns at once
      if s.pc.ended then
        { s with drawn := s.drawn.erase t, waiting := s.waiting.erase t.seq }
      else { s with drawn := s.drawn.erase t, channel := s.channel ++ [t] }
  | .cancel seq => { s with waiting := s.waiting.erase seq }
  | .resume seq => { s with waiting := s.waiting.erase seq }
  | .close => { s with closed := true }
  | .begin => { s with pc := .draining, nextAt := s.clock + p.interval }
  | .recv =>
      match s.channel with
      | t :: rest => { s with channel := rest, heap := t :: s.heap, pc := .draining }
      | [] => s
  | .drained => { s with pc := if s.heap = [] then .idle else .ready }
  | .finish => { s with pc := .returned }
  | .readClock =>
      { s with
        pc := if s.clock < s.nextAt then .sleeping (s.clock + (s.nextAt - s.clock))
          else .granting s.clock }
  | .wake => { s with pc := .draining }
  | .grant =>
      match s.pc.grantTime, popMax? s.heap with
      | some now, some (t, rest) => s.grant p now t rest
      | some _, none => { s with pc := .panicked }
      | none, _ => s

end SnapshotPacer

def Pace.machine (p : Pace) : Machine SnapshotPacer Act where
  initial s := s = SnapshotPacer.new s.clock
  enabled := SnapshotPacer.enabled
  next := SnapshotPacer.next p

/-! ## What happened so far -/

structure PaceLog where
  /-- The clock reading the loop started at. -/
  start : Rat
  /-- The tickets that entered the channel. -/
  sent : List Ticket
  /-- Those that were in it before the last drain of the channel was over. -/
  seen : List Ticket
  /-- The permits that reached a live requester, each with the loop's clock reading. -/
  grants : List (Rat × Ticket)
  /-- The tickets popped since the last grant whose requester was gone. -/
  discarded : List Ticket

namespace PaceLog

def new : PaceLog where
  start := 0
  sent := []
  seen := []
  grants := []
  discarded := []

def times (g : PaceLog) : List Rat := g.grants.map Prod.fst

def granted (g : PaceLog) : List Ticket := g.grants.map Prod.snd

def popped (s : SnapshotPacer) (now : Rat) (t : Ticket) (g : PaceLog) : PaceLog :=
  if t.seq ∈ s.waiting then { g with grants := g.grants ++ [(now, t)], discarded := [] }
  else { g with discarded := g.discarded ++ [t] }

def track (s : SnapshotPacer) (a : Act) (g : PaceLog) : PaceLog :=
  match a with
  | .begin => { g with start := s.clock }
  | .send t => if s.pc.ended then g else { g with sent := g.sent ++ [t] }
  | .drained => { g with seen := g.sent }
  | .grant =>
      match s.pc.grantTime, popMax? s.heap with
      | some now, some (t, _) => g.popped s now t
      | _, _ => g
  | _ => g

end PaceLog

def Pace.logged (p : Pace) : Machine (SnapshotPacer × PaceLog) Act :=
  p.machine.withGhost PaceLog.new PaceLog.track

instance (p : Pace) (sg : SnapshotPacer × PaceLog) (a : Act) :
    Decidable (p.logged.enabled sg a) :=
  inferInstanceAs (Decidable (sg.1.enabled a))

theorem permits_next {p : Pace} {s : SnapshotPacer} {g : PaceLog}
    (h : s.permits = (g.granted.map Ticket.seq).toFinset) (a : Act) :
    (s.next p a).permits = ((g.track s a).granted.map Ticket.seq).toFinset := by
  cases a with
  | send t =>
      simp only [SnapshotPacer.next, PaceLog.track]
      split_ifs <;> exact h
  | recv =>
      simp only [SnapshotPacer.next, PaceLog.track]
      split <;> exact h
  | grant =>
      cases hnow : s.pc.grantTime with
      | none => simpa only [SnapshotPacer.next, PaceLog.track, hnow] using h
      | some now =>
          cases hpop : popMax? s.heap with
          | none => simpa only [SnapshotPacer.next, PaceLog.track, hnow, hpop] using h
          | some popped =>
              obtain ⟨t, rest⟩ := popped
              simp only [SnapshotPacer.next, PaceLog.track, hnow, hpop, SnapshotPacer.grant,
                PaceLog.popped]
              split_ifs
              · ext seq
                simp only [PaceLog.granted, h, List.map_append, List.map_cons, List.map_nil,
                  Finset.mem_insert, List.mem_toFinset, List.mem_append, List.mem_singleton]
                exact or_comm
              · exact h
  | _ => exact h

theorem permits_reachable {p : Pace} {sg : SnapshotPacer × PaceLog}
    (hs : p.logged.Reachable sg) :
    sg.1.permits = (sg.2.granted.map Ticket.seq).toFinset := by
  apply hs.invariant (I := fun sg => sg.1.permits = (sg.2.granted.map Ticket.seq).toFinset)
  · intro sg hstart
    obtain ⟨s, g⟩ := sg
    obtain ⟨hs, hg⟩ := hstart
    simp only at hs hg
    rw [hs, hg]
    rfl
  · intro sg a h _
    exact permits_next h a

/-! ## A run to evaluate -/

def everySecond : Pace := ⟨1, by decide +kernel⟩

/-- Rank 7 asks before ranks 0 and 3, the requester of rank 0 goes away during the
sleep, and the loop oversleeps. -/
def cancelledRun : List Act :=
  [.begin, .draw 7, .send ⟨7, 0⟩, .recv, .drained, .readClock,
    .draw 0, .draw 3, .send ⟨3, 2⟩, .send ⟨0, 1⟩, .cancel 1, .tick 5, .wake,
    .recv, .recv, .drained, .readClock, .grant, .drained, .readClock]

def cancelledState : SnapshotPacer × PaceLog :=
  everySecond.logged.exec (SnapshotPacer.new 0, PaceLog.new) cancelledRun

theorem cancelledState_reachable : everySecond.logged.Reachable cancelledState :=
  (Machine.Reachable.start (m := everySecond.logged)
    (s := (SnapshotPacer.new 0, PaceLog.new)) ⟨rfl, rfl⟩).exec cancelledRun (by decide +kernel)

end FeedHandler.Pacer
