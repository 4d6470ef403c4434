import FeedHandler.Pacer.Rate
import FeedHandler.Pacer.Order
import Mathlib.Data.Finset.Image
/-!
# The snapshot pacer of the Python port

`SnapshotPacer` of `python/feed_handler.py`. One thread runs every task, so `acquire`
numbers its request and queues it in one step; the loop sleeps first and looks at the
queue only when a slot is due. The Rust pacer drains a channel into a heap and looks at
the clock afterwards. Whatever the Python loop grants, the Rust loop can grant at the
same clock readings to the same requests.
-/

namespace FeedHandler.Python.Pacing

open Lib Pacer

/-- `(rank, seq, fut)` in the queue. Tuples compare by rank, then by number, and no two
have one number, so no futures are compared. -/
abbrev Entry := Nat ×ₗ Nat

def Entry.seq (e : Entry) : Nat := (ofLex e).2

inductive Pc
  /-- Created, not run yet. -/
  | starting
  /-- At the top of the loop, before the look at the clock. -/
  | looping
  | sleeping (wakeAt : Rat)
  /-- At `get`. -/
  | getting
  /-- Cancelled by `stop`. -/
  | stopped
deriving DecidableEq

def Pc.wakeTime : Pc → Option Rat
  | .sleeping wakeAt => some wakeAt
  | _ => none

theorem Pc.wakeTime_eq_some {pc : Pc} {wakeAt : Rat} :
    pc.wakeTime = some wakeAt ↔ pc = .sleeping wakeAt := by
  cases pc <;> simp [wakeTime]

structure SnapshotPacer where
  seq : Nat
  queue : List Entry
  /-- The requesters at `await fut`. One that is cancelled there cancels its future. -/
  awaiting : Finset Nat
  /-- The futures with a result. -/
  results : Finset Nat
  /-- Set when the loop starts. -/
  nextAt : Rat
  clock : Rat
  pc : Pc

inductive Act
  | tick (now : Rat)
  | acquire (rank : Nat)
  | cancel (seq : Nat)
  | resume (seq : Nat)
  /-- The loop starts and sets its first slot. -/
  | begin
  | readClock
  | wake
  | get
  | stop

namespace SnapshotPacer

def new (clock : Rat) : SnapshotPacer where
  seq := 0
  queue := []
  awaiting := ∅
  results := ∅
  nextAt := 0
  clock := clock
  pc := .starting

def Done (s : SnapshotPacer) (e : Entry) : Prop := e.seq ∉ s.awaiting ∨ e.seq ∈ s.results

instance (s : SnapshotPacer) (e : Entry) : Decidable (s.Done e) :=
  inferInstanceAs (Decidable (_ ∨ _))

def enabled (s : SnapshotPacer) : Act → Prop
  | .tick now => s.clock ≤ now
  | .acquire _ => True
  | .cancel seq => seq ∈ s.awaiting
  | .resume seq => seq ∈ s.awaiting ∧ seq ∈ s.results
  | .begin => s.pc = .starting
  | .readClock => s.pc = .looping
  | .wake => ∃ wakeAt ∈ s.pc.wakeTime, wakeAt ≤ s.clock
  | .get => s.pc = .getting ∧ s.queue ≠ []
  | .stop => True

instance (s : SnapshotPacer) (a : Act) : Decidable (s.enabled a) := by
  cases a <;> unfold enabled <;> infer_instance

/-- The least entry is out of the queue. A future that is done burns no slot. -/
def got (p : Pace) (s : SnapshotPacer) (e : Entry) (rest : List Entry) : SnapshotPacer :=
  if s.Done e then { s with queue := rest, pc := .looping }
  else
    { s with
      queue := rest
      pc := .looping
      results := insert e.seq s.results
      nextAt := s.clock + p.interval }

def next (p : Pace) (s : SnapshotPacer) : Act → SnapshotPacer
  | .tick now => { s with clock := now }
  | .acquire rank =>
      { s with
        seq := s.seq + 1
        queue := toLex (rank, s.seq + 1) :: s.queue
        awaiting := insert (s.seq + 1) s.awaiting }
  | .cancel seq => { s with awaiting := s.awaiting.erase seq }
  | .resume seq => { s with awaiting := s.awaiting.erase seq }
  | .begin => { s with pc := .looping, nextAt := s.clock + p.interval }
  | .readClock =>
      { s with
        pc := if 0 < s.nextAt - s.clock then .sleeping (s.clock + (s.nextAt - s.clock))
          else .getting }
  | .wake => { s with pc := .getting }
  | .get =>
      match popMin? s.queue with
      | some (e, rest) => s.got p e rest
      | none => s
  | .stop => { s with pc := .stopped }

end SnapshotPacer

structure PaceLog where
  /-- The clock reading the loop started at. -/
  start : Rat
  queued : List Entry
  /-- The results that were set, each with the clock reading. -/
  grants : List (Rat × Entry)

namespace PaceLog

def new : PaceLog := ⟨0, [], []⟩

def times (g : PaceLog) : List Rat := g.grants.map Prod.fst

def granted (g : PaceLog) : List Entry := g.grants.map Prod.snd

def track (s : SnapshotPacer) (a : Act) (g : PaceLog) : PaceLog :=
  match a with
  | .begin => { g with start := s.clock }
  | .acquire rank => { g with queued := g.queued ++ [toLex (rank, s.seq + 1)] }
  | .get =>
      match popMin? s.queue with
      | some (e, _) => if s.Done e then g else { g with grants := g.grants ++ [(s.clock, e)] }
      | none => g
  | _ => g

end PaceLog

def machine (p : Pace) : Machine SnapshotPacer Act where
  initial s := s = SnapshotPacer.new s.clock
  enabled := SnapshotPacer.enabled
  next := SnapshotPacer.next p

def logged (p : Pace) : Machine (SnapshotPacer × PaceLog) Act :=
  (machine p).withGhost PaceLog.new PaceLog.track

instance (p : Pace) (sg : SnapshotPacer × PaceLog) (a : Act) :
    Decidable ((logged p).enabled sg a) :=
  inferInstanceAs (Decidable (sg.1.enabled a))

/-! ## What the loop keeps -/

variable {p : Pace} {s : SnapshotPacer} {g : PaceLog}

/-- Numbers are fresh, nothing queued has its result, and `get` finds a slot due. -/
structure Sane (s : SnapshotPacer) : Prop where
  queued_le : ∀ e ∈ s.queue, e.seq ≤ s.seq
  results_le : ∀ k ∈ s.results, k ≤ s.seq
  unset : ∀ e ∈ s.queue, e.seq ∉ s.results
  distinct : (s.queue.map Entry.seq).Nodup
  asleep : ∀ wakeAt, s.pc = .sleeping wakeAt → wakeAt = s.nextAt
  due : s.pc = .getting → s.nextAt ≤ s.clock

theorem Sane.popped (h : Sane s) {e : Entry} {rest : List Entry}
    (hpop : popMin? s.queue = some (e, rest)) :
    e ∈ s.queue ∧ (∀ e' ∈ rest, e' ∈ s.queue ∧ e'.seq ≠ e.seq) ∧ (rest.map Entry.seq).Nodup := by
  have hperm := perm_of_popMin? hpop
  have hnodup : ((e :: rest).map Entry.seq).Nodup := (hperm.map Entry.seq).nodup_iff.mp h.distinct
  obtain ⟨hnot, hrest⟩ := List.nodup_cons.mp hnodup
  refine ⟨hperm.mem_iff.mpr List.mem_cons_self, fun e' he' => ⟨?_, ?_⟩, hrest⟩
  · exact hperm.mem_iff.mpr (List.mem_cons_of_mem _ he')
  · intro heq
    exact hnot (heq ▸ List.mem_map_of_mem he')

theorem sane_next (h : Sane s) {a : Act} (ha : s.enabled a) : Sane (s.next p a) := by
  cases a with
  | tick now =>
      have hlater : s.clock ≤ now := ha
      exact ⟨h.queued_le, h.results_le, h.unset, h.distinct, h.asleep,
        fun hpc => (h.due hpc).trans hlater⟩
  | acquire rank =>
      refine ⟨fun e he => ?_, fun k hk => ?_, fun e he => ?_, ?_, h.asleep, h.due⟩
      · rcases List.mem_cons.mp he with rfl | he
        · exact le_rfl
        · exact (h.queued_le e he).trans (Nat.le_succ _)
      · exact (h.results_le k hk).trans (Nat.le_succ _)
      · rcases List.mem_cons.mp he with rfl | he
        · intro hmem
          exact absurd (h.results_le _ hmem) (Nat.not_succ_le_self s.seq)
        · exact h.unset e he
      · refine List.nodup_cons.mpr ⟨fun hmem => ?_, h.distinct⟩
        obtain ⟨e, he, heq⟩ := List.mem_map.mp hmem
        have hle := h.queued_le e he
        rw [heq] at hle
        exact absurd hle (Nat.not_succ_le_self s.seq)
  | cancel seq => exact ⟨h.queued_le, h.results_le, h.unset, h.distinct, h.asleep, h.due⟩
  | resume seq => exact ⟨h.queued_le, h.results_le, h.unset, h.distinct, h.asleep, h.due⟩
  | begin =>
      exact ⟨h.queued_le, h.results_le, h.unset, h.distinct, by simp [SnapshotPacer.next],
        by simp [SnapshotPacer.next]⟩
  | readClock =>
      refine ⟨h.queued_le, h.results_le, h.unset, h.distinct, ?_, ?_⟩
      · intro wakeAt hpc
        simp only [SnapshotPacer.next] at hpc ⊢
        split_ifs at hpc
        rw [← Pc.sleeping.inj hpc]
        ring
      · intro hpc
        simp only [SnapshotPacer.next] at hpc ⊢
        split_ifs at hpc with hearly
        linarith
  | wake =>
      obtain ⟨wakeAt, hmem, hle⟩ := ha
      have hnextAt := h.asleep wakeAt (Pc.wakeTime_eq_some.mp hmem)
      exact ⟨h.queued_le, h.results_le, h.unset, h.distinct, by simp [SnapshotPacer.next],
        fun _ => hnextAt ▸ hle⟩
  | get =>
      simp only [SnapshotPacer.next]
      cases hpop : popMin? s.queue with
      | none => exact absurd (popMin?_eq_none.mp hpop) ha.2
      | some popped =>
          obtain ⟨e, rest⟩ := popped
          obtain ⟨hmem, hrest, hnodup⟩ := h.popped hpop
          simp only [SnapshotPacer.got]
          split_ifs
          · exact ⟨fun e' he' => h.queued_le e' (hrest e' he').1, h.results_le,
              fun e' he' => h.unset e' (hrest e' he').1, hnodup, by simp, by simp⟩
          · refine ⟨fun e' he' => h.queued_le e' (hrest e' he').1, fun k hk => ?_,
              fun e' he' hset => ?_, hnodup, by simp, by simp⟩
            · rcases Finset.mem_insert.mp hk with rfl | hk
              · exact h.queued_le e hmem
              · exact h.results_le k hk
            · rcases Finset.mem_insert.mp hset with heq | hset
              · exact (hrest e' he').2 heq
              · exact h.unset e' (hrest e' he').1 hset
  | stop =>
      exact ⟨h.queued_le, h.results_le, h.unset, h.distinct, by simp [SnapshotPacer.next],
        by simp [SnapshotPacer.next]⟩

theorem sane_reachable {sg : SnapshotPacer × PaceLog} (hs : (logged p).Reachable sg) :
    Sane sg.1 := by
  refine hs.invariant (I := fun sg => Sane sg.1) ?_ fun sg a h ha => sane_next h ha
  rintro ⟨s, g⟩ ⟨hstart, -⟩
  simp only at hstart
  rw [hstart]
  constructor <;> simp [SnapshotPacer.new]

/-! ## The Rust loop can follow -/

/-- The request as the Python port queues it. It counts from one. -/
def entry (t : Ticket) : Entry := toLex (t.rank, t.seq + 1)

@[simp] theorem seq_entry (t : Ticket) : (entry t).seq = t.seq + 1 := rfl

theorem entry_le_entry {t t' : Ticket} : entry t ≤ entry t' ↔ t' ≤ t := by
  rw [Ticket.le_iff, entry, entry, Prod.Lex.toLex_le_toLex]
  omega

/-- The state and log of the Rust pacer that has done the same so far, between two looks
at its channel. -/
structure Follows (x : SnapshotPacer × PaceLog) (y : Pacer.SnapshotPacer × Pacer.PaceLog) :
    Prop where
  seq : y.1.seq = x.1.seq
  drawn : y.1.drawn = []
  closed : y.1.closed = false
  queue : ((y.1.channel ++ y.1.heap).map entry).Perm x.1.queue
  awaiting : x.1.awaiting = y.1.waiting.image Nat.succ
  results : x.1.results = y.1.permits.image Nat.succ
  nextAt : y.1.nextAt = x.1.nextAt
  clock : y.1.clock = x.1.clock
  starting : x.1.pc = .starting → y.1.pc = .starting
  running : x.1.pc ≠ .starting → x.1.pc ≠ .stopped → y.1.pc = .draining
  alive : y.1.pc.ended = false
  start : y.2.start = x.2.start
  queued : y.2.sent.map entry = x.2.queued
  grants : y.2.grants.map (Prod.map id entry) = x.2.grants

theorem exec_recv (r : Pacer.SnapshotPacer) (h : Pacer.PaceLog) (hpc : r.pc = .draining) :
    p.logged.Admits (r, h) (List.replicate r.channel.length .recv) ∧
    p.logged.exec (r, h) (List.replicate r.channel.length .recv) =
      ({ r with channel := [], heap := r.channel.reverse ++ r.heap }, h) := by
  generalize hlist : r.channel = channel
  induction channel generalizing r with
  | nil =>
      refine ⟨trivial, ?_⟩
      show (r, h) = ({ r with channel := [] }, h)
      rw [← hlist]
  | cons t rest ih =>
      obtain ⟨hadmits, hexec⟩ :=
        ih { r with channel := rest, heap := t :: r.heap } hpc rfl
      have hnext : p.logged.next (r, h) .recv =
          ({ r with channel := rest, heap := t :: r.heap }, h) := by
        show (Pacer.SnapshotPacer.next p r .recv, h) = _
        simp only [Pacer.SnapshotPacer.next, hlist, ← hpc]
      refine ⟨⟨⟨Or.inl hpc, by simp [hlist]⟩, ?_⟩, ?_⟩
      · rw [hnext]
        exact hadmits
      · show p.logged.exec (p.logged.next (r, h) .recv) _ = _
        rw [hnext, hexec, List.reverse_cons, List.append_assoc]
        rfl

/-- With a slot due and a ticket in sight, the Rust loop drains, looks at the clock and
pops the greatest ticket. -/
theorem exec_grant (r : Pacer.SnapshotPacer) (h : Pacer.PaceLog) (hpc : r.pc = .draining)
    (hdue : r.nextAt ≤ r.clock) (hne : r.channel ++ r.heap ≠ []) :
    ∃ (as : List Pacer.Act) (t : Ticket) (rest : List Ticket),
      p.logged.Admits (r, h) as ∧ (r.channel ++ r.heap).Perm (t :: rest) ∧
      (∀ t' ∈ r.channel ++ r.heap, t' ≤ t) ∧
      p.logged.exec (r, h) as =
        (({ r with channel := [] } : Pacer.SnapshotPacer).grant p r.clock t rest,
          { h with seen := h.sent }.popped r r.clock t) := by
  have hheap : (r.channel.reverse ++ r.heap).Perm (r.channel ++ r.heap) :=
    (List.reverse_perm _).append_right _
  have hloaded : r.channel.reverse ++ r.heap ≠ [] := by
    intro hnil
    rw [hnil] at hheap
    exact hne hheap.symm.eq_nil
  cases hpop : popMax? (r.channel.reverse ++ r.heap) with
  | none => exact absurd (popMax?_eq_none.mp hpop) hloaded
  | some popped =>
      obtain ⟨t, rest⟩ := popped
      obtain ⟨hadmits, hexec⟩ := exec_recv (p := p) r h hpc
      have hlate : ¬ r.clock < r.nextAt := not_lt.mpr hdue
      let heap := r.channel.reverse ++ r.heap
      let seen : Pacer.PaceLog := { h with seen := h.sent }
      have hdrained : p.logged.next ({ r with channel := [], heap := heap }, h) .drained =
          ({ r with channel := [], heap := heap, pc := .ready }, seen) := by
        show (({ r with channel := [], heap := heap, pc := _ } : Pacer.SnapshotPacer), seen) = _
        rw [if_neg hloaded]
      have hread : p.logged.next ({ r with channel := [], heap := heap, pc := .ready }, seen)
          .readClock = ({ r with channel := [], heap := heap, pc := .granting r.clock }, seen) := by
        show (({ r with channel := [], heap := heap, pc := _ } : Pacer.SnapshotPacer), seen) = _
        rw [if_neg hlate]
      have hgrant : p.logged.next
          ({ r with channel := [], heap := heap, pc := .granting r.clock }, seen) .grant =
          (({ r with channel := [] } : Pacer.SnapshotPacer).grant p r.clock t rest,
            seen.popped r r.clock t) := by
        show (Pacer.SnapshotPacer.next p _ .grant, Pacer.PaceLog.track _ .grant _) = _
        simp only [Pacer.SnapshotPacer.next, Pacer.PaceLog.track, Pacer.Pc.grantTime, heap, hpop]
        rfl
      refine ⟨List.replicate r.channel.length .recv ++ [.drained, .readClock, .grant], t, rest,
        ?_, hheap.symm.trans (perm_of_popMax? hpop),
        fun t' ht' => le_of_popMax? hpop (hheap.mem_iff.mpr ht'), ?_⟩
      · rw [Machine.admits_append, hexec]
        refine ⟨hadmits, ⟨hpc, rfl⟩, ?_⟩
        rw [hdrained]
        refine ⟨rfl, ?_⟩
        rw [hread]
        exact ⟨rfl, trivial⟩
      · rw [Machine.exec_append, hexec]
        show p.logged.next (p.logged.next (p.logged.next _ .drained) .readClock) .grant = _
        rw [hdrained, hread, hgrant]

namespace Follows

variable {x : SnapshotPacer × PaceLog} {y : Pacer.SnapshotPacer × Pacer.PaceLog}

theorem mem_awaiting (h : Follows x y) {k : Nat} : k + 1 ∈ x.1.awaiting ↔ k ∈ y.1.waiting := by
  rw [h.awaiting, Finset.mem_image]
  constructor
  · rintro ⟨k', hk', heq⟩
    obtain rfl := Nat.succ.inj heq
    exact hk'
  · exact fun hk => ⟨k, hk, rfl⟩

theorem exists_of_awaiting (h : Follows x y) {seq : Nat} (hseq : seq ∈ x.1.awaiting) :
    ∃ k, k + 1 = seq ∧ k ∈ y.1.waiting := by
  rw [h.awaiting, Finset.mem_image] at hseq
  obtain ⟨k, hk, heq⟩ := hseq
  exact ⟨k, heq, hk⟩

theorem awaits (h : Follows x y) {k : Nat} (hk : k ∈ y.1.waiting) : y.1.Awaits k :=
  ⟨hk, fun t ht => by simp [h.drawn] at ht⟩

theorem same_pop (h : Follows x y) {e : Entry} {left : List Entry}
    (hpop : popMin? x.1.queue = some (e, left)) {t : Ticket} {rest : List Ticket}
    (hperm : (y.1.channel ++ y.1.heap).Perm (t :: rest))
    (hgreatest : ∀ t' ∈ y.1.channel ++ y.1.heap, t' ≤ t) :
    e = entry t ∧ (rest.map entry).Perm left := by
  have hqueue : ((t :: rest).map entry).Perm x.1.queue := (hperm.map entry).symm.trans h.queue
  have hleft := perm_of_popMin? hpop
  have heq : e = entry t := by
    apply le_antisymm
    · exact popMin?_le hpop (hqueue.mem_iff.mp List.mem_cons_self)
    · have hmem : e ∈ (y.1.channel ++ y.1.heap).map entry :=
        h.queue.mem_iff.mpr (hleft.mem_iff.mpr List.mem_cons_self)
      obtain ⟨t', ht', rfl⟩ := List.mem_map.mp hmem
      exact entry_le_entry.mpr (hgreatest t' ht')
  refine ⟨heq, ?_⟩
  have hcons : (entry t :: rest.map entry).Perm (e :: left) := hqueue.trans hleft
  rw [heq] at hcons
  exact hcons.cons_inv

theorem acquire (h : Follows x y) (rank : Nat) :
    ∃ as, p.logged.Admits y as ∧
      Follows ((logged p).next x (.acquire rank)) (p.logged.exec y as) := by
  obtain ⟨r, l⟩ := y
  have hdrawn : r.drawn = [] := h.drawn
  have halive : r.pc.ended = false := h.alive
  let t : Ticket := ⟨rank, r.seq⟩
  let drew : Pacer.SnapshotPacer :=
    { r with seq := r.seq + 1, drawn := [t], waiting := insert r.seq r.waiting }
  have hdraw : p.logged.next (r, l) (.draw rank) = (drew, l) := by
    show (({ r with seq := _, drawn := r.drawn ++ [t], waiting := _ } : Pacer.SnapshotPacer), l) = _
    rw [hdrawn]
    rfl
  have hsend : p.logged.next (drew, l) (.send t) =
      ({ drew with drawn := [], channel := r.channel ++ [t] },
        { l with sent := l.sent ++ [t] }) := by
    show (Pacer.SnapshotPacer.next p drew (.send t), Pacer.PaceLog.track drew (.send t) l) = _
    have hnot : ¬ drew.pc.ended = true := by simp [drew, halive]
    simp only [Pacer.SnapshotPacer.next, Pacer.PaceLog.track, if_neg hnot]
    simp [drew]
  refine ⟨[.draw rank, .send t], ⟨h.closed, ?_, trivial⟩, ?_⟩
  · rw [hdraw]
    exact List.mem_singleton_self t
  · show Follows _ (p.logged.next (p.logged.next (r, l) (.draw rank)) (.send t))
    rw [hdraw, hsend]
    have hseq : r.seq = x.1.seq := h.seq
    have hentry : entry t = toLex (rank, x.1.seq + 1) := by rw [← hseq]; rfl
    refine ⟨congrArg Nat.succ hseq, rfl, h.closed, ?_, ?_, h.results, h.nextAt, h.clock,
      h.starting, h.running, halive, h.start, ?_, h.grants⟩
    · show ((r.channel ++ [t] ++ r.heap).map entry).Perm (toLex (rank, x.1.seq + 1) :: x.1.queue)
      have hmiddle : (r.channel ++ [t] ++ r.heap).Perm (t :: (r.channel ++ r.heap)) := by
        rw [List.append_assoc]
        exact List.perm_middle
      rw [← hentry]
      exact (hmiddle.map entry).trans (h.queue.cons _)
    · show insert (x.1.seq + 1) x.1.awaiting = (insert r.seq r.waiting).image Nat.succ
      rw [Finset.image_insert, h.awaiting, hseq]
    · show (l.sent ++ [t]).map entry = x.2.queued ++ [toLex (rank, x.1.seq + 1)]
      rw [List.map_append, h.queued, ← hentry]
      rfl

theorem got (h : Follows x y) (hsane : Sane x.1) (hpc : x.1.pc = .getting)
    (hne : x.1.queue ≠ []) :
    ∃ as, p.logged.Admits y as ∧ Follows ((logged p).next x .get) (p.logged.exec y as) := by
  obtain ⟨r, l⟩ := y
  have hqueue : ((r.channel ++ r.heap).map entry).Perm x.1.queue := h.queue
  have hpython : r.pc = .draining := h.running (by simp [hpc]) (by simp [hpc])
  have hdue : r.nextAt ≤ r.clock := by
    rw [h.nextAt, h.clock]
    exact hsane.due hpc
  have hloaded : r.channel ++ r.heap ≠ [] := by
    intro hnil
    rw [hnil] at hqueue
    exact hne hqueue.symm.eq_nil
  obtain ⟨as, t, rest, hadmits, hperm, hgreatest, hexec⟩ :=
    exec_grant (p := p) r l hpython hdue hloaded
  cases hpop : popMin? x.1.queue with
  | none => exact absurd (popMin?_eq_none.mp hpop) hne
  | some popped =>
      obtain ⟨e, left⟩ := popped
      obtain ⟨rfl, hleft⟩ := h.same_pop hpop hperm hgreatest
      have hunset : (entry t).seq ∉ x.1.results := hsane.unset _ (hsane.popped hpop).1
      have hdone : x.1.Done (entry t) ↔ t.seq ∉ r.waiting := by
        unfold SnapshotPacer.Done
        rw [seq_entry, ← h.mem_awaiting]
        exact or_iff_left hunset
      have hnext : (logged p).next x .get = (x.1.got p (entry t) left,
          if x.1.Done (entry t) then x.2
          else { x.2 with grants := x.2.grants ++ [(x.1.clock, entry t)] }) := by
        show (SnapshotPacer.next p x.1 .get, PaceLog.track x.1 .get x.2) = _
        simp only [SnapshotPacer.next, PaceLog.track, hpop]
      refine ⟨as, hadmits, ?_⟩
      rw [hnext, hexec]
      unfold SnapshotPacer.got Pacer.SnapshotPacer.grant Pacer.PaceLog.popped
      have hclock : r.clock = x.1.clock := h.clock
      by_cases hwaiting : t.seq ∈ r.waiting
      · rw [if_neg (by rw [hdone]; exact not_not_intro hwaiting),
          if_neg (by rw [hdone]; exact not_not_intro hwaiting), if_pos hwaiting, if_pos hwaiting]
        refine ⟨h.seq, h.drawn, h.closed, hleft, h.awaiting, ?_, ?_, h.clock, by simp, by simp,
          rfl, h.start, h.queued, ?_⟩
        · show insert (t.seq + 1) x.1.results = (insert t.seq r.permits).image Nat.succ
          rw [Finset.image_insert, h.results]
        · show r.clock + p.interval = x.1.clock + p.interval
          rw [hclock]
        · show (l.grants ++ [(r.clock, t)]).map (Prod.map id entry) =
            x.2.grants ++ [(x.1.clock, entry t)]
          rw [List.map_append, h.grants, hclock]
          rfl
      · rw [if_pos (hdone.mpr hwaiting), if_pos (hdone.mpr hwaiting), if_neg hwaiting,
          if_neg hwaiting]
        exact ⟨h.seq, h.drawn, h.closed, hleft, h.awaiting, h.results, h.nextAt, h.clock,
          by simp, by simp, rfl, h.start, h.queued, h.grants⟩

theorem erase_awaiting (h : Follows x y) (k : Nat) :
    x.1.awaiting.erase (k + 1) = (y.1.waiting.erase k).image Nat.succ := by
  rw [h.awaiting]
  exact (Finset.image_erase Nat.succ_injective y.1.waiting k).symm

/-- Each step of the Python pacer is a run of the Rust pacer. -/
theorem next (h : Follows x y) (hsane : Sane x.1) {a : Act} (ha : x.1.enabled a) :
    ∃ as, p.logged.Admits y as ∧ Follows ((logged p).next x a) (p.logged.exec y as) := by
  cases a with
  | tick now =>
      have hlater : y.1.clock ≤ now := by
        rw [h.clock]
        exact ha
      exact ⟨[.tick now], ⟨hlater, trivial⟩, h.seq, h.drawn, h.closed, h.queue, h.awaiting,
        h.results, h.nextAt, rfl, h.starting, h.running, h.alive, h.start, h.queued, h.grants⟩
  | acquire rank => exact h.acquire rank
  | cancel seq =>
      obtain ⟨k, rfl, hk⟩ := h.exists_of_awaiting ha
      exact ⟨[.cancel k], ⟨h.awaits hk, trivial⟩, h.seq, h.drawn, h.closed, h.queue,
        h.erase_awaiting k, h.results, h.nextAt, h.clock, h.starting, h.running, h.alive,
        h.start, h.queued, h.grants⟩
  | resume seq =>
      obtain ⟨hawaiting, hset⟩ := ha
      obtain ⟨k, rfl, hk⟩ := h.exists_of_awaiting hawaiting
      have hpermit : k ∈ y.1.permits := by
        rw [h.results] at hset
        obtain ⟨k', hk', heq⟩ := Finset.mem_image.mp hset
        exact Nat.succ.inj heq ▸ hk'
      exact ⟨[.resume k], ⟨⟨h.awaits hk, Or.inl hpermit⟩, trivial⟩, h.seq, h.drawn, h.closed,
        h.queue, h.erase_awaiting k, h.results, h.nextAt, h.clock, h.starting, h.running, h.alive,
        h.start, h.queued, h.grants⟩
  | begin =>
      have hnextAt : y.1.clock + p.interval = x.1.clock + p.interval := by rw [h.clock]
      exact ⟨[.begin], ⟨h.starting ha, trivial⟩, h.seq, h.drawn, h.closed, h.queue, h.awaiting,
        h.results, hnextAt, h.clock, fun hpc => Pc.noConfusion hpc, fun _ _ => rfl, rfl, h.clock,
        h.queued, h.grants⟩
  | readClock =>
      have hpc : x.1.pc = .looping := ha
      have hrunning := h.running (by simp [hpc]) (by simp [hpc])
      refine ⟨[], trivial, h.seq, h.drawn, h.closed, h.queue, h.awaiting, h.results, h.nextAt,
        h.clock, fun hstart => ?_, fun _ _ => hrunning, h.alive, h.start, h.queued, h.grants⟩
      have hstart' : (if 0 < x.1.nextAt - x.1.clock then
          Pc.sleeping (x.1.clock + (x.1.nextAt - x.1.clock)) else .getting) = .starting := hstart
      split_ifs at hstart'
  | wake =>
      obtain ⟨wakeAt, hmem, -⟩ := ha
      have hpc := Pc.wakeTime_eq_some.mp hmem
      have hrunning := h.running (by simp [hpc]) (by simp [hpc])
      exact ⟨[], trivial, h.seq, h.drawn, h.closed, h.queue, h.awaiting, h.results, h.nextAt,
        h.clock, fun hstart => Pc.noConfusion hstart, fun _ _ => hrunning, h.alive, h.start,
        h.queued, h.grants⟩
  | get => exact h.got hsane ha.1 ha.2
  | stop =>
      exact ⟨[], trivial, h.seq, h.drawn, h.closed, h.queue, h.awaiting, h.results, h.nextAt,
        h.clock, fun hstart => Pc.noConfusion hstart, fun _ hnot => absurd rfl hnot, h.alive,
        h.start, h.queued, h.grants⟩

end Follows

theorem follows_reachable {sg : SnapshotPacer × PaceLog} (hs : (logged p).Reachable sg) :
    ∃ rg, p.logged.Reachable rg ∧ Follows sg rg := by
  refine hs.simulated (fun sg hstart => ?_) fun x y a hreach h ha =>
    h.next (sane_reachable hreach) ha
  obtain ⟨s, g⟩ := sg
  obtain ⟨hs, hg⟩ := hstart
  simp only at hs hg
  refine ⟨(Pacer.SnapshotPacer.new s.clock, Pacer.PaceLog.new), ⟨rfl, rfl⟩, ?_⟩
  rw [hs, hg]
  constructor <;> simp [SnapshotPacer.new, Pacer.SnapshotPacer.new, PaceLog.new,
    Pacer.PaceLog.new, Pacer.Pc.ended]

/-! ## What the port inherits -/

theorem Follows.times {x : SnapshotPacer × PaceLog}
    {y : Pacer.SnapshotPacer × Pacer.PaceLog} (h : Follows x y) : y.2.times = x.2.times := by
  unfold PaceLog.times Pacer.PaceLog.times
  rw [← h.grants, List.map_map]
  rfl

theorem Follows.granted {x : SnapshotPacer × PaceLog}
    {y : Pacer.SnapshotPacer × Pacer.PaceLog} (h : Follows x y) :
    y.2.granted.map entry = x.2.granted := by
  unfold PaceLog.granted Pacer.PaceLog.granted
  rw [← h.grants, List.map_map, List.map_map]
  rfl

theorem got_of_granted {a : Act} {now : Rat} {e : Entry}
    (h : (g.track s a).grants = g.grants ++ [(now, e)]) :
    ¬ s.Done e ∧ ∃ rest, popMin? s.queue = some (e, rest) := by
  have hsame : g.grants ≠ g.grants ++ [(now, e)] := by simp
  cases a with
  | get =>
      simp only [PaceLog.track] at h
      split at h
      · next e' rest hpop =>
          split_ifs at h with hdone
          · exact absurd h hsame
          · obtain ⟨-, rfl⟩ : s.clock = now ∧ e' = e := by simpa using h
            exact ⟨hdone, rest, hpop⟩
      · exact absurd h hsame
  | _ => exact absurd h hsame

/-- Every run of the Python pacer is a run of the Rust pacer with the same requests, grants,
permits and clock readings. So no grant comes before one interval after the start, no two
are closer than the interval, and no window holds more than its length allows; no request
is granted twice, and the futures with a result are those of the granted requests; a request
whose task still waits is queued or granted; and the next grant goes to the least of all
that are queued. -/
theorem python_pacer_refines (p : Pace) {sg : SnapshotPacer × PaceLog}
    (hs : (logged p).Reachable sg) :
    (∃ rg, p.logged.Reachable rg ∧ rg.2.start = sg.2.start ∧
      rg.2.sent.map entry = sg.2.queued ∧
      rg.2.grants.map (Prod.map id entry) = sg.2.grants ∧
      rg.1.permits.image Nat.succ = sg.1.results) ∧
    (∀ t ∈ sg.2.times, sg.2.start + p.interval ≤ t) ∧
    (sg.2.times.Pairwise fun t t' => t < t' ∧ t + p.interval ≤ t') ∧
    (∀ lower w : Rat, 0 ≤ w →
      ((sg.2.times.filter fun t => decide (lower ≤ t ∧ t ≤ lower + w)).length : Rat) ≤
        w / p.interval + 1) ∧
    (sg.2.granted.map Entry.seq).Nodup ∧
    sg.1.results = (sg.2.granted.map Entry.seq).toFinset ∧
    (∀ e ∈ sg.2.queued, e.seq ∈ sg.1.awaiting → e ∈ sg.1.queue ∨ e ∈ sg.2.granted) ∧
    ∀ a now e, (logged p).enabled sg a →
      ((logged p).next sg a).2.grants = sg.2.grants ++ [(now, e)] →
      e ∈ sg.1.queue ∧ e.seq ∈ sg.1.awaiting ∧ ∀ e' ∈ sg.1.queue, e ≤ e' := by
  obtain ⟨rg, hr, h⟩ := follows_reachable hs
  obtain ⟨hnumbered, hplaced⟩ := order_reachable hr
  obtain ⟨hfirst, hspaced⟩ := List.pairwise_cons.mp (onPace_reachable hr).spaced
  have htimes : Spaced p.interval rg.2.times := hspaced
  rw [h.times] at hfirst hspaced htimes
  rw [h.start] at hfirst
  have hnumbers : sg.2.granted.map Entry.seq = (rg.2.granted.map Ticket.seq).map Nat.succ := by
    rw [← h.granted, List.map_map, List.map_map]
    rfl
  refine ⟨⟨rg, hr, h.start, h.queued, h.grants, h.results.symm⟩, hfirst,
    (htimes.strictly_ascending p.interval_pos).and hspaced,
    fun lower w hw => htimes.window p.interval_pos lower hw, ?_, ?_, ?_, ?_⟩
  · rw [hnumbers]
    exact hnumbered.nodup_granted.map Nat.succ_injective
  · rw [hnumbers, h.results, permits_reachable hr]
    ext seq
    simp
  · intro e he hawaiting
    rw [← h.queued] at he
    obtain ⟨t, ht, rfl⟩ := List.mem_map.mp he
    rw [seq_entry, h.mem_awaiting] at hawaiting
    have hmem : ∀ t' ∈ rg.1.channel ++ rg.1.heap, entry t' ∈ sg.1.queue := fun t' ht' =>
      h.queue.mem_iff.mp (List.mem_map_of_mem ht')
    rcases hplaced.sent t ht hawaiting with hchannel | hheap | hgranted
    · exact Or.inl (hmem t (List.mem_append_left _ hchannel))
    · exact Or.inl (hmem t (List.mem_append_right _ hheap))
    · rw [← h.granted]
      exact Or.inr (List.mem_map_of_mem hgranted)
  · intro a now e _ hgrant
    obtain ⟨hnot, rest, hpop⟩ := got_of_granted hgrant
    refine ⟨(perm_of_popMin? hpop).mem_iff.mpr List.mem_cons_self, ?_,
      fun e' he' => popMin?_le hpop he'⟩
    by_contra habsent
    exact hnot (Or.inl habsent)

/-- Rank 0 goes away during the sleep, so rank 3 gets the slot, though rank 7 came first. -/
def cancelledRun : List Act :=
  [.begin, .acquire 7, .readClock, .acquire 0, .acquire 3, .cancel 2, .tick 5, .wake, .get,
    .readClock, .get]

theorem python_pacer_refines_cancelled :
    let sg := (logged everySecond).exec (SnapshotPacer.new 0, PaceLog.new) cancelledRun
    sg.2.grants = [(5, toLex (3, 3))] ∧
      ∃ rg, everySecond.logged.Reachable rg ∧
        rg.2.grants.map (Prod.map id entry) = [(5, toLex (3, 3))] := by
  intro sg
  have hs : (logged everySecond).Reachable sg :=
    (Machine.Reachable.start (m := logged everySecond)
      (s := (SnapshotPacer.new 0, PaceLog.new)) ⟨rfl, rfl⟩).exec cancelledRun (by decide +kernel)
  have hgrants : sg.2.grants = [(5, toLex (3, 3))] := by decide +kernel
  obtain ⟨⟨rg, hr, -, -, hsame, -⟩, -⟩ := python_pacer_refines everySecond hs
  exact ⟨hgrants, rg, hr, hsame.trans hgrants⟩

end FeedHandler.Python.Pacing
