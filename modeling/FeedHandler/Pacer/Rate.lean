import FeedHandler.Lib.Spaced
import FeedHandler.Pacer.Basic
/-!
# The pacer keeps the rate

The slots that were used, with the start of the loop before them, are spaced by the
interval, and `next_at` is one interval after the last. A popped ticket that nobody
waits for changes neither, and finds the next slot already due.
-/

namespace FeedHandler.Pacer

open Lib

variable {p : Pace} {s s' : SnapshotPacer} {g g' : PaceLog}

def PaceLog.marks (g : PaceLog) : List Rat := g.start :: g.times

structure OnPace (p : Pace) (s : SnapshotPacer) (g : PaceLog) : Prop where
  unused : s.pc = .starting → g.grants = [] ∧ g.discarded = []
  spaced : Spaced p.interval g.marks
  nextAt : s.pc ≠ .starting → ∀ t ∈ g.marks.getLast?, s.nextAt = t + p.interval
  due : ∀ now, s.pc = .granting now → s.nextAt ≤ now ∧ now ≤ s.clock
  asleep : ∀ wakeAt, s.pc = .sleeping wakeAt → wakeAt = s.nextAt
  /-- After a discarded ticket the next slot is due. -/
  overdue : g.discarded ≠ [] → s.nextAt ≤ s.clock ∧ ∀ wakeAt, s.pc ≠ .sleeping wakeAt

namespace OnPace

theorem start (clock : Rat) : OnPace p (SnapshotPacer.new clock) PaceLog.new where
  unused _ := ⟨rfl, rfl⟩
  spaced := List.pairwise_singleton _ _
  nextAt h := absurd rfl h
  due now h := by simp [SnapshotPacer.new] at h
  asleep wakeAt h := by simp [SnapshotPacer.new] at h
  overdue h := absurd rfl h

theorem of_requester (h : OnPace p s g) (hpc : s'.pc = s.pc) (hnextAt : s'.nextAt = s.nextAt)
    (hclock : s.clock ≤ s'.clock) (hgrants : g'.grants = g.grants) (hstart : g'.start = g.start)
    (hdiscarded : g'.discarded = g.discarded) : OnPace p s' g' := by
  have hmarks : g'.marks = g.marks := by
    rw [PaceLog.marks, PaceLog.marks, PaceLog.times, PaceLog.times, hgrants, hstart]
  constructor
  · rw [hpc, hgrants, hdiscarded]
    exact h.unused
  · rw [hmarks]
    exact h.spaced
  · rw [hpc, hmarks, hnextAt]
    exact h.nextAt
  · intro now hnow
    obtain ⟨hdue, hread⟩ := h.due now (hpc ▸ hnow)
    rw [hnextAt]
    exact ⟨hdue, hread.trans hclock⟩
  · intro wakeAt hwake
    rw [hnextAt]
    exact h.asleep wakeAt (hpc ▸ hwake)
  · intro hne
    obtain ⟨hdue, hawake⟩ := h.overdue (hdiscarded ▸ hne)
    rw [hnextAt, hpc]
    exact ⟨hdue.trans hclock, hawake⟩

theorem of_move (h : OnPace p s g) (hrunning : s.pc ≠ .starting) (hpc : s'.pc ≠ .starting)
    (hnextAt : s'.nextAt = s.nextAt) (hclock : s'.clock = s.clock)
    (hgrants : g'.grants = g.grants) (hstart : g'.start = g.start)
    (hdue : ∀ now, s'.pc = .granting now → s.nextAt ≤ now ∧ now ≤ s.clock)
    (hasleep : ∀ wakeAt, s'.pc = .sleeping wakeAt → wakeAt = s.nextAt ∧ s.clock < s.nextAt)
    (hdiscarded : g'.discarded = g.discarded ∨ s.nextAt ≤ s.clock) : OnPace p s' g' := by
  have hmarks : g'.marks = g.marks := by
    rw [PaceLog.marks, PaceLog.marks, PaceLog.times, PaceLog.times, hgrants, hstart]
  constructor
  · exact fun heq => absurd heq hpc
  · rw [hmarks]
    exact h.spaced
  · intro _
    rw [hmarks, hnextAt]
    exact h.nextAt hrunning
  · rw [hnextAt, hclock]
    exact hdue
  · intro wakeAt hwake
    rw [hnextAt]
    exact (hasleep wakeAt hwake).1
  · intro hne
    have hpast : s.nextAt ≤ s.clock := by
      rcases hdiscarded with heq | hpast
      · exact (h.overdue (heq ▸ hne)).1
      · exact hpast
    rw [hnextAt, hclock]
    refine ⟨hpast, ?_⟩
    intro wakeAt hwake
    exact absurd (hasleep wakeAt hwake).2 (not_lt.mpr hpast)

theorem of_grant (h : OnPace p s g) {now : Rat} (hpc : s.pc = .granting now) {t : Ticket}
    {rest : List Ticket} : OnPace p (s.grant p now t rest) (g.popped s now t) := by
  have hrunning : s.pc ≠ .starting := by
    rw [hpc]
    exact Pc.noConfusion
  obtain ⟨hdue, hread⟩ := h.due now hpc
  unfold SnapshotPacer.grant PaceLog.popped
  split_ifs with hwaiting
  · have hmarks : PaceLog.marks { g with grants := g.grants ++ [(now, t)], discarded := [] } =
        g.marks ++ [now] := by
      simp [PaceLog.marks, PaceLog.times]
    constructor
    · exact fun heq => absurd heq (by simp)
    · rw [hmarks]
      apply h.spaced.concat p.interval_pos
      intro last hlast
      rw [← h.nextAt hrunning last hlast]
      exact hdue
    · intro _ last hlast
      rw [hmarks, List.getLast?_append_of_ne_nil _ (by simp)] at hlast
      simp only [List.getLast?_singleton, Option.mem_def, Option.some.injEq] at hlast
      rw [← hlast]
    · intro now' hnow'
      simp at hnow'
    · intro wakeAt hwake
      simp at hwake
    · exact fun hne => absurd rfl hne
  · refine h.of_move hrunning (by simp) rfl rfl rfl rfl ?_ ?_ ?_
    · intro now' hnow'
      simp at hnow'
    · intro wakeAt hwake
      simp at hwake
    · exact Or.inr (hdue.trans hread)

end OnPace

theorem onPace_next (h : OnPace p s g) {a : Act} (ha : s.enabled a) :
    OnPace p (s.next p a) (g.track s a) := by
  cases a with
  | tick now => exact h.of_requester rfl rfl ha rfl rfl rfl
  | draw rank => exact h.of_requester rfl rfl le_rfl rfl rfl rfl
  | cancel seq => exact h.of_requester rfl rfl le_rfl rfl rfl rfl
  | resume seq => exact h.of_requester rfl rfl le_rfl rfl rfl rfl
  | close => exact h.of_requester rfl rfl le_rfl rfl rfl rfl
  | send t =>
      simp only [SnapshotPacer.next, PaceLog.track]
      split_ifs <;> exact h.of_requester rfl rfl le_rfl rfl rfl rfl
  | begin =>
      obtain ⟨hgrants, hdiscarded⟩ := h.unused ha
      have hmarks : (g.track s .begin).marks = [s.clock] := by
        simp [PaceLog.track, PaceLog.marks, PaceLog.times, hgrants]
      constructor
      · exact fun heq => absurd heq (by simp [SnapshotPacer.next])
      · rw [hmarks]
        exact List.pairwise_singleton _ _
      · intro _ t ht
        rw [hmarks, List.getLast?_singleton, Option.mem_some_iff] at ht
        rw [← ht]
        rfl
      · exact fun now hnow => absurd hnow (by simp [SnapshotPacer.next])
      · exact fun wakeAt hwake => absurd hwake (by simp [SnapshotPacer.next])
      · exact fun hne => absurd hdiscarded hne
  | recv =>
      obtain ⟨hpc, hchannel⟩ := ha
      obtain ⟨t, rest, heq⟩ := List.exists_cons_of_ne_nil hchannel
      simp only [SnapshotPacer.next, heq]
      refine h.of_move (by rcases hpc with hpc | hpc <;> simp [hpc]) (by simp) rfl rfl rfl rfl
        ?_ ?_ (Or.inl rfl) <;> simp
  | drained =>
      refine h.of_move (by simp [ha.1]) ?_ rfl rfl rfl rfl ?_ ?_ (Or.inl rfl) <;>
        by_cases hheap : s.heap = [] <;> simp [SnapshotPacer.next, hheap]
  | finish =>
      refine h.of_move (by simp [ha.1]) ?_ rfl rfl rfl rfl ?_ ?_ (Or.inl rfl) <;>
        simp [SnapshotPacer.next]
  | wake =>
      obtain ⟨wakeAt, hwake, -⟩ := ha
      refine h.of_move (by simp [Pc.wakeTime_eq_some.mp hwake]) ?_ rfl rfl rfl rfl ?_ ?_
        (Or.inl rfl) <;> simp [SnapshotPacer.next]
  | readClock =>
      have hready : s.pc = .ready := ha
      refine h.of_move (by simp [hready]) ?_ rfl rfl rfl rfl ?_ ?_ (Or.inl rfl)
      · by_cases hearly : s.clock < s.nextAt <;> simp [SnapshotPacer.next, hearly]
      · intro now hnow
        by_cases hearly : s.clock < s.nextAt
        · simp [SnapshotPacer.next, hearly] at hnow
        · simp only [SnapshotPacer.next, if_neg hearly, Pc.granting.injEq] at hnow
          rw [← hnow]
          exact ⟨not_lt.mp hearly, le_rfl⟩
      · intro wakeAt hwake
        by_cases hearly : s.clock < s.nextAt
        · simp only [SnapshotPacer.next, if_pos hearly, Pc.sleeping.injEq] at hwake
          rw [← hwake]
          exact ⟨by ring, hearly⟩
        · simp [SnapshotPacer.next, hearly] at hwake
  | grant =>
      obtain ⟨now, hnow⟩ := Option.isSome_iff_exists.mp ha
      have hpc := Pc.grantTime_eq_some.mp hnow
      simp only [SnapshotPacer.next, PaceLog.track, hnow]
      cases popMax? s.heap with
      | some popped => exact h.of_grant hpc
      | none =>
          refine h.of_move (by simp [hpc]) ?_ rfl rfl rfl rfl ?_ ?_ (Or.inl rfl) <;> simp

theorem onPace_reachable {sg : SnapshotPacer × PaceLog} (hs : p.logged.Reachable sg) :
    OnPace p sg.1 sg.2 := by
  refine hs.invariant (I := fun sg => OnPace p sg.1 sg.2) ?_ ?_
  · rintro ⟨s, g⟩ ⟨hstart, hg⟩
    simp only at hstart hg
    rw [hstart, hg]
    exact OnPace.start s.clock
  · rintro ⟨s, g⟩ a h ha
    exact onPace_next h ha

/-- The slots that reached a live requester: none before one interval after the
start, no two closer than the interval, in no window more than its length allows, and
each let through the one requester of its ticket and nobody else.
Nothing but such a slot moves the next one, which a discarded ticket therefore does
not delay: until it is granted the loop does not sleep again. -/
theorem rate_never_exceeded (p : Pace) {sg : SnapshotPacer × PaceLog}
    (hs : p.logged.Reachable sg) :
    (∀ t ∈ sg.2.times, sg.2.start + p.interval ≤ t) ∧
    (sg.2.times.Pairwise fun t t' => t < t' ∧ t + p.interval ≤ t') ∧
    (∀ lower w : Rat, 0 ≤ w →
      ((sg.2.times.filter fun t => decide (lower ≤ t ∧ t ≤ lower + w)).length : Rat) ≤
        w / p.interval + 1) ∧
    sg.1.permits = (sg.2.granted.map Ticket.seq).toFinset ∧
    (sg.1.pc ≠ .starting →
      sg.1.nextAt = (sg.2.times.getLast?).getD sg.2.start + p.interval) ∧
    (sg.2.discarded ≠ [] → sg.1.nextAt ≤ sg.1.clock ∧ ∀ wakeAt, sg.1.pc ≠ .sleeping wakeAt) := by
  have h := onPace_reachable hs
  obtain ⟨hfirst, hspaced⟩ := List.pairwise_cons.mp h.spaced
  have htimes : Spaced p.interval sg.2.times := hspaced
  refine ⟨hfirst, ?_, fun lower w hw => htimes.window p.interval_pos lower hw,
    permits_reachable hs, ?_, h.overdue⟩
  · exact (htimes.strictly_ascending p.interval_pos).and hspaced
  · intro hrunning
    apply h.nextAt hrunning
    rw [PaceLog.marks, List.getLast?_cons]
    rfl

/-- The late first slot banks none: the second is a second after it. -/
def twoSlots : List Act :=
  [.grant, .resume 2, .drained, .readClock, .tick 6, .wake, .drained, .readClock, .grant]

theorem rate_never_exceeded_cancelled :
    (everySecond.logged.exec cancelledState twoSlots).2.times = [5, 6] ∧
      (everySecond.logged.exec cancelledState twoSlots).2.times.Pairwise
        fun t t' => t < t' ∧ t + everySecond.interval ≤ t' :=
  ⟨by decide +kernel, (rate_never_exceeded everySecond
    (cancelledState_reachable.exec twoSlots (by decide +kernel))).2.1⟩

end FeedHandler.Pacer
