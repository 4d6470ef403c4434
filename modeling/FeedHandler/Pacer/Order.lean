import FeedHandler.Pacer.Basic
import Mathlib.Data.List.Perm.Subperm
/-!
# The pacer serves by rank and loses nobody

Every ticket is in one place: numbered, in the channel, in the heap or granted, and
a step of the loop only moves it on. A ticket that leaves otherwise belongs to a
requester that is gone. Once a drain of the channel is over, everything sent before
is in the heap, so the ticket that is popped next is the least of them all.
-/

namespace FeedHandler.Pacer

open Lib

variable {p : Pace} {s s' : SnapshotPacer} {g g' : PaceLog}

/-! ## Where the tickets are -/

def inHand (s : SnapshotPacer) (g : PaceLog) : List Ticket :=
  s.drawn ++ s.channel ++ s.heap ++ g.granted

theorem mem_inHand {t : Ticket} :
    t ∈ inHand s g ↔ t ∈ s.drawn ∨ t ∈ s.channel ∨ t ∈ s.heap ∨ t ∈ g.granted := by
  simp [inHand]

theorem count_inHand (t : Ticket) :
    (inHand s g).count t =
      s.drawn.count t + s.channel.count t + s.heap.count t + g.granted.count t := by
  simp only [inHand, List.count_append]

theorem inHand_subperm (h : ∀ t, s'.drawn.count t + s'.channel.count t + s'.heap.count t +
      g'.granted.count t ≤
    s.drawn.count t + s.channel.count t + s.heap.count t + g.granted.count t) :
    (inHand s' g').Subperm (inHand s g) := by
  apply List.subperm_ext_iff.mpr
  intro t _
  rw [count_inHand, count_inHand]
  exact h t

/-- The tickets in hand have numbers of their own, all of them drawn. -/
structure Numbered (s : SnapshotPacer) (g : PaceLog) : Prop where
  distinct : ((inHand s g).map Ticket.seq).Nodup
  inHand_lt : ∀ t ∈ inHand s g, t.seq < s.seq
  sent_lt : ∀ t ∈ g.sent, t.seq < s.seq

namespace Numbered

theorem of_subperm (h : Numbered s g) (hsub : (inHand s' g').Subperm (inHand s g))
    (hseq : s'.seq = s.seq) (hsent : ∀ t ∈ g'.sent, t ∈ g.sent ∨ t ∈ inHand s g) :
    Numbered s' g' := by
  constructor
  · obtain ⟨l, hperm, hsublist⟩ := hsub
    have hnodup : (l.map Ticket.seq).Nodup := h.distinct.sublist (hsublist.map _)
    exact (hperm.map _).nodup_iff.mp hnodup
  · intro t ht
    rw [hseq]
    exact h.inHand_lt t (hsub.subset ht)
  · intro t ht
    rw [hseq]
    rcases hsent t ht with hsent | hhand
    · exact h.sent_lt t hsent
    · exact h.inHand_lt t hhand

theorem draw (h : Numbered s g) (rank : Nat) :
    Numbered (s.next p (.draw rank)) (g.track s (.draw rank)) := by
  have hperm : (inHand (s.next p (.draw rank)) g).Perm (⟨rank, s.seq⟩ :: inHand s g) := by
    apply List.perm_iff_count.mpr
    intro t
    simp only [count_inHand, List.count_cons, SnapshotPacer.next, List.count_append,
      List.count_nil]
    omega
  constructor
  · have hnew : s.seq ∉ (inHand s g).map Ticket.seq := by
      intro hmem
      obtain ⟨t, ht, heq⟩ := List.mem_map.mp hmem
      exact absurd (h.inHand_lt t ht) (by omega)
    apply (hperm.map Ticket.seq).nodup_iff.mpr
    rw [List.map_cons]
    exact List.nodup_cons.mpr ⟨hnew, h.distinct⟩
  · intro t ht
    show t.seq < s.seq + 1
    rcases List.mem_cons.mp (hperm.mem_iff.mp ht) with rfl | ht
    · exact Nat.lt_succ_self _
    · exact Nat.lt_succ_of_lt (h.inHand_lt t ht)
  · intro t ht
    exact Nat.lt_succ_of_lt (h.sent_lt t ht)

theorem nodup_granted (h : Numbered s g) : (g.granted.map Ticket.seq).Nodup := by
  have hsuffix : (g.granted.map Ticket.seq).Sublist ((inHand s g).map Ticket.seq) :=
    (List.sublist_append_right _ _).map _
  exact h.distinct.sublist hsuffix

end Numbered

theorem count_erase_of_mem {t : Ticket} {l : List Ticket} (h : t ∈ l) (t' : Ticket) :
    (l.erase t).count t' + [t].count t' = l.count t' := by
  have hperm := (List.perm_cons_erase h).count_eq t'
  rw [hperm, List.count_cons, List.count_cons, List.count_nil]
  omega

theorem numbered_next (h : Numbered s g) {a : Act} (ha : s.enabled a) :
    Numbered (s.next p a) (g.track s a) := by
  cases a with
  | draw rank => exact h.draw rank
  | send t =>
      have herase := count_erase_of_mem (show t ∈ s.drawn from ha)
      by_cases hended : s.pc.ended = true
      · refine h.of_subperm (inHand_subperm fun t' => ?_) ?_ ?_
        · simp only [SnapshotPacer.next, PaceLog.track, if_pos hended]
          have := herase t'
          omega
        · simp [SnapshotPacer.next, hended]
        · simp only [PaceLog.track, if_pos hended]
          exact fun t' => Or.inl
      · refine h.of_subperm (inHand_subperm fun t' => ?_) ?_ ?_
        · simp only [SnapshotPacer.next, PaceLog.track, if_neg hended, List.count_append,
            PaceLog.granted]
          have := herase t'
          omega
        · simp [SnapshotPacer.next, hended]
        · simp only [PaceLog.track, if_neg hended]
          intro t' ht'
          rcases List.mem_append.mp ht' with ht' | ht'
          · exact Or.inl ht'
          · rw [List.mem_singleton.mp ht']
            exact Or.inr (mem_inHand.mpr (Or.inl ha))
  | recv =>
      obtain ⟨t, rest, heq⟩ := List.exists_cons_of_ne_nil ha.2
      refine h.of_subperm (inHand_subperm fun t' => ?_) ?_ fun t' => Or.inl
      · simp only [SnapshotPacer.next, PaceLog.track, heq, List.count_cons]
        omega
      · simp [SnapshotPacer.next, heq]
  | grant =>
      obtain ⟨now, hnow⟩ := Option.isSome_iff_exists.mp ha
      simp only [SnapshotPacer.next, PaceLog.track, hnow]
      cases hpop : popMax? s.heap with
      | none => exact h.of_subperm (List.Subperm.refl _) rfl fun t' => Or.inl
      | some popped =>
          obtain ⟨t, rest⟩ := popped
          have hcount := fun t' => (perm_of_popMax? hpop).count_eq t'
          simp only [SnapshotPacer.grant, PaceLog.popped]
          split_ifs with hwaiting
          · refine h.of_subperm (inHand_subperm fun t' => ?_) rfl fun t' => Or.inl
            simp only [PaceLog.granted, List.map_append, List.count_append, List.map_cons,
              List.map_nil, hcount t', List.count_cons, List.count_nil]
            omega
          · refine h.of_subperm (inHand_subperm fun t' => ?_) rfl fun t' => Or.inl
            simp only [PaceLog.granted, hcount t', List.count_cons]
            omega
  | _ => exact h.of_subperm (List.Subperm.refl _) rfl fun t' => Or.inl

/-! ## Nobody is lost -/

/-- A ticket whose requester still waits is on its way, and once seen it is in the
heap until it is granted. -/
structure Placed (s : SnapshotPacer) (g : PaceLog) : Prop where
  sent : ∀ t ∈ g.sent, t.seq ∈ s.waiting → t ∈ s.channel ∨ t ∈ s.heap ∨ t ∈ g.granted
  seen : ∀ t ∈ g.seen, t.seq ∈ s.waiting → t ∈ s.heap ∨ t ∈ g.granted
  arrived : ∀ t, t ∈ s.channel ∨ t ∈ s.heap ∨ t ∈ g.seen → t ∈ g.sent
  /-- The loop looks at the clock only with a drained channel and a ticket to serve. -/
  loaded : s.pc = .ready ∨ (∃ now, s.pc = .granting now) →
    s.heap ≠ [] ∧ ∀ t ∈ s.heap, t ∈ g.seen
  alive : s.pc ≠ .panicked

namespace Placed

theorem start (clock : Rat) : Placed (SnapshotPacer.new clock) PaceLog.new := by
  constructor <;> simp [SnapshotPacer.new, PaceLog.new]

theorem of_same (h : Placed s g) (hchannel : s'.channel = s.channel) (hheap : s'.heap = s.heap)
    (hwaiting : ∀ t ∈ g.sent, t.seq ∈ s'.waiting → t.seq ∈ s.waiting)
    (hpc : s'.pc ≠ .panicked ∧ ((s'.pc = .ready ∨ ∃ now, s'.pc = .granting now) →
      s.pc = .ready ∨ ∃ now, s.pc = .granting now)) : Placed s' g := by
  constructor
  · intro t ht hwait
    rw [hchannel, hheap]
    exact h.sent t ht (hwaiting t ht hwait)
  · intro t ht hwait
    rw [hheap]
    exact h.seen t ht (hwaiting t (h.arrived t (Or.inr (Or.inr ht))) hwait)
  · rw [hchannel, hheap]
    exact h.arrived
  · rw [hheap]
    exact fun hready => h.loaded (hpc.2 hready)
  · exact hpc.1

theorem recv (h : Placed s g) {t : Ticket} {rest : List Ticket} (hchannel : s.channel = t :: rest) :
    Placed { s with channel := rest, heap := t :: s.heap, pc := .draining } g := by
  constructor
  · intro t' ht' hwait
    have := h.sent t' ht' hwait
    rw [hchannel] at this
    simp only [List.mem_cons] at this ⊢
    tauto
  · intro t' ht' hwait
    rcases h.seen t' ht' hwait with hheap | hgranted
    · exact Or.inl (List.mem_cons_of_mem _ hheap)
    · exact Or.inr hgranted
  · intro t' ht'
    apply h.arrived t'
    rw [hchannel]
    simp only [List.mem_cons] at ht' ⊢
    tauto
  · simp
  · simp

theorem drained (h : Placed s g) (hchannel : s.channel = []) :
    Placed { s with pc := if s.heap = [] then .idle else .ready } { g with seen := g.sent } := by
  have hheap : ∀ t ∈ g.sent, t.seq ∈ s.waiting → t ∈ s.heap ∨ t ∈ g.granted := by
    intro t ht hwait
    rcases h.sent t ht hwait with hmem | hplace
    · rw [hchannel] at hmem
      simp at hmem
    · exact hplace
  constructor
  · exact fun t ht hwait => Or.inr (hheap t ht hwait)
  · exact hheap
  · intro t ht
    rcases ht with ht | ht | ht
    · exact h.arrived t (Or.inl ht)
    · exact h.arrived t (Or.inr (Or.inl ht))
    · exact ht
  · intro hready
    have hne : s.heap ≠ [] := by
      intro hnil
      simp [hnil] at hready
    exact ⟨hne, fun t ht => h.arrived t (Or.inr (Or.inl ht))⟩
  · by_cases hnil : s.heap = [] <;> simp [hnil]

theorem grant (h : Placed s g) {t : Ticket} {rest : List Ticket} {now : Rat}
    (hpop : popMax? s.heap = some (t, rest)) :
    Placed (s.grant p now t rest) (g.popped s now t) := by
  have hheap : ∀ t', t' ∈ s.heap ↔ t' = t ∨ t' ∈ rest := by
    intro t'
    rw [(perm_of_popMax? hpop).mem_iff, List.mem_cons]
  unfold SnapshotPacer.grant PaceLog.popped
  split_ifs with hwaiting
  · constructor
    · intro t' ht' hwait
      have := h.sent t' ht' hwait
      rw [hheap] at this
      simp only [PaceLog.granted, List.map_append, List.mem_append, List.map_cons, List.map_nil,
        List.mem_singleton] at this ⊢
      tauto
    · intro t' ht' hwait
      have := h.seen t' ht' hwait
      rw [hheap] at this
      simp only [PaceLog.granted, List.map_append, List.mem_append, List.map_cons, List.map_nil,
        List.mem_singleton] at this ⊢
      tauto
    · intro t' ht'
      apply h.arrived t'
      rw [hheap]
      tauto
    · simp
    · simp
  · have hother : ∀ t' : Ticket, t'.seq ∈ s.waiting → t' ≠ t := by
      rintro t' hwait rfl
      exact hwaiting hwait
    constructor
    · intro t' ht' hwait
      have := h.sent t' ht' hwait
      rw [hheap] at this
      have hne := hother t' hwait
      tauto
    · intro t' ht' hwait
      have := h.seen t' ht' hwait
      rw [hheap] at this
      have hne := hother t' hwait
      tauto
    · intro t' ht'
      apply h.arrived t'
      rw [hheap]
      tauto
    · simp
    · simp

end Placed

theorem placed_next (h : Placed s g) (hnumbered : Numbered s g) {a : Act} (ha : s.enabled a) :
    Placed (s.next p a) (g.track s a) := by
  have hstays : ∀ {pc : Pc}, pc = s.pc → pc ≠ .panicked ∧
      ((pc = .ready ∨ ∃ now, pc = .granting now) →
        s.pc = .ready ∨ ∃ now, s.pc = .granting now) := by
    rintro pc rfl
    exact ⟨h.alive, id⟩
  cases a with
  | tick now => exact h.of_same rfl rfl (fun _ _ => id) (hstays rfl)
  | close => exact h.of_same rfl rfl (fun _ _ => id) (hstays rfl)
  | cancel seq => exact h.of_same rfl rfl (fun _ _ => Finset.mem_of_mem_erase) (hstays rfl)
  | resume seq => exact h.of_same rfl rfl (fun _ _ => Finset.mem_of_mem_erase) (hstays rfl)
  | draw rank =>
      refine h.of_same rfl rfl (fun t ht hwait => ?_) (hstays rfl)
      have hold := hnumbered.sent_lt t ht
      rcases Finset.mem_insert.mp hwait with heq | hwait
      · omega
      · exact hwait
  | begin =>
      have hbegun : Placed (s.next p .begin) g :=
        h.of_same rfl rfl (fun _ _ => id) (by simp [SnapshotPacer.next])
      exact ⟨hbegun.sent, hbegun.seen, hbegun.arrived, hbegun.loaded, hbegun.alive⟩
  | finish => exact h.of_same rfl rfl (fun _ _ => id) (by simp [SnapshotPacer.next])
  | wake => exact h.of_same rfl rfl (fun _ _ => id) (by simp [SnapshotPacer.next])
  | readClock =>
      have hready : s.pc = .ready := ha
      refine h.of_same rfl rfl (fun _ _ => id) ⟨?_, fun _ => Or.inl hready⟩
      by_cases hearly : s.clock < s.nextAt <;> simp [SnapshotPacer.next, hearly]
  | send t =>
      by_cases hended : s.pc.ended = true
      · simp only [SnapshotPacer.next, PaceLog.track, if_pos hended]
        exact h.of_same rfl rfl (fun _ _ => Finset.mem_of_mem_erase) (hstays rfl)
      · simp only [SnapshotPacer.next, PaceLog.track, if_neg hended]
        constructor
        · intro t' ht' hwait
          have := h.sent t'
          simp only [List.mem_append, List.mem_singleton] at ht' ⊢
          tauto
        · exact h.seen
        · intro t' ht'
          have := h.arrived t'
          simp only [List.mem_append, List.mem_singleton] at ht' ⊢
          tauto
        · exact h.loaded
        · exact h.alive
  | recv =>
      obtain ⟨t, rest, hchannel⟩ := List.exists_cons_of_ne_nil ha.2
      simp only [SnapshotPacer.next, hchannel]
      exact h.recv hchannel
  | drained => exact h.drained ha.2
  | grant =>
      obtain ⟨now, hnow⟩ := Option.isSome_iff_exists.mp ha
      have hloaded := h.loaded (Or.inr ⟨now, Pc.grantTime_eq_some.mp hnow⟩)
      cases hpop : popMax? s.heap with
      | none => exact absurd (popMax?_eq_none.mp hpop) hloaded.1
      | some popped =>
          simp only [SnapshotPacer.next, PaceLog.track, hnow, hpop]
          exact h.grant hpop

theorem order_reachable {sg : SnapshotPacer × PaceLog} (hs : p.logged.Reachable sg) :
    Numbered sg.1 sg.2 ∧ Placed sg.1 sg.2 := by
  refine hs.invariant (I := fun sg => Numbered sg.1 sg.2 ∧ Placed sg.1 sg.2) ?_ ?_
  · rintro ⟨s, g⟩ ⟨hstart, hg⟩
    simp only at hstart hg
    rw [hstart, hg]
    refine ⟨?_, Placed.start s.clock⟩
    constructor <;> simp [inHand, SnapshotPacer.new, PaceLog.new, PaceLog.granted]
  · rintro ⟨s, g⟩ a ⟨hnumbered, hplaced⟩ ha
    exact ⟨numbered_next hnumbered ha, placed_next hplaced hnumbered ha⟩

/-! ## The least ticket is served -/

theorem popped_of_granted {a : Act} {now : Rat} {t : Ticket}
    (h : (g.track s a).grants = g.grants ++ [(now, t)]) :
    s.pc = .granting now ∧ t.seq ∈ s.waiting ∧ ∃ rest, popMax? s.heap = some (t, rest) := by
  have hsame : g.grants ≠ g.grants ++ [(now, t)] := by simp
  cases a with
  | grant =>
      simp only [PaceLog.track] at h
      split at h
      · next now' t' rest hnow hpop =>
          unfold PaceLog.popped at h
          split_ifs at h with hwaiting
          · obtain ⟨rfl, rfl⟩ : now' = now ∧ t' = t := by simpa using h
            exact ⟨Pc.grantTime_eq_some.mp hnow, hwaiting, rest, hpop⟩
          · exact absurd h hsame
      · exact absurd h hsame
  | send t' =>
      simp only [PaceLog.track] at h
      split_ifs at h <;> exact absurd h hsame
  | _ => exact absurd h hsame

/-- In every reachable state: a grant that follows goes to a ticket of the last drain
whose requester waits, and to the least by rank and number of all such tickets not
granted before; no ticket is granted twice, and the permits that went out are those of
the granted tickets; every ticket sent by a requester that still waits is in the channel,
in the heap or granted; and the loop finds a ticket to pop. -/
theorem served_by_rank (p : Pace) {sg : SnapshotPacer × PaceLog}
    (hs : p.logged.Reachable sg) :
    (∀ a now t, p.logged.enabled sg a →
      (p.logged.next sg a).2.grants = sg.2.grants ++ [(now, t)] →
      t ∈ sg.2.seen ∧ t.seq ∈ sg.1.waiting ∧
      ∀ t' ∈ sg.2.seen, t' ∉ sg.2.granted → t'.seq ∈ sg.1.waiting →
        t.rank < t'.rank ∨ t.rank = t'.rank ∧ t.seq ≤ t'.seq) ∧
    (sg.2.granted.map Ticket.seq).Nodup ∧
    sg.1.permits = (sg.2.granted.map Ticket.seq).toFinset ∧
    (∀ t ∈ sg.2.sent, t.seq ∈ sg.1.waiting →
      t ∈ sg.1.channel ∨ t ∈ sg.1.heap ∨ t ∈ sg.2.granted) ∧
    sg.1.pc ≠ .panicked := by
  obtain ⟨hnumbered, hplaced⟩ := order_reachable hs
  refine ⟨?_, hnumbered.nodup_granted, permits_reachable hs, hplaced.sent, hplaced.alive⟩
  intro a now t _ hgrant
  obtain ⟨hpc, hwaiting, rest, hpop⟩ := popped_of_granted hgrant
  have hmem : t ∈ sg.1.heap := (perm_of_popMax? hpop).mem_iff.mpr List.mem_cons_self
  refine ⟨(hplaced.loaded (Or.inr ⟨now, hpc⟩)).2 t hmem, hwaiting, ?_⟩
  intro t' hseen hungranted hwait
  have hheap : t' ∈ sg.1.heap := (hplaced.seen t' hseen hwait).resolve_right hungranted
  exact Ticket.le_iff.mp (le_of_popMax? hpop hheap)

/-- Rank 0 is gone, so rank 3 is served, though rank 7 came first. -/
theorem served_by_rank_cancelled :
    (everySecond.logged.next cancelledState .grant).2.granted = [⟨3, 2⟩] ∧
      ∀ t' ∈ cancelledState.2.seen, t' ∉ cancelledState.2.granted →
        t'.seq ∈ cancelledState.1.waiting → 3 < t'.rank ∨ 3 = t'.rank ∧ 2 ≤ t'.seq :=
  ⟨by decide +kernel, ((served_by_rank everySecond cancelledState_reachable).1 .grant 5 ⟨3, 2⟩
    (by decide +kernel) (by decide +kernel)).2.2⟩

end FeedHandler.Pacer
