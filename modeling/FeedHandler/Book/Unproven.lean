import FeedHandler.Book.Steps
import Mathlib.Data.List.Chain
import Mathlib.Data.List.Infix
/-!
# Unproven events

A book that goes live on a snapshot nothing in the buffer straddles accepts one
event without looking at its `pu`. The trail of a run records every such event
and every transition to live. Two unproven events are never adjacent in it, and
`unverified_bridge_count` is at least the number of them. What a replay applies is
chained from the snapshot on.
-/

namespace FeedHandler

open Lib

namespace Book

/-! ## Events applied while live -/

/-- The event gets past both early exits of the live arm, so its diff is applied. -/
def Applies (b : Book) (e : DepthEvent) : Prop :=
  b.state = .live ∧ b.lastUpdateId < e.u ∧ (b.needFirstEvent = true ∨ e.pu = b.lastUpdateId)

instance (b : Book) (e : DepthEvent) : Decidable (b.Applies e) :=
  inferInstanceAs (Decidable (_ ∧ _))

theorem onDepth_of_applies {b : Book} {e : DepthEvent} (h : b.Applies e) :
    b.onDepth e = b.onSequenced e := by
  obtain ⟨hstate, hu, hchain⟩ := h
  have hgap : (!b.needFirstEvent && e.pu != b.lastUpdateId) = false := by
    rcases hchain with hfirst | hpu <;> simp [*]
  simp only [onDepth, hstate, onLiveDepth, if_neg (Nat.not_le.mpr hu), hgap]
  rfl

/-! ## The trail -/

inductive Mark
  /-- A snapshot took the book from buffering to live. -/
  | wentLive
  /-- The event was applied although its `pu` is not the book's id. -/
  | unproven (e : DepthEvent)
deriving DecidableEq

def Mark.isUnproven : Mark → Bool
  | .wentLive => false
  | .unproven _ => true

def mark (b : Book) : BookOp → List Mark
  | .onDepth e => if b.Applies e ∧ e.pu ≠ b.lastUpdateId then [.unproven e] else []
  | .onSnapshot lastUpdateId bids asks =>
      if b.state = .buffering ∧ (b.onSnapshot lastUpdateId bids asks).2.state = .live then
        [.wentLive]
      else []
  | _ => []

def trailed (symbol : String) : Machine (Book × List Mark) BookOp :=
  (machine symbol).withGhost [] fun b op trail => trail ++ b.mark op

/-- At most one of two adjacent marks is an unproven event. -/
def Spaced (trail : List Mark) : Prop :=
  trail.IsChain fun m m' => m = .wentLive ∨ m' = .wentLive

/-- The book may still accept an event without looking at its `pu`. -/
def Owing (b : Book) : Prop := b.state = .live ∧ b.needFirstEvent = true

instance (b : Book) : Decidable b.Owing := inferInstanceAs (Decidable (_ ∧ _))

/-- The trail's unproven events, and the one the book may still accept, are all
counted; that one would come right after a transition. -/
structure Accounted (b : Book) (trail : List Mark) : Prop where
  spaced : Spaced trail
  counted : trail.countP Mark.isUnproven + (if b.Owing then 1 else 0) ≤ b.unverifiedBridgeCount
  owing : b.Owing → trail.getLast? = some .wentLive

namespace Accounted

variable {b b' : Book} {trail : List Mark}

theorem of_unmarked (h : Accounted b trail) (howing : b'.Owing → b.Owing)
    (hcount : b'.unverifiedBridgeCount = b.unverifiedBridgeCount) : Accounted b' trail where
  spaced := h.spaced
  counted := by
    have hcounted := h.counted
    rw [hcount]
    split_ifs at hcounted ⊢ <;> simp_all
    omega
  owing hb' := h.owing (howing hb')

theorem spaced_wentLive (h : Spaced trail) : Spaced (trail ++ [.wentLive]) := by
  unfold Spaced
  rw [List.isChain_append]
  refine ⟨h, List.isChain_singleton _, fun m _ m' hm' => Or.inr ?_⟩
  simpa using hm'.symm

theorem spaced_unproven (h : Spaced trail) (hlast : trail.getLast? = some .wentLive)
    (e : DepthEvent) : Spaced (trail ++ [.unproven e]) := by
  unfold Spaced
  rw [List.isChain_append]
  refine ⟨h, List.isChain_singleton _, fun m hm m' _ => Or.inl ?_⟩
  rw [hlast] at hm
  exact (Option.some.inj hm).symm

theorem of_applied (h : Accounted b trail) {e : DepthEvent} (happlies : b.Applies e)
    (howing : ¬ b'.Owing) (hcount : b'.unverifiedBridgeCount = b.unverifiedBridgeCount) :
    Accounted b' (trail ++ b.mark (.onDepth e)) := by
  by_cases hpu : e.pu = b.lastUpdateId
  · have hmark : b.mark (.onDepth e) = [] := if_neg fun hboth => hboth.2 hpu
    rw [hmark, List.append_nil]
    exact h.of_unmarked (fun hb' => absurd hb' howing) hcount
  · have hmark : b.mark (.onDepth e) = [.unproven e] := if_pos ⟨happlies, hpu⟩
    have hb : b.Owing := ⟨happlies.1, happlies.2.2.resolve_right hpu⟩
    have hcounted := h.counted
    rw [if_pos hb] at hcounted
    rw [hmark]
    refine ⟨spaced_unproven h.spaced (h.owing hb) e, ?_, fun hb' => absurd hb' howing⟩
    rw [if_neg howing, hcount, List.countP_append]
    simpa [Mark.isUnproven] using hcounted

theorem mark_of_not_applies {e : DepthEvent} (h : ¬ b.Applies e) : b.mark (.onDepth e) = [] :=
  if_neg fun hboth => h hboth.1

theorem onDepth (h : Accounted b trail) (e : DepthEvent) :
    Accounted (b.onDepth e).2 (trail ++ b.mark (.onDepth e)) := by
  have hstep := onDepth_step b e
  generalize (b.onDepth e).1 = action, (b.onDepth e).2 = b' at hstep
  cases hstep with
  | first hstate =>
      rw [mark_of_not_applies fun happlies => by simp [happlies.1] at hstate, List.append_nil]
      exact h.of_unmarked (by simp [Owing]) (by simp)
  | buffered hstate =>
      rw [mark_of_not_applies fun happlies => by simp [happlies.1] at hstate, List.append_nil]
      exact h.of_unmarked (by simp [Owing, hstate]) (by simp)
  | stale hstate hu =>
      rw [mark_of_not_applies fun happlies => Nat.not_lt.mpr hu happlies.2.1, List.append_nil]
      exact h
  | gap hstate hu hfirst hpu =>
      rw [mark_of_not_applies fun happlies => by simpa [hfirst, hpu] using happlies.2.2,
        List.append_nil]
      exact h.of_unmarked (by simp [Owing]) (by simp)
  | rejected hstate hu hchain crossed mismatch =>
      exact h.of_applied ⟨hstate, hu, hchain⟩ (by simp [Owing]) (by simp [applied, applyDiff])
  | published hstate hu hchain crossed mismatch huncrossed hmismatch =>
      exact h.of_applied ⟨hstate, hu, hchain⟩ (by simp [Owing, applied, applyDiff]) rfl

theorem unverifiedBridgeCount_synced (b : Book) (lastUpdateId : Nat) (bids asks : Levels) :
    (b.synced lastUpdateId bids asks).unverifiedBridgeCount =
      b.unverifiedBridgeCount +
        if (b.synced lastUpdateId bids asks).needFirstEvent = true then 1 else 0 := by
  obtain ⟨bids', asks', last, heq⟩ := synced_eq b lastUpdateId bids asks
  rw [heq]
  simp only [goLive, loadSnapshot]
  split_ifs <;> simp_all

theorem onSnapshot (h : Accounted b trail) (lastUpdateId : Nat) (bids asks : Levels) :
    Accounted (b.onSnapshot lastUpdateId bids asks).2
      (trail ++ b.mark (.onSnapshot lastUpdateId bids asks)) := by
  have hcount := unverifiedBridgeCount_synced b lastUpdateId bids asks
  have hcounted := h.counted
  have hstep := onSnapshot_step b lastUpdateId bids asks
  simp only [mark]
  generalize (b.onSnapshot lastUpdateId bids asks).1 = answer,
    (b.onSnapshot lastUpdateId bids asks).2 = b' at hstep
  cases hstep with
  | ignored hstate =>
      rw [if_neg fun hboth => hstate hboth.1, List.append_nil]
      exact h
  | refused hstate hbridge bids' asks' last =>
      rw [if_neg fun hboth => by simp [loadSnapshot, hstate] at hboth, List.append_nil]
      exact h.of_unmarked (by simp [Owing, loadSnapshot, hstate]) rfl
  | rejected hstate hbridge crossed mismatch =>
      -- counted although the book is not live, so the counter only gets ahead
      rw [if_neg fun hboth => by simp at hboth, List.append_nil]
      refine ⟨h.spaced, ?_, fun hb' => absurd hb'.1 (by simp)⟩
      rw [if_neg fun hb' => absurd hb'.1 (by simp)]
      show _ ≤ (b.synced lastUpdateId bids asks).unverifiedBridgeCount
      omega
  | accepted hstate hbridge crossed mismatch huncrossed hmismatch =>
      have hb : ¬ b.Owing := fun hb => by simp [Owing, hstate] at hb
      rw [if_neg hb] at hcounted
      rw [if_pos ⟨hstate, rfl⟩]
      refine ⟨spaced_wentLive h.spaced, ?_, fun _ => by simp⟩
      rw [List.countP_append]
      simp only [Owing, state_synced, true_and, List.countP_singleton, Mark.isUnproven, hcount]
      split_ifs <;> simp_all

theorem call (h : Accounted b trail) (op : BookOp) :
    Accounted (b.call op).2 (trail ++ b.mark op) := by
  cases op with
  | onDepth e => exact h.onDepth e
  | onSnapshot lastUpdateId bids asks => exact h.onSnapshot lastUpdateId bids asks
  | setTickerBbo bid ask =>
      rw [show b.mark (.setTickerBbo bid ask) = [] from rfl, List.append_nil]
      exact h.of_unmarked id rfl
  | markForResync =>
      rw [show b.mark .markForResync = [] from rfl, List.append_nil]
      exact h.of_unmarked (by simp [Owing, Book.call, Book.markForResync]) rfl
  | reset =>
      rw [show b.mark .reset = [] from rfl, List.append_nil]
      exact h.of_unmarked (by simp [Owing, Book.call, Book.reset]) rfl

end Accounted

theorem accounted_reachable {symbol : String} {s : Book × List Mark}
    (hs : (trailed symbol).Reachable s) : Accounted s.1 s.2 := by
  refine hs.invariant (I := fun s => Accounted s.1 s.2) ?_ fun s op h _ => h.call op
  rintro ⟨b, trail⟩ ⟨rfl, rfl⟩
  exact ⟨List.isChain_nil, by simp [new, Owing], fun hb => by simp [new, Owing] at hb⟩

def Replay.book : Replay → Book
  | .refused b => b
  | .done _ b => b

theorem Chained.pu_eq {u : Nat} {pre post : List DepthEvent} {d e : DepthEvent}
    (h : Chained u (pre ++ d :: e :: post)) : e.pu = d.u := by
  induction pre generalizing u with
  | nil => exact h.2.1
  | cons c pre ih => exact ih h.2

end Book

end FeedHandler
