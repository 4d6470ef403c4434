import FeedHandler.Book.Gaps
import FeedHandler.Venue.History
import Mathlib.Order.Bounds.Basic
/-!
# What a snapshot leaves behind

`onSnapshot` filters, checks and applies in one pass with two early exits. Seen
from outside it is a decision: the buffered events the snapshot does not cover
must be bridged to it, and the book they lead to must not be crossed. That book is
`resynced`, a plain fold over functions from price to quantity.
-/

namespace FeedHandler

open Lib

namespace BookView

/-- A snapshot as the code loads it: levels without a positive quantity are left
out, and of several for one price the last one counts. -/
def ofPositiveLevels (bids asks : Levels) : BookView :=
  ofLevels (bids.filter fun level => Decimal.zero < level.2)
    (asks.filter fun level => Decimal.zero < level.2)

def Uncrossed (v : BookView) : Prop :=
  (∀ p, v.bids p = none) ∨ (∀ p, v.asks p = none) ∨
    ∃ bid ask, IsGreatest {p | (v.bids p).isSome} bid ∧ IsLeast {p | (v.asks p).isSome} ask ∧
      bid < ask

end BookView

namespace Side

theorem load_eq_load_filter (levels : Levels) :
    load levels = load (levels.filter fun level => Decimal.zero < level.2) := by
  unfold load
  rw [List.foldl_filter]
  refine List.foldl_ext _ _ _ fun side level _ => ?_
  unfold loadLevel
  split_ifs <;> simp_all

theorem view_load_filter (levels : Levels) :
    (load levels).view =
      (levels.filter fun level => Decimal.zero < level.2).foldl BookView.assign fun _ => none := by
  rw [load_eq_load_filter]
  refine view_load fun level hlevel => ?_
  simpa using (List.mem_filter.mp hlevel).2

theorem isGreatest_view {side : Side} {best : Decimal} (h : side.maxKey? = some best) :
    IsGreatest {p | (side.view p).isSome} best.units := by
  obtain ⟨level, hmem, rfl⟩ := OrderedMap.maxKey?_mem h
  refine ⟨isSome_view_of_mem hmem, fun p hp => ?_⟩
  obtain ⟨other, hother, rfl⟩ := exists_of_isSome_view hp
  exact OrderedMap.le_maxKey? h hother

theorem isLeast_view {side : Side} {best : Decimal} (h : side.minKey? = some best) :
    IsLeast {p | (side.view p).isSome} best.units := by
  obtain ⟨level, hmem, rfl⟩ := OrderedMap.minKey?_mem h
  refine ⟨isSome_view_of_mem hmem, fun p hp => ?_⟩
  obtain ⟨other, hother, rfl⟩ := exists_of_isSome_view hp
  exact OrderedMap.minKey?_le h hother

theorem view_eq_none_of_entries_nil {side : Side} (h : side.entries = []) (p : Int) :
    side.view p = none := by
  rw [← Option.not_isSome_iff_eq_none]
  intro hp
  obtain ⟨level, hlevel, -⟩ := exists_of_isSome_view hp
  simp [h] at hlevel

end Side

namespace Book

theorem uncrossed_view_iff (b : Book) : b.view.Uncrossed ↔ ¬ b.Crossed := by
  cases hbid : b.bids.maxKey? with
  | none =>
      have hempty := Side.view_eq_none_of_entries_nil (OrderedMap.maxKey?_eq_none.mp hbid)
      exact iff_of_true (Or.inl hempty) (by simp [Crossed, hbid])
  | some bid =>
      cases hask : b.asks.minKey? with
      | none =>
          have hempty := Side.view_eq_none_of_entries_nil (OrderedMap.minKey?_eq_none.mp hask)
          exact iff_of_true (Or.inr (Or.inl hempty)) (by simp [Crossed, hask])
      | some ask =>
          have hgreatest : IsGreatest {p | (b.view.bids p).isSome} bid.units :=
            Side.isGreatest_view hbid
          have hleast : IsLeast {p | (b.view.asks p).isSome} ask.units := Side.isLeast_view hask
          have hcrossed : b.Crossed ↔ ask ≤ bid := by simp [Crossed, hbid, hask]
          rw [hcrossed, Decimal.le_iff_units, not_le]
          constructor
          · rintro (hnone | hnone | ⟨p, q, hp, hq, hlt⟩)
            · simpa [hnone] using hgreatest.1
            · simpa [hnone] using hleast.1
            · rwa [hgreatest.unique hp, hleast.unique hq]
          · exact fun hlt => Or.inr (Or.inr ⟨_, _, hgreatest, hleast, hlt⟩)

theorem checkIntegrity_iff {b : Book} (hcount : b.bboMismatchCount + 1 < bboMismatchThreshold) :
    b.checkIntegrity.1 = true ↔ ¬ b.Crossed := by
  unfold checkIntegrity Crossed
  cases hbid : b.bids.maxKey? with
  | none => simp
  | some bid =>
      cases hask : b.asks.minKey? with
      | none => simp
      | some ask =>
          dsimp only
          split_ifs <;> simp_all

/-- The book a snapshot leads to: its positive levels, with the diffs of the
buffered events it does not cover applied in order. -/
def resynced (b : Book) (lastUpdateId : Nat) (bids asks : Levels) : BookView :=
  (pending lastUpdateId b.buffer).foldl BookView.apply (BookView.ofPositiveLevels bids asks)

theorem view_foldl_applyEvent (b : Book) (es : List DepthEvent) :
    (es.foldl applyEvent b).view = es.foldl BookView.apply b.view := by
  induction es generalizing b with
  | nil => rfl
  | cons e es ih => rw [List.foldl_cons, ih, view_applyEvent, List.foldl_cons]

theorem view_synced (b : Book) (lastUpdateId : Nat) (bids asks : Levels) :
    (b.synced lastUpdateId bids asks).view = b.resynced lastUpdateId bids asks := by
  have hloaded : (b.loadSnapshot lastUpdateId bids asks).view =
      BookView.ofPositiveLevels bids asks := by
    simp only [view, loadSnapshot, BookView.ofPositiveLevels, BookView.ofLevels,
      Side.view_load_filter]
  rw [resynced, ← hloaded, ← view_foldl_applyEvent]
  rfl

theorem lastUpdateId_synced_eq (b : Book) (lastUpdateId : Nat) (bids asks : Levels) :
    (b.synced lastUpdateId bids asks).lastUpdateId =
      ((pending lastUpdateId b.buffer).getLast?.map DepthEvent.u).getD lastUpdateId := by
  simp only [synced, goLive]
  rw [lastUpdateId_foldl_applyEvent]
  rfl

theorem needFirstEvent_synced_iff (b : Book) (lastUpdateId : Nat) (bids asks : Levels) :
    (b.synced lastUpdateId bids asks).needFirstEvent = true ↔
      pending lastUpdateId b.buffer = [] := by
  simp [synced, goLive]

/-- The mismatch counter starts at zero, so the ticker cannot fail the check. -/
theorem checkIntegrity_synced_iff (b : Book) (lastUpdateId : Nat) (bids asks : Levels) :
    (b.synced lastUpdateId bids asks).checkIntegrity.1 = true ↔
      (b.resynced lastUpdateId bids asks).Uncrossed := by
  have hcount : (b.synced lastUpdateId bids asks).bboMismatchCount + 1 <
      bboMismatchThreshold := by
    rw [show (b.synced lastUpdateId bids asks).bboMismatchCount = 0 from rfl]
    decide
  rw [checkIntegrity_iff hcount, ← uncrossed_view_iff, view_synced]

/-- A buffering book accepts a snapshot exactly when what the snapshot does not
cover is bridged to it and leads to an uncrossed book. -/
theorem onSnapshot_eq_true_iff_bridged {b : Book} (hstate : b.state = .buffering)
    (lastUpdateId : Nat) (bids asks : Levels) :
    (b.onSnapshot lastUpdateId bids asks).1 = true ↔
      Bridged lastUpdateId (pending lastUpdateId b.buffer) ∧
        (b.resynced lastUpdateId bids asks).Uncrossed := by
  by_cases hbridge : Bridged lastUpdateId (pending lastUpdateId b.buffer)
  · rw [onSnapshot_of_bridged hstate hbridge, checkIntegrity_synced_iff]
    exact (and_iff_right hbridge).symm
  · have hstep := onSnapshot_step b lastUpdateId bids asks
    refine iff_of_false (fun htrue => ?_) fun h => hbridge h.1
    rw [htrue] at hstep
    generalize (b.onSnapshot lastUpdateId bids asks).2 = b' at hstep
    cases hstep with
    | ignored hnot => exact hnot hstate
    | accepted _ hyes => exact hbridge hyes

theorem resynced_of_accepted {b : Book} (hstate : b.state = .buffering) {lastUpdateId : Nat}
    {bids asks : Levels} (h : (b.onSnapshot lastUpdateId bids asks).1 = true) :
    (b.onSnapshot lastUpdateId bids asks).2.state = .live ∧
      (b.onSnapshot lastUpdateId bids asks).2.view = b.resynced lastUpdateId bids asks := by
  have hview := view_synced b lastUpdateId bids asks
  have hstep := onSnapshot_step b lastUpdateId bids asks
  rw [h] at hstep
  generalize (b.onSnapshot lastUpdateId bids asks).2 = b' at hstep ⊢
  cases hstep with
  | ignored hnot => exact absurd hstate hnot
  | accepted => exact ⟨rfl, hview⟩

/-- The acceptance condition of a sync and its result. -/
theorem snapshot_accepted_iff {b : Book} (hstate : b.state = .buffering) (lastUpdateId : Nat)
    (bids asks : Levels) :
    ((b.onSnapshot lastUpdateId bids asks).1 = true ∧
        (b.onSnapshot lastUpdateId bids asks).2.state = .live ↔
      Bridged lastUpdateId (pending lastUpdateId b.buffer) ∧
        (b.resynced lastUpdateId bids asks).Uncrossed) ∧
    ((b.onSnapshot lastUpdateId bids asks).1 = true →
      (b.onSnapshot lastUpdateId bids asks).2.view = b.resynced lastUpdateId bids asks ∧
      (b.onSnapshot lastUpdateId bids asks).2.lastUpdateId =
        ((pending lastUpdateId b.buffer).getLast?.map DepthEvent.u).getD lastUpdateId ∧
      (b.onSnapshot lastUpdateId bids asks).2.buffer = [] ∧
      ((b.onSnapshot lastUpdateId bids asks).2.needFirstEvent = true ↔
        pending lastUpdateId b.buffer = [])) ∧
    (¬ (Bridged lastUpdateId (pending lastUpdateId b.buffer) ∧
        (b.resynced lastUpdateId bids asks).Uncrossed) →
      (b.onSnapshot lastUpdateId bids asks).1 = false ∧
        (b.onSnapshot lastUpdateId bids asks).2.state = .buffering) ∧
    ∀ bid ask, ((b.setTickerBbo bid ask).onSnapshot lastUpdateId bids asks).1 =
      (b.onSnapshot lastUpdateId bids asks).1 := by
  have hiff := onSnapshot_eq_true_iff_bridged hstate lastUpdateId bids asks
  have hview := view_synced b lastUpdateId bids asks
  have hlast := lastUpdateId_synced_eq b lastUpdateId bids asks
  have hneed := needFirstEvent_synced_iff b lastUpdateId bids asks
  have hbuffer := buffer_synced b lastUpdateId bids asks
  have hticker : ∀ bid ask, ((b.setTickerBbo bid ask).onSnapshot lastUpdateId bids asks).1 =
      (b.onSnapshot lastUpdateId bids asks).1 := by
    intro bid ask
    rw [Bool.eq_iff_iff, hiff]
    exact onSnapshot_eq_true_iff_bridged (b := b.setTickerBbo bid ask) hstate lastUpdateId bids asks
  have hstep := onSnapshot_step b lastUpdateId bids asks
  generalize (b.onSnapshot lastUpdateId bids asks).1 = answer,
    (b.onSnapshot lastUpdateId bids asks).2 = b' at hiff hticker hstep ⊢
  cases hstep with
  | ignored hnot => exact absurd hstate hnot
  | refused _ hbridge bids' asks' last =>
      refine ⟨?_, by simp, fun _ => ⟨rfl, hstate⟩, hticker⟩
      simpa using hiff
  | rejected _ hbridge crossed mismatch =>
      refine ⟨?_, by simp, fun _ => ⟨rfl, rfl⟩, hticker⟩
      simpa using hiff
  | accepted _ hbridge crossed mismatch huncrossed hmismatch =>
      refine ⟨?_, fun _ => ⟨hview, hlast, hbuffer, hneed⟩, fun hnot => ?_, hticker⟩
      · simpa using hiff
      · exact absurd (hiff.mp rfl) hnot

def buffering : Book := ((new "BTCUSDT").onDepth ⟨1, 10, 0, [(.one, .one)], []⟩).2

/-- The snapshot at 5 is bridged by it: the book is live at 10. -/
theorem snapshot_accepted_iff_straddled :
    (buffering.onSnapshot 5 [(.whole 98, .whole 2)] [(.whole 103, .whole 2)]).2.view =
      buffering.resynced 5 [(.whole 98, .whole 2)] [(.whole 103, .whole 2)] ∧
    (buffering.onSnapshot 5 [(.whole 98, .whole 2)] [(.whole 103, .whole 2)]).2.lastUpdateId =
      10 := by
  have h := snapshot_accepted_iff (b := buffering) (by decide) 5 [(.whole 98, .whole 2)]
    [(.whole 103, .whole 2)]
  obtain ⟨hview, hlast, -⟩ := h.2.1 (by decide +kernel)
  exact ⟨hview, hlast.trans (by decide +kernel)⟩

end Book

end FeedHandler
