import FeedHandler.Venue.Acceptance
import FeedHandler.Venue.InSync
/-!
# A feed without loss, and snapshots of any age

Between two resets the book is given a segment of the history, in order and
complete; genuine snapshots of any age, resyncs and tickers come at any time. The
event accepted by the `need_first_event` escape hatch is meant to be no hole.
It is none as long as no snapshot older than the last event finds the resync
buffer empty: a refused snapshot and a resync both empty it, and then the bridge
check has nothing left to check.
-/

namespace FeedHandler

open Lib

inductive FeedOp
  /-- The next event of the segment. -/
  | deliver
  | snapshot (lastUpdateId : Nat) (bids asks : Levels)
  | setTickerBbo (bid ask : Decimal)
  | markForResync
  /-- The next segment starts after event `start`. -/
  | reset (start : Nat)

namespace Book

variable {h : VenueHistory}

/-- A book and the index of the event before the next one to be delivered. -/
def feedRuns (h : VenueHistory) (symbol : String) : Machine (Book × Nat) FeedOp where
  initial s := s.1 = new symbol
  enabled _ op :=
    match op with
    | .snapshot lastUpdateId bids asks => h.Genuine lastUpdateId bids asks
    | _ => True
  next s op :=
    match op with
    | .deliver => ((s.1.onDepth (h.event (s.2 + 1))).2, s.2 + 1)
    | .snapshot lastUpdateId bids asks => ((s.1.onSnapshot lastUpdateId bids asks).2, s.2)
    | .setTickerBbo bid ask => (s.1.setTickerBbo bid ask, s.2)
    | .markForResync => (s.1.markForResync, s.2)
    | .reset start => (s.1.reset, start)

/-- The next event, if it is published, leaves the venue's book; and if it is
accepted unchecked, it starts no later than right after the book's id. -/
def NoHole (h : VenueHistory) (s : Book × Nat) : Prop :=
  ((s.1.onDepth (h.event (s.2 + 1))).1 = .publish →
    (s.1.onDepth (h.event (s.2 + 1))).2.view = h.version (s.2 + 1)) ∧
  (s.1.state = .live → s.1.needFirstEvent = true →
    s.1.lastUpdateId < (h.event (s.2 + 1)).u →
      (h.event (s.2 + 1)).U ≤ s.1.lastUpdateId + 1)

/-- A snapshot that finds a buffering book with an empty buffer and is not crossed is no
older than the last event. -/
def FreshWhenDrained (h : VenueHistory) (s : Book × Nat) (op : FeedOp) : Prop :=
  ∀ lastUpdateId bids asks, op = .snapshot lastUpdateId bids asks →
    InSync.Covers h s.1 s.2 lastUpdateId bids asks

theorem noHole_of_inSync {s : Book × Nat} (hs : InSync h s.1 s.2) : NoHole h s :=
  ⟨hs.view_of_publish, fun hstate hfirst _ => hs.U_le_of_awaiting hstate hfirst⟩

theorem inSync_next {s : Book × Nat} {symbol : String} {op : FeedOp} (hs : InSync h s.1 s.2)
    (henabled : (feedRuns h symbol).enabled s op) (hfresh : FreshWhenDrained h s op) :
    InSync h ((feedRuns h symbol).next s op).1 ((feedRuns h symbol).next s op).2 := by
  cases op with
  | deliver => exact hs.onDepth
  | snapshot lastUpdateId bids asks =>
      exact hs.onSnapshot henabled (hfresh lastUpdateId bids asks rfl)
  | setTickerBbo bid ask => exact hs.setTickerBbo bid ask
  | markForResync => exact .markForResync s.1 s.2
  | reset start => exact .reset s.1 start

theorem inSync_reachable {symbol : String} {s : Book × Nat}
    (hs : ((feedRuns h symbol).guarded (FreshWhenDrained h)).Reachable s) :
    InSync h s.1 s.2 := by
  refine hs.invariant (I := fun s => InSync h s.1 s.2) ?_ fun s op hin henabled => ?_
  · rintro ⟨b, seen⟩ rfl
    exact .of_uninitialized rfl rfl
  · exact inSync_next hin henabled.1 henabled.2

/-- No hole in any run whose snapshots are fresh enough for an empty buffer. -/
theorem no_hole_of_fresh {symbol : String} {s : Book × Nat}
    (hs : ((feedRuns h symbol).guarded (FreshWhenDrained h)).Reachable s) : NoHole h s :=
  noHole_of_inSync (inSync_reachable hs)

theorem onSnapshot_of_drained {b : Book} (hstate : b.state = .buffering) (hbuffer : b.buffer = [])
    {lastUpdateId : Nat} {bids asks : Levels}
    (hpos : ∀ level ∈ bids ++ asks, Decimal.zero < level.2) :
    (b.onSnapshot lastUpdateId bids asks).1 = true ↔
      ¬ (BookView.ofLevels bids asks).Crossed := by
  have hpending : pending lastUpdateId b.buffer = [] := by
    rw [hbuffer]
    rfl
  have hview := (synced_of_pending_nil b hpos hpending).2.1
  rw [onSnapshot_eq_true_iff_bridged hstate, ← view_synced, uncrossed_view_iff, crossed_iff_view,
    hview, hpending]
  exact and_iff_right trivial

/-- The condition is not stronger than it has to be: a snapshot that breaks it leaves a
hole before the next event. -/
theorem hole_of_stale {s : Book × Nat} {symbol : String} {op : FeedOp}
    (henabled : (feedRuns h symbol).enabled s op) (hstale : ¬ FreshWhenDrained h s op) :
    ¬ NoHole h ((feedRuns h symbol).next s op) := by
  obtain ⟨b, seen⟩ := s
  unfold FreshWhenDrained InSync.Covers at hstale
  push Not at hstale
  obtain ⟨lastUpdateId, bids, asks, rfl, hstate, hbuffer, hclear, hstale⟩ := hstale
  dsimp only at hstate hbuffer hstale
  have hgenuine : h.Genuine lastUpdateId bids asks := henabled
  have haccepted : (b.onSnapshot lastUpdateId bids asks).1 = true :=
    (onSnapshot_of_drained hstate hbuffer hgenuine.1).mpr hclear
  show ¬ NoHole h ((b.onSnapshot lastUpdateId bids asks).2, seen)
  have hlt := h.last_lt seen
  have hstep := onSnapshot_step b lastUpdateId bids asks
  rw [haccepted] at hstep
  generalize (b.onSnapshot lastUpdateId bids asks).2 = b' at hstep
  rintro ⟨-, hatch⟩
  cases hstep with
  | ignored hnot => exact hnot hstate
  | accepted _ hbridge crossed mismatch huncrossed hmismatch =>
      have hid : (b.synced lastUpdateId bids asks).lastUpdateId = lastUpdateId := by
        simp [synced, goLive, hbuffer, loadSnapshot]
      have hneed : (b.synced lastUpdateId bids asks).needFirstEvent = true := by
        simp [synced, goLive, hbuffer]
      have hU := hatch rfl hneed (by rw [h.u_eq]; simp only [hid]; omega)
      rw [h.U_eq] at hU
      simp only [hid] at hU
      omega

/-- Three events are buffered; a snapshot at 10 is refused and drains the buffer,
one at 20 then goes live, and event 6 is published over the missing 3, 4 and 5. -/
theorem hole_after_refused_snapshot :
    ¬ ∀ (h : VenueHistory) (symbol : String) (s : Book × Nat),
      (feedRuns h symbol).Reachable s → NoHole h s := by
  intro hall
  have hfirst : steps.Genuine 10 [(.whole 1, .whole 1)] [] :=
    steps.genuine_of_version (k := 0) (by decide) rfl
  have hsecond : steps.Genuine 20 [(.whole 1, .whole 1), (.whole 2, .whole 1)] [] :=
    steps.genuine_of_version (k := 1) (by decide) rfl
  have hreachable := (Machine.Reachable.start (m := feedRuns steps "BTCUSDT")
    (s := (new "BTCUSDT", 2)) rfl).exec
    [.deliver, .deliver, .deliver, .snapshot 10 [(.whole 1, .whole 1)] [],
      .snapshot 20 [(.whole 1, .whole 1), (.whole 2, .whole 1)] []]
    ⟨trivial, trivial, trivial, hfirst, hsecond, trivial⟩
  have hpublished := (hall steps "BTCUSDT" _ hreachable).1 (by decide)
  have hmissing := congrFun (congrArg BookView.bids hpublished) (Decimal.whole 3).units
  exact absurd hmissing (by decide)

/-- A run that meets the condition: the snapshot straddles the first event. -/
theorem no_hole_of_fresh_steps : NoHole steps
    ((feedRuns steps "BTCUSDT").exec (new "BTCUSDT", 0) [.deliver, .snapshot 5 [] []]) := by
  have hgenuine : steps.Genuine 5 [] [] :=
    ⟨by simp, 0, by decide, by decide, rfl, fun h => absurd h (by decide)⟩
  have hreachable := (Machine.Reachable.start
    (m := (feedRuns steps "BTCUSDT").guarded (FreshWhenDrained steps))
    (s := (new "BTCUSDT", 0)) rfl).exec [.deliver, .snapshot 5 [] []]
    ⟨⟨trivial, by rintro _ _ _ ⟨⟩⟩, ⟨hgenuine, by
      rintro _ _ _ ⟨⟩ _ hnil
      exact absurd hnil (by decide)⟩, trivial⟩
  exact no_hole_of_fresh hreachable

end Book

end FeedHandler
