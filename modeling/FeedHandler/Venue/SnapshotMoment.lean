import FeedHandler.Venue.InSync
/-!
# The moment a snapshot lands

A snapshot may arrive before the event that straddles it or after it. The first
case takes the unproven path and filters live events by id, the second replays
the filtered buffer; on a feed without loss both end in the venue's book.
-/

namespace FeedHandler

open Lib

namespace Book

variable {h : VenueHistory}

def feed (b : Book) (es : List DepthEvent) : Book := es.foldl (fun b e => (b.onDepth e).2) b

theorem feed_append (b : Book) (es es' : List DepthEvent) :
    b.feed (es ++ es') = (b.feed es).feed es' := List.foldl_append

/-! ## Before the snapshot -/

theorem feed_new (h : VenueHistory) (symbol : String) {k : Nat} (hk : 1 ≤ k)
    (hmax : k ≤ bufferMax) : ((new symbol).feed (h.segment 0 k)).state = .buffering ∧
      ((new symbol).feed (h.segment 0 k)).buffer = h.segment 0 k ∧
      ((new symbol).feed (h.segment 0 k)).tickerBid.isZero = true := by
  induction k, hk using Nat.le_induction with
  | base =>
      have hone : h.segment 0 1 = [h.event 1] := (InSync.segment_one h 0).symm
      rw [hone]
      simp [feed, onDepth, new]
  | succ k hle ih =>
      obtain ⟨hstate, hbuffer, hticker⟩ := ih (by omega)
      rw [h.segment_succ (by omega), feed_append]
      generalize (new symbol).feed (h.segment 0 k) = b at hstate hbuffer hticker
      have hroom : b.buffer.length < bufferMax := by
        rw [hbuffer, h.length_segment]
        omega
      have hpush : b.feed [h.event (k + 1)] = b.bufferPush (h.event (k + 1)) := by
        simp only [feed, List.foldl_cons, List.foldl_nil, onDepth, hstate]
      rw [hpush, bufferPush_eq, ← hbuffer]
      exact ⟨hstate, pushed_of_lt _ hroom, hticker⟩

/-! ## From the snapshot on -/

/-- A live book in step with the feed, with no ticker to be compared with. -/
structure Settled (h : VenueHistory) (n : Nat) (b : Book) (seen : Nat) : Prop where
  live : b.state = .live
  noTicker : b.tickerBid.isZero = true
  inSync : InSync h b seen
  id_le : b.lastUpdateId ≤ h.last n

namespace Settled

variable {n : Nat} {b : Book} {seen : Nat}

theorem deliver (hb : Settled h n b seen) (hn : seen < n)
    (huncrossed : ∀ i ≤ n, ¬ (h.version i).Crossed) :
    Settled h n (b.onDepth (h.event (seen + 1))).2 (seen + 1) := by
  have hnext := hb.inSync.onDepth
  by_cases hu : (h.event (seen + 1)).u ≤ b.lastUpdateId
  · rw [onDepth_of_stale hb.live hu] at hnext ⊢
    exact ⟨hb.live, hb.noTicker, hnext, hb.id_le⟩
  · have hlt : b.lastUpdateId < (h.event (seen + 1)).u := by omega
    have hat := hb.inSync.at_applied hb.live hlt
    have hchain : b.needFirstEvent = true ∨ (h.event (seen + 1)).pu = b.lastUpdateId := by
      cases hfirst : b.needFirstEvent with
      | true => exact Or.inl rfl
      | false =>
          right
          rw [(hb.inSync.following hb.live hfirst).1, h.pu_eq]
    have hclear : ¬ (b.applied (h.event (seen + 1))).Crossed := by
      rw [crossed_iff_view, hat.2]
      exact huncrossed _ hn
    rw [onDepth_of_no_ticker hb.live hlt hchain hb.noTicker hclear] at hnext ⊢
    refine ⟨hb.live, hb.noTicker, hnext, ?_⟩
    rw [hat.1]
    exact h.last_strictMono.monotone hn

theorem feed (hb : Settled h n b seen) (hn : seen ≤ n)
    (huncrossed : ∀ i ≤ n, ¬ (h.version i).Crossed) :
    Settled h n (b.feed (h.segment seen n)) n := by
  induction hd : n - seen generalizing b seen with
  | zero =>
      obtain rfl : seen = n := by omega
      rw [h.segment_self]
      exact hb
  | succ d ih =>
      rw [h.segment_cons (by omega)]
      exact ih (hb.deliver (by omega) huncrossed) (by omega) (by omega)

theorem at_last (hb : Settled h n b n) : At h b n := by
  cases hfirst : b.needFirstEvent with
  | true =>
      obtain ⟨hcheck, hlast⟩ := hb.inSync.awaiting hb.live hfirst
      have hid : b.lastUpdateId = h.last n := Nat.le_antisymm hb.id_le hlast
      exact ⟨hid, hcheck.at_end hid⟩
  | false => exact hb.inSync.following hb.live hfirst

theorem of_snapshot {k lastUpdateId : Nat} {bids asks : Levels} (hstate : b.state = .buffering)
    (hbuffer : b.buffer = h.segment 0 k) (hticker : b.tickerBid.isZero = true) (hk : 1 ≤ k)
    (hkn : k ≤ n) (huncrossed : ∀ i ≤ n, ¬ (h.version i).Crossed)
    (hgenuine : h.Genuine lastUpdateId bids asks) (hclear : ¬ (BookView.ofLevels bids asks).Crossed)
    (hL : (h.event 1).U ≤ lastUpdateId) (hLn : lastUpdateId ≤ h.last n) :
    Settled h n (b.onSnapshot lastUpdateId bids asks).2 k := by
  have hin : InSync h b k := .of_buffering 0 hstate (Nat.zero_le k) hbuffer
  have hcovers : b.buffer = [] → h.last k ≤ lastUpdateId := by
    intro hnil
    have hlen := congrArg List.length (hbuffer.symm.trans hnil)
    rw [h.length_segment, List.length_nil] at hlen
    omega
  have hbridge : Bridged lastUpdateId (pending lastUpdateId b.buffer) := by
    rw [hbuffer]
    refine h.bridged_segment (Nat.zero_le k) ?_
    have hU : (h.event 1).U = h.last 0 + 1 := h.U_eq 0
    omega
  have hsynced := hin.synced hstate hgenuine hcovers hbridge
  have hview : ¬ (b.synced lastUpdateId bids asks).Crossed ∧
      (b.synced lastUpdateId bids asks).lastUpdateId ≤ h.last n := by
    rw [crossed_iff_view]
    by_cases hne : pending lastUpdateId b.buffer = []
    · obtain ⟨hid, hview, -⟩ :=
        synced_of_pending_nil b hgenuine.1 hne
      rw [hid, hview]
      exact ⟨hclear, hLn⟩
    · obtain ⟨hid, hview⟩ := hsynced.following rfl (needFirstEvent_synced bids asks hne)
      rw [hid, hview]
      exact ⟨huncrossed k hkn, h.last_strictMono.monotone hkn⟩
  have hsyncedTicker : (b.synced lastUpdateId bids asks).tickerBid.isZero = true := by
    obtain ⟨bids', asks', last, heq⟩ := synced_eq b lastUpdateId bids asks
    rw [heq]
    exact hticker
  rw [onSnapshot_of_bridged hstate hbridge,
    checkIntegrity_of_no_ticker hsyncedTicker hview.1]
  exact ⟨rfl, hsyncedTicker, hsynced, hview.2⟩

end Settled

/-- A new book given the first `k` events of a chain, then a snapshot, then the
events up to `n`. -/
def landing (h : VenueHistory) (symbol : String) (k n lastUpdateId : Nat) (bids asks : Levels) :
    Book :=
  (((new symbol).feed (h.segment 0 k)).onSnapshot lastUpdateId bids asks).2.feed (h.segment k n)

/-- Whenever an uncrossed genuine snapshot from within the chain lands, the book
ends up live and equal to the venue's. -/
theorem snapshot_moment_irrelevant (h : VenueHistory) (symbol : String)
    {k n lastUpdateId : Nat} {bids asks : Levels} (hk : 1 ≤ k) (hkn : k ≤ n)
    (hmax : k ≤ bufferMax) (huncrossed : ∀ i ≤ n, ¬ (h.version i).Crossed)
    (hgenuine : h.Genuine lastUpdateId bids asks)
    (hclear : ¬ (BookView.ofLevels bids asks).Crossed)
    (hL : (h.event 1).U ≤ lastUpdateId) (hLn : lastUpdateId ≤ h.last n) :
    (landing h symbol k n lastUpdateId bids asks).state = .live ∧
    (landing h symbol k n lastUpdateId bids asks).view = h.version n ∧
    (landing h symbol k n lastUpdateId bids asks).lastUpdateId = h.last n := by
  obtain ⟨hstate, hbuffer, hticker⟩ := feed_new h symbol hk hmax
  have hsettled := (Settled.of_snapshot hstate hbuffer hticker hk hkn huncrossed hgenuine hclear
    hL hLn).feed hkn huncrossed
  exact ⟨hsettled.live, hsettled.at_last.2, hsettled.at_last.1⟩

/-- A snapshot inside the second of three events, landing before it. -/
theorem snapshot_moment_irrelevant_steps :
    (landing steps "BTCUSDT" 1 3 15 [(.whole 1, .whole 1)] []).view = steps.version 3 := by
  have hgenuine : steps.Genuine 15 [(.whole 1, .whole 1)] [] :=
    ⟨by decide, 1, by decide, by decide, rfl, fun heq => absurd heq (by decide)⟩
  have hclear : ¬ (BookView.ofLevels [(.whole 1, .whole 1)] []).Crossed := by
    rintro ⟨bid, ask, -, hask, -⟩
    exact absurd hask (by simp [BookView.ofLevels])
  exact (snapshot_moment_irrelevant steps "BTCUSDT" (by decide) (by decide) (by decide)
    (fun i _ => steps_uncrossed i) hgenuine hclear (by decide) (by decide)).2.1

end Book

end FeedHandler
