import FeedHandler.Book.Steps
/-!
# Well-formed books

The state of a book decides how much of it can be trusted: an uninitialized book
is empty, a buffering book may hold a half-replayed or crossed mess, and a live
book is uncrossed, has no empty level and no buffered event. Every operation
keeps this, so what a consumer is shown is well formed.
-/

namespace FeedHandler

open Lib

namespace Side

def NoZero (side : Side) : Prop := ∀ level ∈ side.entries, level.2.isZero = false

theorem noZero_empty : NoZero OrderedMap.empty := by simp [NoZero]

theorem noZero_applyLevel {side : Side} (h : side.NoZero) (level : Decimal × Decimal) :
    (side.applyLevel level).NoZero := by
  unfold applyLevel
  split_ifs with hzero
  · exact OrderedMap.forall_erase (fun q : Decimal => q.isZero = false) side level.1 h
  · refine OrderedMap.forall_insert (fun q : Decimal => q.isZero = false) side level.1 h ?_
    simpa using hzero

theorem noZero_applyLevels {side : Side} (h : side.NoZero) (levels : Levels) :
    (side.applyLevels levels).NoZero := by
  induction levels generalizing side with
  | nil => exact h
  | cons level levels ih => exact ih (noZero_applyLevel h level)

theorem noZero_loadLevel {side : Side} (h : side.NoZero) (level : Decimal × Decimal) :
    (side.loadLevel level).NoZero := by
  unfold loadLevel
  split_ifs with hpos
  · refine OrderedMap.forall_insert (fun q : Decimal => q.isZero = false) side level.1 h ?_
    rw [Decimal.isZero_eq_false]
    rw [Decimal.lt_iff_units, Decimal.units_zero] at hpos
    exact hpos.ne'
  · exact h

theorem noZero_load (levels : Levels) : (load levels).NoZero := by
  have hfold : ∀ side : Side, side.NoZero → (levels.foldl loadLevel side).NoZero := by
    induction levels with
    | nil => exact fun _ h => h
    | cons level levels ih => exact fun side h => ih _ (noZero_loadLevel h level)
  exact hfold _ noZero_empty

end Side

namespace Book

def NoZero (b : Book) : Prop := b.bids.NoZero ∧ b.asks.NoZero

theorem noZero_applyEvent {b : Book} (h : b.NoZero) (e : DepthEvent) :
    (b.applyEvent e).NoZero :=
  ⟨Side.noZero_applyLevels h.1 e.bids, Side.noZero_applyLevels h.2 e.asks⟩

theorem noZero_foldl_applyEvent {b : Book} (h : b.NoZero) (es : List DepthEvent) :
    (es.foldl applyEvent b).NoZero := by
  induction es generalizing b with
  | nil => exact h
  | cons e es ih => exact ih (noZero_applyEvent h e)

theorem noZero_synced (b : Book) (lastUpdateId : Nat) (bids asks : Levels) :
    (b.synced lastUpdateId bids asks).NoZero := by
  have hloaded : (b.loadSnapshot lastUpdateId bids asks).NoZero :=
    ⟨Side.noZero_load bids, Side.noZero_load asks⟩
  exact noZero_foldl_applyEvent hloaded _

/-- What each state promises. -/
structure WellFormed (b : Book) : Prop where
  bounded : b.buffer.length ≤ bufferMax
  uninitialized : b.state = .uninitialized →
    b.bids = OrderedMap.empty ∧ b.asks = OrderedMap.empty ∧ b.buffer = [] ∧
      b.lastUpdateId = 0 ∧ b.needFirstEvent = false
  live : b.state = .live →
    b.buffer = [] ∧ b.NoZero ∧ b.bboMismatchCount < bboMismatchThreshold ∧ ¬ b.Crossed

theorem WellFormed.of_buffering {b : Book} (hstate : b.state = .buffering)
    (hbuffer : b.buffer.length ≤ bufferMax) : b.WellFormed where
  bounded := hbuffer
  uninitialized h := by simp [hstate] at h
  live h := by simp [hstate] at h

theorem wellFormed_new (symbol : String) : (new symbol).WellFormed where
  bounded := Nat.zero_le _
  uninitialized _ := ⟨rfl, rfl, rfl, rfl, rfl⟩
  live h := by simp [new] at h

theorem wellFormed_onDepth {b : Book} (h : b.WellFormed) (e : DepthEvent) :
    (b.onDepth e).2.WellFormed := by
  have hpush : (pushed b.buffer e).length ≤ bufferMax := length_pushed_le e h.bounded
  have hone : [e].length ≤ bufferMax := by simp [bufferMax]
  have hstep := onDepth_step b e
  generalize (b.onDepth e).1 = action, (b.onDepth e).2 = b' at hstep
  cases hstep with
  | first hstate => exact .of_buffering (by simp) (by simpa using hpush)
  | buffered hstate => exact .of_buffering (by simpa using hstate) (by simpa using hpush)
  | stale hstate hu => exact h
  | gap hstate hu hfirst hpu => exact .of_buffering (by simp) (by simpa using hone)
  | rejected hstate hu hchain crossed mismatch =>
      exact .of_buffering (by simp) (by simpa using hone)
  | published hstate hu hchain crossed mismatch huncrossed hmismatch =>
      obtain ⟨hbuffer, hzero, hcount, -⟩ := h.live hstate
      refine ⟨h.bounded, fun hnot => ?_, fun _ => ?_⟩
      · exact absurd (hstate.symm.trans hnot) (by decide)
      · exact ⟨hbuffer, noZero_applyEvent (b := { b with needFirstEvent := false }) hzero e,
          hmismatch hcount, huncrossed⟩

theorem wellFormed_onSnapshot {b : Book} (h : b.WellFormed) (lastUpdateId : Nat)
    (bids asks : Levels) : (b.onSnapshot lastUpdateId bids asks).2.WellFormed := by
  have hstep := onSnapshot_step b lastUpdateId bids asks
  generalize (b.onSnapshot lastUpdateId bids asks).1 = answer,
    (b.onSnapshot lastUpdateId bids asks).2 = b' at hstep
  cases hstep with
  | ignored hstate => exact h
  | refused hstate hbridge bids' asks' last =>
      exact .of_buffering hstate (Nat.zero_le _)
  | rejected hstate hbridge crossed mismatch =>
      exact .of_buffering rfl (by simp)
  | accepted hstate hbridge crossed mismatch huncrossed hmismatch =>
      refine ⟨by simp, fun hnot => by simp at hnot, fun _ => ?_⟩
      exact ⟨buffer_synced b lastUpdateId bids asks, noZero_synced b lastUpdateId bids asks,
        hmismatch, huncrossed⟩

theorem wellFormed_setTickerBbo {b : Book} (h : b.WellFormed) (bid ask : Decimal) :
    (b.setTickerBbo bid ask).WellFormed := ⟨h.bounded, h.uninitialized, h.live⟩

theorem wellFormed_reset (b : Book) : b.reset.WellFormed where
  bounded := Nat.zero_le _
  uninitialized _ := ⟨rfl, rfl, rfl, rfl, rfl⟩
  live h := by simp [reset] at h

theorem wellFormed_markForResync (b : Book) : b.markForResync.WellFormed :=
  .of_buffering rfl (Nat.zero_le _)

theorem wellFormed_call {b : Book} (h : b.WellFormed) (op : BookOp) :
    (b.call op).2.WellFormed := by
  cases op with
  | onDepth e => exact wellFormed_onDepth h e
  | onSnapshot lastUpdateId bids asks => exact wellFormed_onSnapshot h lastUpdateId bids asks
  | setTickerBbo bid ask => exact wellFormed_setTickerBbo h bid ask
  | markForResync => exact wellFormed_markForResync b
  | reset => exact wellFormed_reset b

theorem wellFormed_reachable {symbol : String} {b : Book}
    (hb : (machine symbol).Reachable b) : b.WellFormed := by
  refine hb.invariant (I := WellFormed) ?_ fun b op h _ => wellFormed_call h op
  rintro b rfl
  exact wellFormed_new symbol

/-! ## What a consumer is shown -/

theorem bid_lt_ask {b : Book} (h : ¬ b.Crossed) {bid ask : Decimal × Decimal}
    (hbid : bid ∈ b.bids.entries) (hask : ask ∈ b.asks.entries) : bid.1 < ask.1 := by
  cases hmax : b.bids.maxKey? with
  | none => simp [OrderedMap.maxKey?_eq_none.mp hmax] at hbid
  | some best =>
      cases hmin : b.asks.minKey? with
      | none => simp [OrderedMap.minKey?_eq_none.mp hmin] at hask
      | some worst =>
          have hlt : ¬ worst ≤ best := fun hle => h ⟨best, worst, hmax, hmin, hle⟩
          rw [Decimal.le_iff_units] at hlt
          have hb : bid.1.units ≤ best.units := OrderedMap.le_maxKey? hmax hbid
          have ha : worst.units ≤ ask.1.units := OrderedMap.minKey?_le hmin hask
          rw [Decimal.lt_iff_units]
          omega

theorem topLevels_bids (b : Book) (n : Nat) :
    TopOf (fun x y : Decimal × Decimal => y.1 < x.1) n b.bids.entries (b.topLevels n).1 :=
  (topOf_take (List.pairwise_reverse.mpr b.bids.ascending) n).of_perm (List.reverse_perm _)

theorem topLevels_asks (b : Book) (n : Nat) :
    TopOf (fun x y : Decimal × Decimal => x.1 < y.1) n b.asks.entries (b.topLevels n).2 :=
  topOf_take b.asks.ascending n

theorem topLevels_uncrossed {b : Book} (h : ¬ b.Crossed) (n : Nat) :
    ∀ bid ∈ (b.topLevels n).1, ∀ ask ∈ (b.topLevels n).2, bid.1 < ask.1 := by
  intro bid hbid ask hask
  exact bid_lt_ask h ((b.topLevels_bids n).subset hbid) ((b.topLevels_asks n).subset hask)

theorem live_of_publish {b : Book} {e : DepthEvent} (h : (b.onDepth e).1 = .publish) :
    (b.onDepth e).2.state = .live := by
  have hstep := onDepth_step b e
  rw [h] at hstep
  generalize (b.onDepth e).2 = b' at hstep
  cases hstep with
  | published hstate => exact hstate

/-- No publicly visible book is malformed, under any sequence of calls. -/
theorem visible_book_not_malformed {symbol : String} {b : Book}
    (hb : (machine symbol).Reachable b) :
    (b.state = .live →
      b.buffer = [] ∧
      (∀ level ∈ b.bids.entries ++ b.asks.entries, level.2.isZero = false) ∧
      b.bboMismatchCount < 10 ∧
      ∀ bid ask, b.bids.maxKey? = some bid → b.asks.minKey? = some ask → bid < ask) ∧
    (b.state = .uninitialized →
      b.bids.entries = [] ∧ b.asks.entries = [] ∧ b.buffer = [] ∧ b.lastUpdateId = 0 ∧
        b.needFirstEvent = false) ∧
    b.buffer.length ≤ bufferMax ∧
    ∀ e, (b.onDepth e).1 = .publish → ∀ n,
      TopOf (fun x y : Decimal × Decimal => y.1 < x.1) n (b.onDepth e).2.bids.entries
        ((b.onDepth e).2.topLevels n).1 ∧
      TopOf (fun x y : Decimal × Decimal => x.1 < y.1) n (b.onDepth e).2.asks.entries
        ((b.onDepth e).2.topLevels n).2 ∧
      ∀ bid ∈ ((b.onDepth e).2.topLevels n).1, ∀ ask ∈ ((b.onDepth e).2.topLevels n).2,
        bid.1 < ask.1 := by
  have hwf := wellFormed_reachable hb
  refine ⟨fun hlive => ?_, fun hempty => ?_, hwf.bounded, fun e hpublish n => ?_⟩
  · obtain ⟨hbuffer, ⟨hbids, hasks⟩, hcount, huncrossed⟩ := hwf.live hlive
    refine ⟨hbuffer, fun level hlevel => ?_, hcount, fun bid ask hbid hask => ?_⟩
    · exact (List.mem_append.mp hlevel).elim (hbids level) (hasks level)
    · have hlt : ¬ ask ≤ bid := fun hle => huncrossed ⟨bid, ask, hbid, hask, hle⟩
      rw [Decimal.le_iff_units] at hlt
      rw [Decimal.lt_iff_units]
      omega
  · obtain ⟨hbids, hasks, hrest⟩ := hwf.uninitialized hempty
    exact ⟨by rw [hbids]; rfl, by rw [hasks]; rfl, hrest⟩
  · have hwf' := wellFormed_onDepth hwf e
    obtain ⟨-, -, -, huncrossed⟩ := hwf'.live (live_of_publish hpublish)
    exact ⟨topLevels_bids _ n, topLevels_asks _ n, topLevels_uncrossed huncrossed n⟩

/-- A book brought live by a snapshot at 5, with the event 1..10 buffered. -/
def quoted : Book := (machine "BTCUSDT").exec (new "BTCUSDT")
  [.onDepth ⟨1, 10, 0, [(.whole 100, .whole 1)], []⟩,
    .onSnapshot 5 [(.whole 98, .whole 2)] [(.whole 103, .whole 2)]]

/-- The book is live, and the next event of the chain publishes it. -/
theorem visible_book_not_malformed_quoted :
    quoted.buffer = [] ∧
    ∀ n, ∀ bid ∈ ((quoted.onDepth ⟨11, 20, 10, [], [(.whole 101, .whole 3)]⟩).2.topLevels n).1,
      ∀ ask ∈ ((quoted.onDepth ⟨11, 20, 10, [], [(.whole 101, .whole 3)]⟩).2.topLevels n).2,
        bid.1 < ask.1 := by
  have hreachable : (machine "BTCUSDT").Reachable quoted :=
    (Machine.Reachable.start rfl).exec _ (by simp [machine])
  have h := visible_book_not_malformed hreachable
  exact ⟨(h.1 (by decide)).1, fun n => (h.2.2.2 _ (by decide) n).2.2⟩

end Book

end FeedHandler
