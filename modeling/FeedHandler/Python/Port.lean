import FeedHandler.Python.Book
/-!
# The two ports are the same machine

`Ported` relates a book of one port to a book of the other: the same numbers,
flags and buffer, and sides that answer every lookup alike, although one keeps
its levels in price order and the other in order of insertion. Every operation
keeps it and returns the same, so the two books never differ in anything a
caller can see.
-/

namespace FeedHandler.Python

open Lib

abbrev Book.port (p : Book) (bids asks : FeedHandler.Side) : FeedHandler.Book where
  symbol := p.symbol
  bids := bids
  asks := asks
  lastUpdateId := p.lastUpdateId
  state := p.state
  lastUpdateTime := p.lastUpdateTime
  snapshotCount := p.snapshotCount
  gapCount := p.gapCount
  crossedCount := p.crossedCount
  bufferDropped := p.bufferDropped
  unverifiedBridgeCount := p.unverifiedBridgeCount
  buffer := p.buffer
  needFirstEvent := p.needFirstEvent
  tickerBid := p.tickerBid
  tickerAsk := p.tickerAsk
  bboMismatchCount := p.bboMismatchCount

/-- The two books differ only in how they keep their sides. -/
def Ported (r : FeedHandler.Book) (p : Book) : Prop :=
  ∃ bids asks, SameEntries bids p.bids ∧ SameEntries asks p.asks ∧ r = p.port bids asks

/-! ## Sides -/

theorem sameEntries_applyLevels {side : FeedHandler.Side} {dict : Side}
    (h : SameEntries side dict) (levels : Levels) :
    SameEntries (side.applyLevels levels) (dict.applyLevels levels) := by
  induction levels generalizing side dict with
  | nil => exact h
  | cons level levels ih =>
      refine ih ?_
      unfold FeedHandler.Side.applyLevel Side.applyLevel
      split_ifs
      · exact h.erase level.1
      · exact h.insert level.1 level.2

theorem sameEntries_load (levels : Levels) :
    SameEntries (FeedHandler.Side.load levels) (Side.load levels) := by
  have hfold : ∀ (side : FeedHandler.Side) (dict : Side), SameEntries side dict →
      SameEntries (levels.foldl FeedHandler.Side.loadLevel side)
        ((levels.filter fun level => decide (Decimal.zero < level.2)).foldl
          (fun side level => side.insert level.1 level.2) dict) := by
    induction levels with
    | nil => exact fun _ _ h => h
    | cons level levels ih =>
        intro side dict h
        by_cases hpos : Decimal.zero < level.2
        · rw [List.filter_cons_of_pos (by simpa using hpos), List.foldl_cons, List.foldl_cons,
            FeedHandler.Side.loadLevel, if_pos hpos]
          exact ih _ _ (h.insert level.1 level.2)
        · rw [List.filter_cons_of_neg (by simpa using hpos), List.foldl_cons,
            FeedHandler.Side.loadLevel, if_neg hpos]
          exact ih _ _ h
  exact hfold _ _ SameEntries.empty

theorem dequeAppend_eq (queue : List DepthEvent) (e : DepthEvent) :
    dequeAppend bufferMax queue e =
      if queue.length ≥ bufferMax then queue.tail ++ [e] else queue ++ [e] := by
  unfold dequeAppend
  rw [List.length_append, List.length_singleton]
  split_ifs with hover hfull hfull
  · cases queue with
    | nil => simp [bufferMax] at hfull
    | cons d queue => rfl
  · omega
  · omega
  · rfl

namespace Ported

variable {r : FeedHandler.Book} {p : Book}

theorem new (symbol : String) : Ported (FeedHandler.Book.new symbol) (Book.new symbol) :=
  ⟨_, _, SameEntries.empty, SameEntries.empty, rfl⟩

theorem reset (h : Ported r p) : Ported r.reset p.reset := by
  obtain ⟨bids, asks, -, -, rfl⟩ := h
  exact ⟨_, _, SameEntries.empty, SameEntries.empty, rfl⟩

theorem withState (h : Ported r p) (state : BookState) :
    Ported { r with state := state } { p with state := state } := by
  obtain ⟨bids, asks, hbids, hasks, rfl⟩ := h
  exact ⟨bids, asks, hbids, hasks, rfl⟩

theorem bufferPush (h : Ported r p) (e : DepthEvent) :
    Ported (r.bufferPush e) (p.bufferPush e) := by
  obtain ⟨bids, asks, hbids, hasks, rfl⟩ := h
  refine ⟨bids, asks, ?_⟩
  by_cases hfull : p.buffer.length ≥ bufferMax
  · simp only [Book.bufferPush, FeedHandler.Book.bufferPush, Book.port, dequeAppend_eq,
      if_pos hfull]
    exact ⟨hbids, hasks, trivial⟩
  · simp only [Book.bufferPush, FeedHandler.Book.bufferPush, Book.port, dequeAppend_eq,
      if_neg hfull]
    exact ⟨hbids, hasks, trivial⟩

theorem toBuffering (h : Ported r p) (e : DepthEvent) :
    Ported (r.fallBackToBuffering e) (p.toBuffering e) := by
  have hcleared : Ported { r with state := .buffering, buffer := [] }
      { p with state := .buffering, buffer := [] } := by
    obtain ⟨bids, asks, hbids, hasks, rfl⟩ := h
    exact ⟨bids, asks, hbids, hasks, rfl⟩
  obtain ⟨bids, asks, hbids, hasks, heq⟩ := hcleared.bufferPush e
  refine ⟨bids, asks, hbids, hasks, ?_⟩
  rw [FeedHandler.Book.fallBackToBuffering, heq]
  rfl

theorem applyDiff (h : Ported r p) (bids asks : Levels) (u : Nat) :
    Ported (r.applyDiff bids asks u) (p.applyDiff bids asks u) := by
  obtain ⟨rbids, rasks, hbids, hasks, rfl⟩ := h
  exact ⟨_, _, sameEntries_applyLevels hbids bids, sameEntries_applyLevels hasks asks, rfl⟩

theorem checkIntegrity (h : Ported r p) :
    r.checkIntegrity.1 = p.checkIntegrity.1 ∧ Ported r.checkIntegrity.2 p.checkIntegrity.2 := by
  obtain ⟨bids, asks, hbids, hasks, rfl⟩ := h
  unfold FeedHandler.Book.checkIntegrity Book.checkIntegrity
  rw [hbids.maxKey?_eq, hasks.minKey?_eq]
  have hsame : Ported (p.port bids asks) p := ⟨bids, asks, hbids, hasks, rfl⟩
  simp only [Book.port] at hsame ⊢
  cases bids.maxKey? with
  | none => exact ⟨rfl, hsame⟩
  | some bid =>
      cases asks.minKey? with
      | none => exact ⟨rfl, hsame⟩
      | some ask =>
          dsimp only
          split_ifs with hcrossed hticker hdiffers hover
          · exact ⟨rfl, bids, asks, hbids, hasks, rfl⟩
          · exact ⟨decide_eq_false (by omega), bids, asks, hbids, hasks, rfl⟩
          · exact ⟨decide_eq_true (by omega), bids, asks, hbids, hasks, rfl⟩
          · exact ⟨rfl, bids, asks, hbids, hasks, rfl⟩
          · exact ⟨rfl, hsame⟩

/-! ## `onDepth` -/

theorem onSequenced (h : Ported { r with needFirstEvent := false } p) (e : DepthEvent) :
    (r.onSequenced e).1 = (p.onSequenced e).1 ∧
      Ported (r.onSequenced e).2 (p.onSequenced e).2 := by
  have happlied : Ported (r.applied e) (p.applyDiff e.bids e.asks e.u) :=
    h.applyDiff e.bids e.asks e.u
  obtain ⟨hok, hchecked⟩ := happlied.checkIntegrity
  unfold FeedHandler.Book.onSequenced Book.onSequenced
  generalize (r.applied e).checkIntegrity = result at hok hchecked ⊢
  obtain ⟨ok, checked⟩ := result
  dsimp only at hok hchecked ⊢
  rw [← hok]
  cases ok with
  | true => exact ⟨rfl, hchecked⟩
  | false => exact ⟨rfl, hchecked.toBuffering e⟩

theorem onDepth (h : Ported r p) (e : DepthEvent) :
    (r.onDepth e).1 = (p.onDepth e).1 ∧ Ported (r.onDepth e).2 (p.onDepth e).2 := by
  have hpushed := (h.withState .buffering).bufferPush e
  have hbuffered := h.bufferPush e
  have hgap : Ported { r with gapCount := r.gapCount + 1 }
      { p with gapCount := p.gapCount + 1 } := by
    obtain ⟨bids, asks, hbids, hasks, rfl⟩ := h
    exact ⟨bids, asks, hbids, hasks, rfl⟩
  have hfirst : Ported { r with needFirstEvent := false } { p with needFirstEvent := false } := by
    obtain ⟨bids, asks, hbids, hasks, rfl⟩ := h
    exact ⟨bids, asks, hbids, hasks, rfl⟩
  have hstate : r.state = p.state := by
    obtain ⟨bids, asks, -, -, rfl⟩ := h
    rfl
  have hid : r.lastUpdateId = p.lastUpdateId := by
    obtain ⟨bids, asks, -, -, rfl⟩ := h
    rfl
  have hneed : r.needFirstEvent = p.needFirstEvent := by
    obtain ⟨bids, asks, -, -, rfl⟩ := h
    rfl
  have hp : p.state = .uninitialized ∨ p.state = .buffering ∨ p.state = .live := by
    cases p.state <;> simp
  rcases hp with hp | hp | hp
  · simp only [FeedHandler.Book.onDepth, hstate.trans hp, Book.onDepth, if_pos hp]
    exact ⟨trivial, hpushed⟩
  · simp only [FeedHandler.Book.onDepth, hstate.trans hp, Book.onDepth]
    rw [if_neg (by simp [hp]), if_pos hp]
    exact ⟨rfl, hbuffered⟩
  · simp only [FeedHandler.Book.onDepth, hstate.trans hp, Book.onDepth]
    rw [if_neg (by simp [hp]), if_neg (by simp [hp]), FeedHandler.Book.onLiveDepth]
    by_cases hu : e.u ≤ p.lastUpdateId
    · rw [if_pos (hid ▸ hu), if_pos hu]
      exact ⟨rfl, h⟩
    · rw [if_neg (hid ▸ hu), if_neg hu]
      by_cases hn : p.needFirstEvent = true
      · rw [if_neg (by simp [hneed, hn]), if_pos hn]
        exact hfirst.onSequenced e
      · by_cases hpu : e.pu = p.lastUpdateId
        · rw [if_neg (by simp [hid, hpu]), if_neg hn, if_neg (by simp [hpu])]
          have hdone : Ported { r with needFirstEvent := false } p := by
            obtain ⟨bids, asks, hbids, hasks, rfl⟩ := h
            exact ⟨bids, asks, hbids, hasks, by simp [hn]⟩
          exact hdone.onSequenced e
        · rw [if_pos (by simp [hid, hneed, hn, hpu]), if_neg hn, if_pos hpu]
          exact ⟨rfl, hgap.toBuffering e⟩

/-! ## `onSnapshot` -/

theorem replay (h : Ported r p) (lastUpdateId : Nat) (buffer : List DepthEvent)
    (appliedAny : Bool) :
    match FeedHandler.Book.replay lastUpdateId buffer appliedAny r with
    | .refused r' => (Book.replay lastUpdateId buffer appliedAny p).1 = none ∧
        Ported r' (Book.replay lastUpdateId buffer appliedAny p).2
    | .done applied r' => (Book.replay lastUpdateId buffer appliedAny p).1 = some applied ∧
        Ported r' (Book.replay lastUpdateId buffer appliedAny p).2 := by
  induction buffer generalizing r p appliedAny with
  | nil => exact ⟨rfl, h⟩
  | cons e buffer ih =>
      have hid : r.lastUpdateId = p.lastUpdateId := by
        obtain ⟨bids, asks, -, -, rfl⟩ := h
        rfl
      have hnext := ih (h.applyDiff e.bids e.asks e.u) true
      by_cases hold : e.u < lastUpdateId
      · simpa [FeedHandler.Book.replay, Book.replay, hold] using ih h appliedAny
      · cases appliedAny with
        | false =>
            by_cases hU : e.U > lastUpdateId
            · simpa [FeedHandler.Book.replay, Book.replay, hold, hU] using h
            · simpa [FeedHandler.Book.replay, Book.replay, hold, hU] using hnext
        | true =>
            by_cases hpu : e.pu = p.lastUpdateId
            · simpa [FeedHandler.Book.replay, Book.replay, hold, hid, hpu] using hnext
            · simpa [FeedHandler.Book.replay, Book.replay, hold, hid, hpu] using h

theorem goLive (h : Ported r p) (appliedAny : Bool) :
    Ported (r.goLive appliedAny) (p.goLive appliedAny) := by
  obtain ⟨bids, asks, hbids, hasks, rfl⟩ := h
  cases appliedAny <;> exact ⟨bids, asks, hbids, hasks, rfl⟩

theorem onSnapshot (h : Ported r p) (lastUpdateId : Nat) (bids asks : Levels) :
    (r.onSnapshot lastUpdateId bids asks).1 = (p.onSnapshot lastUpdateId bids asks).1 ∧
      Ported (r.onSnapshot lastUpdateId bids asks).2 (p.onSnapshot lastUpdateId bids asks).2 := by
  have hloaded : Ported (r.loadSnapshot lastUpdateId bids asks)
      (p.loadSnapshot lastUpdateId bids asks) := by
    obtain ⟨rbids, rasks, -, -, rfl⟩ := h
    exact ⟨_, _, sameEntries_load bids, sameEntries_load asks, rfl⟩
  have hstate : r.state = p.state ∧ r.buffer = p.buffer := by
    obtain ⟨rbids, rasks, -, -, rfl⟩ := h
    exact ⟨rfl, rfl⟩
  have hreplay := hloaded.replay lastUpdateId p.buffer false
  unfold FeedHandler.Book.onSnapshot Book.onSnapshot
  rw [hstate.1, hstate.2]
  split_ifs with hnot
  · exact ⟨rfl, h⟩
  · generalize FeedHandler.Book.replay lastUpdateId p.buffer false
      (r.loadSnapshot lastUpdateId bids asks) = rust at hreplay ⊢
    generalize Book.replay lastUpdateId p.buffer false
      (p.loadSnapshot lastUpdateId bids asks) = python at hreplay ⊢
    obtain ⟨outcome, p'⟩ := python
    cases rust with
    | refused r' =>
        obtain ⟨rfl, hp'⟩ := hreplay
        exact ⟨rfl, hp'⟩
    | done applied r' =>
        obtain ⟨rfl, hp'⟩ := hreplay
        obtain ⟨hok, hchecked⟩ := (hp'.goLive applied).checkIntegrity
        dsimp only
        generalize (r'.goLive applied).checkIntegrity = result at hok hchecked ⊢
        obtain ⟨ok, checked⟩ := result
        dsimp only at hok hchecked ⊢
        rw [← hok]
        cases ok with
        | true => exact ⟨rfl, hchecked⟩
        | false => exact ⟨rfl, hchecked.withState .buffering⟩

/-! ## The whole interface -/

theorem call (h : Ported r p) (op : BookOp) :
    (r.call op).1 = (p.call op).1 ∧ Ported (r.call op).2 (p.call op).2 := by
  cases op with
  | onDepth e =>
      obtain ⟨hanswer, hnext⟩ := h.onDepth e
      exact ⟨congrArg Answer.action hanswer, hnext⟩
  | onSnapshot lastUpdateId bids asks =>
      obtain ⟨hanswer, hnext⟩ := h.onSnapshot lastUpdateId bids asks
      exact ⟨congrArg Answer.live hanswer, hnext⟩
  | setTickerBbo bid ask =>
      obtain ⟨bids, asks, hbids, hasks, rfl⟩ := h
      exact ⟨rfl, bids, asks, hbids, hasks, rfl⟩
  | markForResync => exact ⟨rfl, h.reset.withState .buffering⟩
  | reset => exact ⟨rfl, h.reset⟩

theorem topLevels (h : Ported r p) (n : Nat) : r.topLevels n = p.topLevels n := by
  obtain ⟨bids, asks, hbids, hasks, rfl⟩ := h
  simp only [FeedHandler.Book.topLevels, Book.topLevels, hbids.sortedDown_eq, hasks.sorted_eq]

end Ported

/-- Whatever is called, in whatever order, the two ports answer alike and end in
books with the same state, ids, counters and best levels. -/
theorem ports_same_machine (symbol : String) (ops : List BookOp) :
    answers FeedHandler.Book.call (FeedHandler.Book.new symbol) ops =
      answers Book.call (Book.new symbol) ops ∧
    (final FeedHandler.Book.call (FeedHandler.Book.new symbol) ops).state =
      (final Book.call (Book.new symbol) ops).state ∧
    (final FeedHandler.Book.call (FeedHandler.Book.new symbol) ops).lastUpdateId =
      (final Book.call (Book.new symbol) ops).lastUpdateId ∧
    (final FeedHandler.Book.call (FeedHandler.Book.new symbol) ops).gapCount =
      (final Book.call (Book.new symbol) ops).gapCount ∧
    (final FeedHandler.Book.call (FeedHandler.Book.new symbol) ops).crossedCount =
      (final Book.call (Book.new symbol) ops).crossedCount ∧
    (final FeedHandler.Book.call (FeedHandler.Book.new symbol) ops).snapshotCount =
      (final Book.call (Book.new symbol) ops).snapshotCount ∧
    (final FeedHandler.Book.call (FeedHandler.Book.new symbol) ops).unverifiedBridgeCount =
      (final Book.call (Book.new symbol) ops).unverifiedBridgeCount ∧
    (final FeedHandler.Book.call (FeedHandler.Book.new symbol) ops).bufferDropped =
      (final Book.call (Book.new symbol) ops).bufferDropped ∧
    ∀ n, (final FeedHandler.Book.call (FeedHandler.Book.new symbol) ops).topLevels n =
      (final Book.call (Book.new symbol) ops).topLevels n := by
  obtain ⟨hanswers, hported⟩ := lockstep (R := Ported) (fun r p op h => h.call op) ops
    (Ported.new symbol)
  have htop := hported.topLevels
  generalize final FeedHandler.Book.call (FeedHandler.Book.new symbol) ops = r at hported htop ⊢
  obtain ⟨bids, asks, -, -, rfl⟩ := hported
  exact ⟨hanswers, rfl, rfl, rfl, rfl, rfl, rfl, rfl, htop⟩

end FeedHandler.Python
