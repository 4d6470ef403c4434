import FeedHandler.Book.Basic
/-!
# The order book of the Python port

`Book` of `python/book.py`, function by function. A dict keeps its keys in order
of insertion and finds them by value, so it is an `InsertionMap`; the resync
buffer is a deque of bounded length that evicts from the left by itself. The
states, actions and events are those of the other port.
-/

namespace FeedHandler.Python

open Lib

/-- `dict[Decimal, Decimal]`. -/
abbrev Side := InsertionMap Decimal Decimal Decimal.units

namespace Side

/-- One assignment of a diff: `pop(price, None)` or `side[price] = qty`. -/
def applyLevel (side : Side) (level : Decimal × Decimal) : Side :=
  if level.2.isZero then side.erase level.1 else side.insert level.1 level.2

def applyLevels (side : Side) (levels : Levels) : Side := levels.foldl applyLevel side

def load (levels : Levels) : Side :=
  (levels.filter fun level => decide (Decimal.zero < level.2)).foldl
    (fun side level => side.insert level.1 level.2) InsertionMap.empty

end Side

/-- `append` on a deque of bounded length. -/
def dequeAppend (maxlen : Nat) (queue : List DepthEvent) (e : DepthEvent) : List DepthEvent :=
  if (queue ++ [e]).length > maxlen then (queue ++ [e]).tail else queue ++ [e]

structure Book where
  symbol : String
  bids : Side
  asks : Side
  lastUpdateId : Nat
  state : BookState
  buffer : List DepthEvent
  lastUpdateTime : Rat
  snapshotCount : Nat
  gapCount : Nat
  crossedCount : Nat
  bufferDropped : Nat
  unverifiedBridgeCount : Nat
  needFirstEvent : Bool
  tickerBid : Decimal
  tickerAsk : Decimal
  bboMismatchCount : Nat

namespace Book

def new (symbol : String) : Book where
  symbol := symbol
  bids := InsertionMap.empty
  asks := InsertionMap.empty
  lastUpdateId := 0
  state := .uninitialized
  buffer := []
  lastUpdateTime := 0
  snapshotCount := 0
  gapCount := 0
  crossedCount := 0
  bufferDropped := 0
  unverifiedBridgeCount := 0
  needFirstEvent := false
  tickerBid := Decimal.zero
  tickerAsk := Decimal.zero
  bboMismatchCount := 0

def bufferPush (b : Book) (e : DepthEvent) : Book :=
  let counted : Book :=
    if b.buffer.length ≥ bufferMax then { b with bufferDropped := b.bufferDropped + 1 } else b
  { counted with buffer := dequeAppend bufferMax counted.buffer e }

def toBuffering (b : Book) (e : DepthEvent) : Book :=
  { ({ b with state := .buffering, buffer := [] }.bufferPush e) with bboMismatchCount := 0 }

def applyDiff (b : Book) (bids asks : Levels) (u : Nat) : Book :=
  { b with
    bids := b.bids.applyLevels bids
    asks := b.asks.applyLevels asks
    lastUpdateId := u }

/-- Returns false if the book is detectably corrupt. `max` and `min` of a dict are
those of its keys. -/
def checkIntegrity (b : Book) : Bool × Book :=
  match b.bids.maxKey?, b.asks.minKey? with
  | some bookBid, some bookAsk =>
      if bookAsk ≤ bookBid then
        (false, { b with crossedCount := b.crossedCount + 1 })
      -- a decimal is true when it is not zero
      else if !b.tickerBid.isZero && !b.tickerAsk.isZero then
        if bookBid.units ≠ b.tickerBid.units ∨ bookAsk.units ≠ b.tickerAsk.units then
          if b.bboMismatchCount + 1 ≥ bboMismatchThreshold then
            (false, { b with bboMismatchCount := b.bboMismatchCount + 1 })
          else (true, { b with bboMismatchCount := b.bboMismatchCount + 1 })
        else (true, { b with bboMismatchCount := 0 })
      else (true, b)
  | _, _ => (true, b)

def onSequenced (b : Book) (e : DepthEvent) : Action × Book :=
  let applied := b.applyDiff e.bids e.asks e.u
  if applied.checkIntegrity.1 then (.publish, applied.checkIntegrity.2)
  else (.needSnapshot, applied.checkIntegrity.2.toBuffering e)

def onDepth (b : Book) (e : DepthEvent) : Action × Book :=
  if b.state = .uninitialized then
    (.needSnapshot, { b with state := .buffering }.bufferPush e)
  else if b.state = .buffering then (.none_, b.bufferPush e)
  else if e.u ≤ b.lastUpdateId then (.none_, b)
  else if b.needFirstEvent then { b with needFirstEvent := false }.onSequenced e
  else if e.pu ≠ b.lastUpdateId then
    (.needSnapshot, { b with gapCount := b.gapCount + 1 }.toBuffering e)
  else b.onSequenced e

/-- The loop over the drained buffer: `none` for its early return, else whether
anything was applied. -/
def replay (lastUpdateId : Nat) : List DepthEvent → Bool → Book → Option Bool × Book
  | [], appliedAny, b => (some appliedAny, b)
  | e :: buffered, appliedAny, b =>
      if e.u < lastUpdateId then replay lastUpdateId buffered appliedAny b
      else if !appliedAny then
        if e.U > lastUpdateId then (none, b)
        else replay lastUpdateId buffered true (b.applyDiff e.bids e.asks e.u)
      else if e.pu ≠ b.lastUpdateId then (none, b)
      else replay lastUpdateId buffered true (b.applyDiff e.bids e.asks e.u)

def loadSnapshot (b : Book) (lastUpdateId : Nat) (bids asks : Levels) : Book :=
  { b with
    bids := Side.load bids
    asks := Side.load asks
    lastUpdateId := lastUpdateId
    snapshotCount := b.snapshotCount + 1
    buffer := [] }

def goLive (b : Book) (appliedAny : Bool) : Book :=
  let live : Book := { b with state := .live, needFirstEvent := !appliedAny }
  let counted : Book :=
    if !appliedAny then { live with unverifiedBridgeCount := live.unverifiedBridgeCount + 1 }
    else live
  { counted with bboMismatchCount := 0 }

/-- Apply a REST snapshot and replay buffered events. Returns true if live. -/
def onSnapshot (b : Book) (lastUpdateId : Nat) (bids asks : Levels) : Bool × Book :=
  if b.state ≠ .buffering then (true, b)
  else
    match replay lastUpdateId b.buffer false (b.loadSnapshot lastUpdateId bids asks) with
    | (none, b) => (false, b)
    | (some appliedAny, b) =>
        let checked := (b.goLive appliedAny).checkIntegrity
        if checked.1 then (true, checked.2) else (false, { checked.2 with state := .buffering })

def setTickerBbo (b : Book) (bid ask : Decimal) : Book :=
  { b with tickerBid := bid, tickerAsk := ask }

def reset (b : Book) : Book :=
  { b with
    bids := InsertionMap.empty
    asks := InsertionMap.empty
    lastUpdateId := 0
    state := .uninitialized
    buffer := []
    needFirstEvent := false
    tickerBid := Decimal.zero
    tickerAsk := Decimal.zero
    bboMismatchCount := 0 }

def markForResync (b : Book) : Book := { b.reset with state := .buffering }

def topLevels (b : Book) (n : Nat) : Levels × Levels :=
  (b.bids.sortedDown.take n, b.asks.sorted.take n)

def call (b : Book) : BookOp → Answer × Book
  | .onDepth e => (.action (b.onDepth e).1, (b.onDepth e).2)
  | .onSnapshot lastUpdateId bids asks =>
      (.live (b.onSnapshot lastUpdateId bids asks).1, (b.onSnapshot lastUpdateId bids asks).2)
  | .setTickerBbo bid ask => (.nothing, b.setTickerBbo bid ask)
  | .markForResync => (.nothing, b.markForResync)
  | .reset => (.nothing, b.reset)

end Book

end FeedHandler.Python
