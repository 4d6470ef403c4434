import FeedHandler.Decimal
import FeedHandler.Lib.KeyedEntries
import FeedHandler.Lib.Machine
import Mathlib.Data.Rat.Defs
/-!
# The order book state machine

`Book` of `rust/src/book.rs`, function by function. Functions that take
`&mut self` return the new book, after their own result when they have one. Ids
and counters are natural numbers: the code only compares ids, and no counter
gets near its width.
-/

namespace FeedHandler

open Lib

def bufferMax : Nat := 5000

def bboMismatchThreshold : Nat := 10

inductive BookState
  | uninitialized
  | buffering
  | live
deriving DecidableEq

inductive Action
  | publish
  | needSnapshot
  | none_
deriving DecidableEq

/-- (price, qty) levels for one side of the book, in message order. -/
abbrev Levels := List (Decimal × Decimal)

/-- `BTreeMap<Decimal, Decimal>`: ascending in price value. Writing under a
price already present keeps the key that is there. -/
abbrev Side := OrderedMap Decimal Decimal Decimal.units

structure DepthEvent where
  U : Nat
  u : Nat
  pu : Nat
  bids : Levels
  asks : Levels
deriving DecidableEq

namespace Side

/-- One assignment of a diff: quantity zero removes the level. -/
def applyLevel (side : Side) (level : Decimal × Decimal) : Side :=
  if level.2.isZero then side.erase level.1 else side.insert level.1 level.2

def applyLevels (side : Side) (levels : Levels) : Side := levels.foldl applyLevel side

/-- One level of a snapshot: only positive quantities are taken. -/
def loadLevel (side : Side) (level : Decimal × Decimal) : Side :=
  if Decimal.zero < level.2 then side.insert level.1 level.2 else side

def load (levels : Levels) : Side := levels.foldl loadLevel OrderedMap.empty

end Side

/-- One symbol's L2 order book, synced via depth diffs and REST snapshots.

State machine: uninitialized, then buffering, then live; on a sequence gap or an
integrity failure it falls back to buffering. -/
structure Book where
  symbol : String
  bids : Side
  asks : Side
  lastUpdateId : Nat
  state : BookState
  lastUpdateTime : Rat
  snapshotCount : Nat
  gapCount : Nat
  crossedCount : Nat
  /-- Diffs shed because the resync buffer was full. -/
  bufferDropped : Nat
  /-- Snapshots that went live with no buffered event to prove the bridge. -/
  unverifiedBridgeCount : Nat
  buffer : List DepthEvent
  needFirstEvent : Bool
  tickerBid : Decimal
  tickerAsk : Decimal
  bboMismatchCount : Nat

namespace Book

def new (symbol : String) : Book where
  symbol := symbol
  bids := OrderedMap.empty
  asks := OrderedMap.empty
  lastUpdateId := 0
  state := .uninitialized
  lastUpdateTime := 0
  snapshotCount := 0
  gapCount := 0
  crossedCount := 0
  bufferDropped := 0
  unverifiedBridgeCount := 0
  buffer := []
  needFirstEvent := false
  tickerBid := Decimal.zero
  tickerAsk := Decimal.zero
  bboMismatchCount := 0

def bufferPush (b : Book) (e : DepthEvent) : Book :=
  if b.buffer.length ≥ bufferMax then
    { b with buffer := b.buffer.tail ++ [e], bufferDropped := b.bufferDropped + 1 }
  else { b with buffer := b.buffer ++ [e] }

def fallBackToBuffering (b : Book) (e : DepthEvent) : Book :=
  { ({ b with state := .buffering, buffer := [] }.bufferPush e) with bboMismatchCount := 0 }

def applyDiff (b : Book) (bids asks : Levels) (u : Nat) : Book :=
  { b with
    bids := b.bids.applyLevels bids
    asks := b.asks.applyLevels asks
    lastUpdateId := u }

/-- Returns false if the book is detectably corrupt. -/
def checkIntegrity (b : Book) : Bool × Book :=
  match b.bids.maxKey?, b.asks.minKey? with
  | some bookBid, some bookAsk =>
      if bookAsk ≤ bookBid then
        (false, { b with crossedCount := b.crossedCount + 1 })
      else if !b.tickerBid.isZero && !b.tickerAsk.isZero then
        if bookBid.units ≠ b.tickerBid.units ∨ bookAsk.units ≠ b.tickerAsk.units then
          (decide (b.bboMismatchCount + 1 < bboMismatchThreshold),
            { b with bboMismatchCount := b.bboMismatchCount + 1 })
        else (true, { b with bboMismatchCount := 0 })
      else (true, b)
  -- one side is empty: nothing to compare
  | _, _ => (true, b)

/-- A live event that got past the sequence check is applied; the
`need_first_event` escape hatch is used up by it. -/
def applied (b : Book) (e : DepthEvent) : Book :=
  { b with needFirstEvent := false }.applyDiff e.bids e.asks e.u

/-- The live arm of `onDepth`, once past the sequence check. -/
def onSequenced (b : Book) (e : DepthEvent) : Action × Book :=
  match (b.applied e).checkIntegrity with
  | (true, checked) => (.publish, checked)
  | (false, checked) => (.needSnapshot, checked.fallBackToBuffering e)

def onLiveDepth (b : Book) (e : DepthEvent) : Action × Book :=
  if e.u ≤ b.lastUpdateId then (.none_, b)
  else if !b.needFirstEvent && e.pu != b.lastUpdateId then
    (.needSnapshot, { b with gapCount := b.gapCount + 1 }.fallBackToBuffering e)
  else b.onSequenced e

def onDepth (b : Book) (e : DepthEvent) : Action × Book :=
  match b.state with
  | .uninitialized => (.needSnapshot, { b with state := .buffering }.bufferPush e)
  | .buffering => (.none_, b.bufferPush e)
  | .live => b.onLiveDepth e

/-- How the replay loop of `onSnapshot` ends: `refused` is its early return. -/
inductive Replay
  | refused (b : Book)
  | done (appliedAny : Bool) (b : Book)

def replay (lastUpdateId : Nat) : List DepthEvent → Bool → Book → Replay
  | [], appliedAny, b => .done appliedAny b
  | e :: buffered, appliedAny, b =>
      if e.u < lastUpdateId then replay lastUpdateId buffered appliedAny b
      else if !appliedAny && decide (e.U > lastUpdateId) then
        -- the first replayed event must straddle the snapshot
        .refused b
      else if appliedAny && e.pu != b.lastUpdateId then .refused b
      else replay lastUpdateId buffered true (b.applyDiff e.bids e.asks e.u)

/-- The snapshot takes the place of the levels, and the buffer is drained. -/
def loadSnapshot (b : Book) (lastUpdateId : Nat) (bids asks : Levels) : Book :=
  { b with
    bids := Side.load bids
    asks := Side.load asks
    lastUpdateId := lastUpdateId
    snapshotCount := b.snapshotCount + 1
    buffer := [] }

/-- The book after a replay loop that went through. With nothing replayed the
bridge is unproven: the next live event is accepted without a `pu` check. -/
def goLive (b : Book) (appliedAny : Bool) : Book :=
  { b with
    state := .live
    needFirstEvent := !appliedAny
    unverifiedBridgeCount :=
      if !appliedAny then b.unverifiedBridgeCount + 1 else b.unverifiedBridgeCount
    bboMismatchCount := 0 }

/-- Apply a REST snapshot and replay buffered events. Returns true if live. -/
def onSnapshot (b : Book) (lastUpdateId : Nat) (bids asks : Levels) : Bool × Book :=
  if b.state ≠ .buffering then (true, b)
  else
    match replay lastUpdateId b.buffer false (b.loadSnapshot lastUpdateId bids asks) with
    | .refused b => (false, b)
    | .done appliedAny b =>
        match (b.goLive appliedAny).checkIntegrity with
        | (true, checked) => (true, checked)
        | (false, checked) => (false, { checked with state := .buffering })

def setTickerBbo (b : Book) (bid ask : Decimal) : Book :=
  { b with tickerBid := bid, tickerAsk := ask }

def reset (b : Book) : Book :=
  { b with
    bids := OrderedMap.empty
    asks := OrderedMap.empty
    lastUpdateId := 0
    state := .uninitialized
    buffer := []
    needFirstEvent := false
    tickerBid := Decimal.zero
    tickerAsk := Decimal.zero
    bboMismatchCount := 0 }

/-- Reset and re-enter buffering, so that a snapshot can be requested without
waiting for the next depth event. -/
def markForResync (b : Book) : Book := { b.reset with state := .buffering }

def topLevels (b : Book) (n : Nat) : Levels × Levels :=
  (b.bids.entries.reverse.take n, b.asks.entries.take n)

end Book

/-! ## Runs of a book -/

inductive BookOp
  | onDepth (e : DepthEvent)
  | onSnapshot (lastUpdateId : Nat) (bids asks : Levels)
  | setTickerBbo (bid ask : Decimal)
  | markForResync
  | reset

inductive Answer
  | action (a : Action)
  | live (b : Bool)
  | nothing
deriving DecidableEq

namespace Book

def call (b : Book) : BookOp → Answer × Book
  | .onDepth e => (.action (b.onDepth e).1, (b.onDepth e).2)
  | .onSnapshot lastUpdateId bids asks =>
      (.live (b.onSnapshot lastUpdateId bids asks).1, (b.onSnapshot lastUpdateId bids asks).2)
  | .setTickerBbo bid ask => (.nothing, b.setTickerBbo bid ask)
  | .markForResync => (.nothing, b.markForResync)
  | .reset => (.nothing, b.reset)

def machine (symbol : String) : Machine Book BookOp where
  initial b := b = new symbol
  enabled _ _ := True
  next b op := (b.call op).2

end Book

end FeedHandler
