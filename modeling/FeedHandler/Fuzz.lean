import FeedHandler.Book.Sources
import Mathlib.Data.UInt
/-!
# The fuzz driver

`fuzz` of `rust/src/main.rs`: a generator of scripts for one book, and the digest of the
book after every call. The variables of `run` are the state of the driver; the functions
that take `&mut Lcg` use its generator only.
-/

namespace FeedHandler

namespace Decimal

/-- What a driver needs of the decimals: whole numbers are read and written in plain
digits. -/
structure Texts where
  parse : String → Option Decimal
  display : Decimal → String
  parse_whole : ∀ (n : Nat) (h : n < 2 ^ 96), parse (toString n) = some (whole n h)
  display_whole : ∀ (n : Nat) (h : n < 2 ^ 96), display (whole n h) = toString n

/-- `parse().unwrap()`, of texts that do parse. -/
def Texts.read (t : Texts) (text : String) : Decimal := (t.parse text).getD zero

theorem Texts.read_whole (t : Texts) (n : Nat) (h : n < 2 ^ 96) :
    t.read (toString n) = whole n h := by
  rw [read, t.parse_whole n h, Option.getD_some]

def IsWhole (d : Decimal) : Prop := d.negative = false ∧ d.scale = 0

theorem isWhole_whole (n : Nat) (h : n < 2 ^ 96) : (whole n h).IsWhole := ⟨rfl, rfl⟩

theorem Texts.display_eq (t : Texts) {d : Decimal} (h : d.IsWhole) :
    t.display d = toString d.coefficient := by
  obtain ⟨negative, coefficient, scale, hlt, hle⟩ := d
  obtain ⟨rfl, rfl⟩ : negative = false ∧ scale = 0 := h
  exact t.display_whole coefficient hlt

end Decimal

namespace Fuzz

open Decimal (Texts)

def bidPrices : List String := ["100", "99", "98"]

def askPrices : List String := ["101", "102", "103"]

structure Lcg where
  state : UInt64

def Lcg.next (rng : Lcg) : UInt64 × Lcg :=
  let state := rng.state * 6364136223846793005 + 1442695040888963407
  (state >>> 33, ⟨state⟩)

structure Driver where
  rng : Lcg
  seq : UInt64
  book : Book

def below (n : UInt64) : StateM Driver UInt64 :=
  modifyGet fun d => (d.rng.next.1 % n, { d with rng := d.rng.next.2 })

def level (t : Texts) (prices : List String) : StateM Driver (Decimal × Decimal) := do
  let i ← below 3
  let price := prices.getD i.toNat ""
  let delete ← below 4
  if delete = 0 then pure (t.read price, t.read "0")
  else do
    let qty ← below 9
    pure (t.read price, t.read (toString (qty + 1)))

def levels (t : Texts) (prices : List String) : StateM Driver Levels := do
  let n ← below 3
  (List.range n.toNat).mapM fun _ => level t prices

def stateStr : BookState → String
  | .uninitialized => "uninitialized"
  | .buffering => "buffering"
  | .live => "live"

def actionStr : Action → Option String
  | .publish => some "publish"
  | .needSnapshot => some "need_snapshot"
  | .none_ => none

structure Digest where
  step : Nat
  op : String
  action : Option String
  state : String
  lastUpdateId : Nat
  bids : Nat
  asks : Nat
  topBids : List (String × String)
  topAsks : List (String × String)
  gaps : Nat
  crossed : Nat
  snapshots : Nat
  unverifiedBridges : Nat
  bufferDropped : Nat
deriving DecidableEq

def levelTexts (t : Texts) (levels : Levels) : List (String × String) :=
  levels.map fun level => (t.display level.1, t.display level.2)

def digest (t : Texts) (step : Nat) (op : String) (action : Option String) (b : Book) : Digest where
  step := step
  op := op
  action := action
  state := stateStr b.state
  lastUpdateId := b.lastUpdateId
  bids := b.bids.entries.length
  asks := b.asks.entries.length
  topBids := levelTexts t (b.topLevels 3).1
  topAsks := levelTexts t (b.topLevels 3).2
  gaps := b.gapCount
  crossed := b.crossedCount
  snapshots := b.snapshotCount
  unverifiedBridges := b.unverifiedBridgeCount
  bufferDropped := b.bufferDropped

def digested {α : Type} (t : Texts) (step : Nat) (op : String) (action : α → Option String)
    (f : Book → α × Book) : StateM Driver Digest :=
  modifyGet fun d =>
    (digest t step op (action (f d.book).1) (f d.book).2, { d with book := (f d.book).2 })

/-- Nothing is skipped, or ten to fifty ids are. -/
def skip (roll : UInt64) : StateM Driver UInt64 :=
  if roll < 55 then pure 0
  else do
    let k ← below 5
    pure (10 * (1 + k))

/-- Contiguous diff, or one that deliberately skips the sequence. -/
def depth (t : Texts) (step : Nat) (roll : UInt64) : StateM Driver Digest := do
  let skip ← skip roll
  let bids ← levels t bidPrices
  let asks ← levels t askPrices
  let seq ← modifyGet fun d => (d.seq, { d with seq := d.seq + skip + 10 })
  digested t step (if skip = 0 then "depth" else "depth_gap") actionStr fun b =>
    b.onDepth
      { U := (seq + skip + 1).toNat
        u := (seq + skip + 10).toNat
        pu := (seq + skip).toNat
        bids := bids
        asks := asks }

def saturatingSub (a b : UInt64) : UInt64 := if b ≤ a then a - b else 0

/-- The id of a snapshot: at, ahead of or behind the sequence. -/
def snapshotId : StateM Driver UInt64 := do
  let r ← below 3
  if r = 0 then modifyGet fun d => (d.seq, d)
  else if r = 1 then do
    let k ← below 3
    modifyGet fun d => (d.seq + 10 * (1 + k), d)
  else do
    let k ← below 3
    modifyGet fun d => (saturatingSub d.seq (10 * (1 + k)), d)

def snapshot (t : Texts) (step : Nat) : StateM Driver Digest := do
  let lui ← snapshotId
  let bids ← levels t bidPrices
  let asks ← levels t askPrices
  digested t step "snapshot" (fun ok => some (if ok then "live" else "retry")) fun b =>
    b.onSnapshot lui.toNat bids asks

def ticker (t : Texts) (step : Nat) : StateM Driver Digest := do
  let i ← below 3
  let j ← below 3
  let bid := t.read (bidPrices.getD i.toNat "")
  let ask := t.read (askPrices.getD j.toNat "")
  digested t step "ticker" (fun _ : Unit => none) fun b => ((), b.setTickerBbo bid ask)

def turn (t : Texts) (step : Nat) : StateM Driver Digest := do
  let roll ← below 100
  if roll < 55 ∨ 65 ≤ roll ∧ roll < 78 then depth t step roll
  else if roll < 88 then snapshot t step
  else if roll < 93 then
    -- a stale replay: `u` is far behind the last update id
    digested t step "stale" actionStr fun b => b.onDepth ⟨1, 2, 0, [], []⟩
  else if roll < 96 then digested t step "reset" (fun _ : Unit => none) fun b => ((), b.reset)
  else if roll < 98 then
    digested t step "mark_for_resync" (fun _ : Unit => none) fun b => ((), b.markForResync)
  else ticker t step

structure Report where
  seed : Nat
  steps : Nat
  digest : List Digest
deriving DecidableEq

def run (t : Texts) (seed : UInt64) (steps : Nat) : Report where
  seed := seed.toNat
  steps := steps
  digest := (((List.range steps).mapM (turn t)).run ⟨⟨seed⟩, 1000, Book.new "FUZZUSDT"⟩).1

end Fuzz

end FeedHandler
