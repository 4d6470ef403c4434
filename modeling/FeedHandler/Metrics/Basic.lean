import FeedHandler.Book.Basic
import Mathlib.Logic.Function.Basic
import Mathlib.Algebra.Order.Floor.Ring
import Mathlib.Data.Rat.Floor
/-!
# Telemetry of the Rust port

`Telemetry::gather`, `healthy` and `render_prometheus` of `rust/src/feed_handler.rs`.
The books come in the order in which the map yields them, the shard table as it is, and
the counters that are not kept in a book as one record. Event-time lags are exact
numbers.
-/

namespace FeedHandler.Metrics

/-- One shard, as `/stats` reports it. A shard without a sample has no latency. -/
structure ShardInfo where
  id : Nat
  connected : Bool
  msgCount : Nat
  lastMsgTime : Rat
  latencyMs : Option Rat

/-- The counters and gauges of the process that belong to no book. -/
structure Process where
  uptimeS : Nat
  bboPublished : Nat
  bookPublished : Nat
  snapshots : Nat
  bboDropped : Nat
  bookDropped : Nat
  subscriberDropped : Nat
  subscribers : Nat

/-- One consistent read of everything the observability surfaces report. -/
structure Telemetry where
  uptimeS : Nat
  shards : List ShardInfo
  connected : Nat
  /-- The map from the name of a state to its books; a state without one is absent. -/
  bookStates : String → Option Nat
  live : Nat
  total : Nat
  gaps : Nat
  crossed : Nat
  snapshotsPerBook : Nat
  unverifiedBridges : Nat
  bufferDropped : Nat
  maxLatencyMs : Option Rat
  bboPublished : Nat
  bookPublished : Nat
  snapshots : Nat
  bboDropped : Nat
  bookDropped : Nat
  subscriberDropped : Nat
  subscribers : Nat

def stateName : BookState → String
  | .uninitialized => "uninitialized"
  | .buffering => "buffering"
  | .live => "live"

/-- `*states.entry(name).or_default() += 1`. -/
def countState (states : String → Option Nat) (name : String) : String → Option Nat :=
  Function.update states name (some ((states name).getD 0 + 1))

structure Tally where
  bookStates : String → Option Nat
  live : Nat
  gaps : Nat
  crossed : Nat
  snapshotsPerBook : Nat
  unverifiedBridges : Nat
  bufferDropped : Nat

namespace Tally

def start : Tally where
  bookStates _ := none
  live := 0
  gaps := 0
  crossed := 0
  snapshotsPerBook := 0
  unverifiedBridges := 0
  bufferDropped := 0

def count (t : Tally) (b : Book) : Tally where
  bookStates := countState t.bookStates (stateName b.state)
  live := if b.state = .live then t.live + 1 else t.live
  gaps := t.gaps + b.gapCount
  crossed := t.crossed + b.crossedCount
  snapshotsPerBook := t.snapshotsPerBook + b.snapshotCount
  unverifiedBridges := t.unverifiedBridges + b.unverifiedBridgeCount
  bufferDropped := t.bufferDropped + b.bufferDropped

end Tally

/-- `iter().reduce(f64::max)`. -/
def maxLatency : List Rat → Option Rat
  | [] => none
  | x :: xs => some (xs.foldl max x)

def gather (books : List Book) (shards : List ShardInfo) (p : Process) : Telemetry :=
  let tally := books.foldl Tally.count Tally.start
  { uptimeS := p.uptimeS
    connected := (shards.filter ShardInfo.connected).length
    maxLatencyMs := maxLatency (shards.filterMap ShardInfo.latencyMs)
    shards := shards
    bookStates := tally.bookStates
    live := tally.live
    total := books.length
    gaps := tally.gaps
    crossed := tally.crossed
    snapshotsPerBook := tally.snapshotsPerBook
    unverifiedBridges := tally.unverifiedBridges
    bufferDropped := tally.bufferDropped
    bboPublished := p.bboPublished
    bookPublished := p.bookPublished
    snapshots := p.snapshots
    bboDropped := p.bboDropped
    bookDropped := p.bookDropped
    subscriberDropped := p.subscriberDropped
    subscribers := p.subscribers }

namespace Telemetry

def healthy (t : Telemetry) : Bool :=
  t.connected == t.shards.length && decide (t.live > t.total / 2)

def totalDropped (t : Telemetry) : Nat :=
  t.bboDropped + t.bookDropped + t.subscriberDropped + t.bufferDropped

def bookState (t : Telemetry) (state : String) : Nat := (t.bookStates state).getD 0

end Telemetry

/-- The nearest whole number, a tie to the even one. -/
def roundHalfEven (x : Rat) : Nat :=
  let whole := x.floor.toNat
  if x - whole < 1 / 2 then whole
  else if 1 / 2 < x - whole then whole + 1
  else if whole % 2 = 0 then whole
  else whole + 1

/-- `format!("{:.1}", x)` and `f"{x:.1f}"`. -/
def fixed1 (x : Rat) : String :=
  let tenths := roundHalfEven (|x| * 10)
  (if x < 0 then "-" else "") ++ toString (tenths / 10) ++ "." ++ toString (tenths % 10)

def metricFamilies : List String :=
  ["bfh_up", "bfh_uptime_seconds", "bfh_shards", "bfh_books", "bfh_published_total",
    "bfh_snapshot_requests_total", "bfh_book_snapshots_total", "bfh_sequence_gaps_total",
    "bfh_crossed_books_total", "bfh_unverified_bridges_total", "bfh_dropped_total",
    "bfh_subscribers", "bfh_shard_messages_total", "bfh_shard_latency_ms"]

/-- What the closure `gauge` pushes. -/
def gauge (name help kind body : String) : String :=
  "# HELP " ++ name ++ " " ++ help ++ "\n# TYPE " ++ name ++ " " ++ kind ++ "\n" ++ body

def shardMessages (s : ShardInfo) : String :=
  "bfh_shard_messages_total\x7bshard=\"" ++ toString s.id ++ "\"\x7d " ++ toString s.msgCount ++
    "\n"

def shardLatency (id : Nat) (latency : Rat) : String :=
  "bfh_shard_latency_ms\x7bshard=\"" ++ toString id ++ "\"\x7d " ++ fixed1 latency ++ "\n"

def renderPrometheus (t : Telemetry) : String :=
  gauge "bfh_up" "1 when every shard is connected and a majority of books are live" "gauge"
      ("bfh_up " ++ toString t.healthy.toNat ++ "\n") ++
    gauge "bfh_uptime_seconds" "Process uptime" "gauge"
      ("bfh_uptime_seconds " ++ toString t.uptimeS ++ "\n") ++
    gauge "bfh_shards" "WebSocket shards by connection state" "gauge"
      ("bfh_shards\x7bstate=\"connected\"\x7d " ++ toString t.connected ++
        "\nbfh_shards\x7bstate=\"disconnected\"\x7d " ++
        toString (t.shards.length - t.connected) ++ "\n") ++
    gauge "bfh_books" "Order books by sync state" "gauge"
      ("bfh_books\x7bstate=\"live\"\x7d " ++ toString (t.bookState "live") ++
        "\nbfh_books\x7bstate=\"buffering\"\x7d " ++ toString (t.bookState "buffering") ++
        "\nbfh_books\x7bstate=\"uninitialized\"\x7d " ++
        toString (t.bookState "uninitialized") ++ "\n") ++
    gauge "bfh_published_total" "Events published downstream" "counter"
      ("bfh_published_total\x7bstream=\"bbo\"\x7d " ++ toString t.bboPublished ++
        "\nbfh_published_total\x7bstream=\"book\"\x7d " ++ toString t.bookPublished ++ "\n") ++
    gauge "bfh_snapshot_requests_total" "REST depth snapshots requested" "counter"
      ("bfh_snapshot_requests_total " ++ toString t.snapshots ++ "\n") ++
    gauge "bfh_book_snapshots_total" "Snapshots successfully applied to a book" "counter"
      ("bfh_book_snapshots_total " ++ toString t.snapshotsPerBook ++ "\n") ++
    gauge "bfh_sequence_gaps_total" "Depth sequence gaps detected (pu chain broken)" "counter"
      ("bfh_sequence_gaps_total " ++ toString t.gaps ++ "\n") ++
    gauge "bfh_crossed_books_total" "Integrity failures where bid >= ask" "counter"
      ("bfh_crossed_books_total " ++ toString t.crossed ++ "\n") ++
    gauge "bfh_unverified_bridges_total"
      "Snapshots that went live without a buffered event proving U <= lastUpdateId <= u" "counter"
      ("bfh_unverified_bridges_total " ++ toString t.unverifiedBridges ++ "\n") ++
    gauge "bfh_dropped_total" "Messages shed, by shedding point" "counter"
      ("bfh_dropped_total\x7bqueue=\"bbo\"\x7d " ++ toString t.bboDropped ++
        "\nbfh_dropped_total\x7bqueue=\"book\"\x7d " ++ toString t.bookDropped ++
        "\nbfh_dropped_total\x7bqueue=\"subscriber\"\x7d " ++ toString t.subscriberDropped ++
        "\nbfh_dropped_total\x7bqueue=\"resync_buffer\"\x7d " ++ toString t.bufferDropped ++
        "\n") ++
    gauge "bfh_subscribers" "Connected downstream subscribers" "gauge"
      ("bfh_subscribers " ++ toString t.subscribers ++ "\n") ++
    gauge "bfh_shard_messages_total" "WebSocket messages received per shard" "counter"
      (String.join (t.shards.map shardMessages)) ++
    -- a shard with no sample yet emits no series
    gauge "bfh_shard_latency_ms" "Event-time to receive-time lag per shard" "gauge"
      (String.join ((t.shards.filterMap fun s => s.latencyMs.map fun l => (s.id, l)).map
        fun entry => shardLatency entry.1 entry.2))

end FeedHandler.Metrics
