import FeedHandler.Metrics.Basic
import FeedHandler.Python.Port
/-!
# The page of the Python port

`gather_telemetry` and `render_prometheus` of `python/feed_handler.py`, function by
function. The two ports differ in how they count live books, in the order in which
their maps yield the books and in how they leave out shards without a sample; the page
is the same, so a dashboard cannot tell which port it watches.
-/

namespace FeedHandler.Python

open Lib Metrics

structure Tally where
  states : String → Option Nat
  gaps : Nat
  crossed : Nat
  snapsPerBook : Nat
  unverified : Nat
  bufDropped : Nat

namespace Tally

def start : Tally where
  states _ := none
  gaps := 0
  crossed := 0
  snapsPerBook := 0
  unverified := 0
  bufDropped := 0

def count (t : Tally) (b : Book) : Tally where
  states := countState t.states (stateName b.state)
  gaps := t.gaps + b.gapCount
  crossed := t.crossed + b.crossedCount
  snapsPerBook := t.snapsPerBook + b.snapshotCount
  unverified := t.unverified + b.unverifiedBridgeCount
  bufDropped := t.bufDropped + b.bufferDropped

end Tally

/-- `max(latencies) if latencies else None`. -/
def maxLatency (latencies : List Rat) : Option Rat := latencies.max?

def gatherTelemetry (books : List Book) (shards : List ShardInfo) (p : Process) : Telemetry :=
  let tally := books.foldl Tally.count Tally.start
  { uptimeS := p.uptimeS
    shards := shards
    connected := (shards.filter ShardInfo.connected).length
    bookStates := tally.states
    live := (tally.states "live").getD 0
    total := books.length
    gaps := tally.gaps
    crossed := tally.crossed
    snapshotsPerBook := tally.snapsPerBook
    unverifiedBridges := tally.unverified
    bufferDropped := tally.bufDropped
    maxLatencyMs := maxLatency (shards.filterMap ShardInfo.latencyMs)
    bboPublished := p.bboPublished
    bookPublished := p.bookPublished
    snapshots := p.snapshots
    bboDropped := p.bboDropped
    bookDropped := p.bookDropped
    subscriberDropped := p.subscriberDropped
    subscribers := p.subscribers }

/-- What the closure `family` appends. -/
def family (name helpText kind body : String) : String :=
  "# HELP " ++ name ++ " " ++ helpText ++ "\n# TYPE " ++ name ++ " " ++ kind ++ "\n" ++ body

def latencySeries (shards : List ShardInfo) : List String :=
  (shards.filter fun s => s.latencyMs.isSome).map fun s =>
    "bfh_shard_latency_ms\x7bshard=\"" ++ toString s.id ++ "\"\x7d " ++
      fixed1 (s.latencyMs.getD 0) ++ "\n"

def renderPrometheus (t : Telemetry) : String :=
  String.join
    [family "bfh_up" "1 when every shard is connected and a majority of books are live" "gauge"
      ("bfh_up " ++ toString t.healthy.toNat ++ "\n"),
    family "bfh_uptime_seconds" "Process uptime" "gauge"
      ("bfh_uptime_seconds " ++ toString t.uptimeS ++ "\n"),
    family "bfh_shards" "WebSocket shards by connection state" "gauge"
      ("bfh_shards\x7bstate=\"connected\"\x7d " ++ toString t.connected ++
        "\nbfh_shards\x7bstate=\"disconnected\"\x7d " ++
        toString (t.shards.length - t.connected) ++ "\n"),
    family "bfh_books" "Order books by sync state" "gauge"
      ("bfh_books\x7bstate=\"live\"\x7d " ++ toString (t.bookState "live") ++
        "\nbfh_books\x7bstate=\"buffering\"\x7d " ++ toString (t.bookState "buffering") ++
        "\nbfh_books\x7bstate=\"uninitialized\"\x7d " ++
        toString (t.bookState "uninitialized") ++ "\n"),
    family "bfh_published_total" "Events published downstream" "counter"
      ("bfh_published_total\x7bstream=\"bbo\"\x7d " ++ toString t.bboPublished ++
        "\nbfh_published_total\x7bstream=\"book\"\x7d " ++ toString t.bookPublished ++ "\n"),
    family "bfh_snapshot_requests_total" "REST depth snapshots requested" "counter"
      ("bfh_snapshot_requests_total " ++ toString t.snapshots ++ "\n"),
    family "bfh_book_snapshots_total" "Snapshots successfully applied to a book" "counter"
      ("bfh_book_snapshots_total " ++ toString t.snapshotsPerBook ++ "\n"),
    family "bfh_sequence_gaps_total" "Depth sequence gaps detected (pu chain broken)" "counter"
      ("bfh_sequence_gaps_total " ++ toString t.gaps ++ "\n"),
    family "bfh_crossed_books_total" "Integrity failures where bid >= ask" "counter"
      ("bfh_crossed_books_total " ++ toString t.crossed ++ "\n"),
    family "bfh_unverified_bridges_total"
      "Snapshots that went live without a buffered event proving U <= lastUpdateId <= u" "counter"
      ("bfh_unverified_bridges_total " ++ toString t.unverifiedBridges ++ "\n"),
    family "bfh_dropped_total" "Messages shed, by shedding point" "counter"
      ("bfh_dropped_total\x7bqueue=\"bbo\"\x7d " ++ toString t.bboDropped ++
        "\nbfh_dropped_total\x7bqueue=\"book\"\x7d " ++ toString t.bookDropped ++
        "\nbfh_dropped_total\x7bqueue=\"subscriber\"\x7d " ++ toString t.subscriberDropped ++
        "\nbfh_dropped_total\x7bqueue=\"resync_buffer\"\x7d " ++ toString t.bufferDropped ++
        "\n"),
    family "bfh_subscribers" "Connected downstream subscribers" "gauge"
      ("bfh_subscribers " ++ toString t.subscribers ++ "\n"),
    family "bfh_shard_messages_total" "WebSocket messages received per shard" "counter"
      (String.join (t.shards.map fun s =>
        "bfh_shard_messages_total\x7bshard=\"" ++ toString s.id ++ "\"\x7d " ++
          toString s.msgCount ++ "\n")),
    family "bfh_shard_latency_ms" "Event-time to receive-time lag per shard" "gauge"
      (String.join (latencySeries t.shards))]

/-! ## The books are counted alike -/

theorem countState_comm (states : String → Option Nat) (a b : String) :
    countState (countState states a) b = countState (countState states b) a := by
  by_cases hab : a = b
  · rw [hab]
  · unfold countState
    rw [Function.update_of_ne (Ne.symm hab), Function.update_of_ne hab, Function.update_comm hab]

theorem count_comm (t : Metrics.Tally) (b b' : FeedHandler.Book) :
    (t.count b).count b' = (t.count b').count b := by
  simp only [Metrics.Tally.count, Metrics.Tally.mk.injEq]
  refine ⟨countState_comm _ _ _, ?_, by omega, by omega, by omega, by omega, by omega⟩
  split_ifs <;> omega

theorem gather_perm {books books' : List FeedHandler.Book} (h : books.Perm books')
    (shards : List ShardInfo) (p : Process) :
    gather books shards p = gather books' shards p := by
  have : RightCommutative Metrics.Tally.count := ⟨count_comm⟩
  unfold gather
  rw [h.foldl_eq, h.length_eq]

structure SameTally (r : Metrics.Tally) (p : Tally) : Prop where
  states : r.bookStates = p.states
  live : r.live = (p.states "live").getD 0
  gaps : r.gaps = p.gaps
  crossed : r.crossed = p.crossed
  snapshots : r.snapshotsPerBook = p.snapsPerBook
  unverified : r.unverifiedBridges = p.unverified
  bufDropped : r.bufferDropped = p.bufDropped

theorem SameTally.start : SameTally Metrics.Tally.start Tally.start :=
  ⟨rfl, rfl, rfl, rfl, rfl, rfl, rfl⟩

theorem live_countState (states : String → Option Nat) (state : BookState) :
    ((countState states (stateName state)) "live").getD 0 =
      if state = .live then (states "live").getD 0 + 1 else (states "live").getD 0 := by
  unfold countState
  cases state with
  | uninitialized => rw [Function.update_of_ne (by decide), if_neg (by decide)]
  | buffering => rw [Function.update_of_ne (by decide), if_neg (by decide)]
  | live =>
      rw [if_pos rfl, stateName, Function.update_self]
      rfl

theorem SameTally.count {r : Metrics.Tally} {p : Tally} (h : SameTally r p)
    {b : FeedHandler.Book} {b' : Book} (hb : Ported b b') : SameTally (r.count b) (p.count b') := by
  obtain ⟨bids, asks, -, -, rfl⟩ := hb
  constructor
  · simp only [Metrics.Tally.count, Tally.count, h.states]
  · simp only [Metrics.Tally.count, Tally.count, live_countState, h.live]
  · simp only [Metrics.Tally.count, Tally.count, h.gaps]
  · simp only [Metrics.Tally.count, Tally.count, h.crossed]
  · simp only [Metrics.Tally.count, Tally.count, h.snapshots]
  · simp only [Metrics.Tally.count, Tally.count, h.unverified]
  · simp only [Metrics.Tally.count, Tally.count, h.bufDropped]

theorem SameTally.foldl {r : Metrics.Tally} {p : Tally} (h : SameTally r p)
    {books : List FeedHandler.Book} {books' : List Book}
    (hbooks : List.Forall₂ Ported books books') :
    SameTally (books.foldl Metrics.Tally.count r) (books'.foldl Tally.count p) := by
  induction hbooks generalizing r p with
  | nil => exact h
  | cons hb _ ih => exact ih (h.count hb)

theorem gatherTelemetry_eq {books : List FeedHandler.Book} {books' : List Book}
    (h : List.Forall₂ Ported books books') (shards : List ShardInfo) (p : Process) :
    gatherTelemetry books' shards p = gather books shards p := by
  have htally := SameTally.start.foldl h
  have hmax : maxLatency (shards.filterMap ShardInfo.latencyMs) =
      Metrics.maxLatency (shards.filterMap ShardInfo.latencyMs) := by
    cases shards.filterMap ShardInfo.latencyMs <;> rfl
  unfold gatherTelemetry gather
  simp only [htally.states, htally.live, htally.gaps, htally.crossed, htally.snapshots,
    htally.unverified, htally.bufDropped, hmax, h.length_eq]

/-! ## The page is written alike -/

theorem latencySeries_eq (shards : List ShardInfo) :
    latencySeries shards =
      (shards.filterMap fun s => s.latencyMs.map fun l => (s.id, l)).map
        fun entry => shardLatency entry.1 entry.2 := by
  unfold latencySeries
  induction shards with
  | nil => rfl
  | cons s shards ih =>
      cases hlatency : s.latencyMs with
      | none =>
          rw [List.filter_cons_of_neg (by simp [hlatency]), ih,
            List.filterMap_cons_none (by simp [hlatency])]
      | some l =>
          rw [List.filter_cons_of_pos (by simp [hlatency]), List.map_cons, ih,
            List.filterMap_cons_some (b := (s.id, l)) (by simp [hlatency]), List.map_cons]
          simp only [hlatency, Option.getD_some]
          rfl

theorem renderPrometheus_eq (t : Telemetry) : renderPrometheus t = Metrics.renderPrometheus t := by
  have hfamily : family = gauge := rfl
  have hmessages : (fun s : ShardInfo => "bfh_shard_messages_total\x7bshard=\"" ++
      toString s.id ++ "\"\x7d " ++ toString s.msgCount ++ "\n") = shardMessages := rfl
  unfold renderPrometheus Metrics.renderPrometheus
  rw [hfamily, hmessages, latencySeries_eq]
  simp only [String.join_cons, String.join_nil, String.append_assoc, String.append_empty]

def booksAfter (symbols : List String) (calls : String → List BookOp) : List Book :=
  symbols.map fun symbol => final Book.call (Book.new symbol) (calls symbol)

def rustBooksAfter (symbols : List String) (calls : String → List BookOp) :
    List FeedHandler.Book :=
  symbols.map fun symbol =>
    final FeedHandler.Book.call (FeedHandler.Book.new symbol) (calls symbol)

theorem ported_booksAfter (symbols : List String) (calls : String → List BookOp) :
    List.Forall₂ Ported (rustBooksAfter symbols calls) (booksAfter symbols calls) := by
  unfold rustBooksAfter booksAfter
  rw [List.forall₂_map_left_iff, List.forall₂_map_right_iff, List.forall₂_same]
  intro symbol _
  exact (lockstep (R := Ported) (fun r p op h => h.call op) (calls symbol)
    (Ported.new symbol)).2

/-- When the books of the two ports have been through the same calls, the two ports
show the same telemetry and serve the same page, in whatever order the Rust map yields
its books. -/
theorem ports_serve_same_page (symbols : List String) (calls : String → List BookOp)
    {order : List String} (horder : order.Perm symbols) (shards : List ShardInfo) (p : Process) :
    gatherTelemetry (booksAfter symbols calls) shards p =
        gather (rustBooksAfter order calls) shards p ∧
      renderPrometheus (gatherTelemetry (booksAfter symbols calls) shards p) =
        Metrics.renderPrometheus (gather (rustBooksAfter order calls) shards p) := by
  have hperm : (rustBooksAfter order calls).Perm (rustBooksAfter symbols calls) := horder.map _
  have hgather : gatherTelemetry (booksAfter symbols calls) shards p =
      gather (rustBooksAfter order calls) shards p := by
    rw [gatherTelemetry_eq (ported_booksAfter symbols calls), gather_perm hperm]
  exact ⟨hgather, by rw [hgather, renderPrometheus_eq]⟩

/-- One book comes live on a straddled snapshot, the other goes on buffering. -/
def twoCalls : String → List BookOp
  | "BTCUSDT" =>
      [.onDepth ⟨1, 10, 0, [(.one, .one)], []⟩, .onSnapshot 5 [(.one, .one)] []]
  | _ => [.onDepth ⟨1, 10, 0, [], []⟩]

/-- The second shard is down and has no sample yet. -/
def twoShards : List ShardInfo := [⟨0, true, 12, 5, some (3 / 2)⟩, ⟨1, false, 0, 0, none⟩]

theorem ports_serve_same_page_swapped :
    let python := gatherTelemetry (booksAfter ["BTCUSDT", "ETHUSDT"] twoCalls) twoShards
      ⟨1, 2, 3, 4, 5, 6, 7, 8⟩
    let rust := gather (rustBooksAfter ["ETHUSDT", "BTCUSDT"] twoCalls) twoShards
      ⟨1, 2, 3, 4, 5, 6, 7, 8⟩
    rust.live = 1 ∧ rust.bookState "buffering" = 1 ∧ python = rust ∧
      renderPrometheus python = Metrics.renderPrometheus rust := by
  intro python rust
  exact ⟨by decide +kernel, by decide +kernel,
    ports_serve_same_page ["BTCUSDT", "ETHUSDT"] twoCalls (by decide) twoShards
      ⟨1, 2, 3, 4, 5, 6, 7, 8⟩⟩

end FeedHandler.Python
