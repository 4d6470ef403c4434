import FeedHandler.Metrics.Basic
import FeedHandler.Lib.Exposition
/-!
# The `/metrics` page read back

`families` is what the page has to say, as data. `renderPrometheus` writes exactly
these families in the text format, so a scraper gets them back: each family of
`METRIC_FAMILIES` once and in that order, with all of its samples.
-/

namespace FeedHandler.Metrics

open Lib.Exposition

def plain (n : Nat) : Sample := ⟨none, toString n⟩

def labelled (key value : String) (n : Nat) : Sample := ⟨some (key, value), toString n⟩

def families (t : Telemetry) : List Family :=
  [⟨"bfh_up", "1 when every shard is connected and a majority of books are live", "gauge",
      [plain t.healthy.toNat]⟩,
    ⟨"bfh_uptime_seconds", "Process uptime", "gauge", [plain t.uptimeS]⟩,
    ⟨"bfh_shards", "WebSocket shards by connection state", "gauge",
      [labelled "state" "connected" t.connected,
        labelled "state" "disconnected" (t.shards.length - t.connected)]⟩,
    ⟨"bfh_books", "Order books by sync state", "gauge",
      [labelled "state" "live" (t.bookState "live"),
        labelled "state" "buffering" (t.bookState "buffering"),
        labelled "state" "uninitialized" (t.bookState "uninitialized")]⟩,
    ⟨"bfh_published_total", "Events published downstream", "counter",
      [labelled "stream" "bbo" t.bboPublished, labelled "stream" "book" t.bookPublished]⟩,
    ⟨"bfh_snapshot_requests_total", "REST depth snapshots requested", "counter",
      [plain t.snapshots]⟩,
    ⟨"bfh_book_snapshots_total", "Snapshots successfully applied to a book", "counter",
      [plain t.snapshotsPerBook]⟩,
    ⟨"bfh_sequence_gaps_total", "Depth sequence gaps detected (pu chain broken)", "counter",
      [plain t.gaps]⟩,
    ⟨"bfh_crossed_books_total", "Integrity failures where bid >= ask", "counter",
      [plain t.crossed]⟩,
    ⟨"bfh_unverified_bridges_total",
      "Snapshots that went live without a buffered event proving U <= lastUpdateId <= u",
      "counter", [plain t.unverifiedBridges]⟩,
    ⟨"bfh_dropped_total", "Messages shed, by shedding point", "counter",
      [labelled "queue" "bbo" t.bboDropped, labelled "queue" "book" t.bookDropped,
        labelled "queue" "subscriber" t.subscriberDropped,
        labelled "queue" "resync_buffer" t.bufferDropped]⟩,
    ⟨"bfh_subscribers", "Connected downstream subscribers", "gauge", [plain t.subscribers]⟩,
    ⟨"bfh_shard_messages_total", "WebSocket messages received per shard", "counter",
      t.shards.map fun s => labelled "shard" (toString s.id) s.msgCount⟩,
    ⟨"bfh_shard_latency_ms", "Event-time to receive-time lag per shard", "gauge",
      t.shards.filterMap fun s =>
        s.latencyMs.map fun l => ⟨some ("shard", toString s.id), fixed1 l⟩⟩]

/-! ## The texts -/

theorem gauge_eq {name help kind body : String} {samples : List Sample}
    (h : body = String.join (samples.map (Sample.text name))) :
    gauge name help kind body = Family.text ⟨name, help, kind, samples⟩ := by
  rw [h]
  rfl

theorem body_plain (start name : String) (h : start = name ++ " ") (n : Nat) :
    start ++ toString n ++ "\n" = String.join ([plain n].map (Sample.text name)) := by
  rw [h, ← String.toList_inj]
  simp only [plain, Sample.text, labelText, List.map_cons, List.map_nil, String.toList_join,
    String.toList_append]
  simp

theorem body_shards (connected disconnected : Nat) :
    "bfh_shards\x7bstate=\"connected\"\x7d " ++ toString connected ++
        "\nbfh_shards\x7bstate=\"disconnected\"\x7d " ++ toString disconnected ++ "\n" =
      String.join ([labelled "state" "connected" connected,
        labelled "state" "disconnected" disconnected].map (Sample.text "bfh_shards")) := by
  rw [← String.toList_inj]
  simp only [labelled, Sample.text, labelText, List.map_cons, List.map_nil, String.toList_join,
    String.toList_append]
  simp

theorem body_books (live buffering uninitialized : Nat) :
    "bfh_books\x7bstate=\"live\"\x7d " ++ toString live ++
        "\nbfh_books\x7bstate=\"buffering\"\x7d " ++ toString buffering ++
        "\nbfh_books\x7bstate=\"uninitialized\"\x7d " ++ toString uninitialized ++ "\n" =
      String.join ([labelled "state" "live" live, labelled "state" "buffering" buffering,
        labelled "state" "uninitialized" uninitialized].map (Sample.text "bfh_books")) := by
  rw [← String.toList_inj]
  simp only [labelled, Sample.text, labelText, List.map_cons, List.map_nil, String.toList_join,
    String.toList_append]
  simp

theorem body_published (bbo book : Nat) :
    "bfh_published_total\x7bstream=\"bbo\"\x7d " ++ toString bbo ++
        "\nbfh_published_total\x7bstream=\"book\"\x7d " ++ toString book ++ "\n" =
      String.join ([labelled "stream" "bbo" bbo, labelled "stream" "book" book].map
        (Sample.text "bfh_published_total")) := by
  rw [← String.toList_inj]
  simp only [labelled, Sample.text, labelText, List.map_cons, List.map_nil, String.toList_join,
    String.toList_append]
  simp

theorem body_dropped (bbo book subscriber buffer : Nat) :
    "bfh_dropped_total\x7bqueue=\"bbo\"\x7d " ++ toString bbo ++
        "\nbfh_dropped_total\x7bqueue=\"book\"\x7d " ++ toString book ++
        "\nbfh_dropped_total\x7bqueue=\"subscriber\"\x7d " ++ toString subscriber ++
        "\nbfh_dropped_total\x7bqueue=\"resync_buffer\"\x7d " ++ toString buffer ++ "\n" =
      String.join ([labelled "queue" "bbo" bbo, labelled "queue" "book" book,
        labelled "queue" "subscriber" subscriber, labelled "queue" "resync_buffer" buffer].map
        (Sample.text "bfh_dropped_total")) := by
  rw [← String.toList_inj]
  simp only [labelled, Sample.text, labelText, List.map_cons, List.map_nil, String.toList_join,
    String.toList_append]
  simp

theorem shardMessages_eq (s : ShardInfo) :
    shardMessages s =
      Sample.text "bfh_shard_messages_total" (labelled "shard" (toString s.id) s.msgCount) := by
  unfold shardMessages labelled
  rw [← String.toList_inj]
  simp only [Sample.text, labelText, String.toList_append]
  simp

theorem shardLatency_eq (id : Nat) (l : Rat) :
    shardLatency id l =
      Sample.text "bfh_shard_latency_ms" ⟨some ("shard", toString id), fixed1 l⟩ := by
  unfold shardLatency
  rw [← String.toList_inj]
  simp only [Sample.text, labelText, String.toList_append]
  simp

theorem body_messages (shards : List ShardInfo) :
    String.join (shards.map shardMessages) =
      String.join ((shards.map fun s => labelled "shard" (toString s.id) s.msgCount).map
        (Sample.text "bfh_shard_messages_total")) := by
  rw [List.map_map]
  congr 2
  funext s
  exact shardMessages_eq s

theorem body_latency (shards : List ShardInfo) :
    String.join ((shards.filterMap fun s => s.latencyMs.map fun l => (s.id, l)).map
        fun entry => shardLatency entry.1 entry.2) =
      String.join ((shards.filterMap fun s => s.latencyMs.map fun l =>
        (⟨some ("shard", toString s.id), fixed1 l⟩ : Sample)).map
        (Sample.text "bfh_shard_latency_ms")) := by
  rw [List.map_filterMap, List.map_filterMap]
  congr 2
  funext s
  simp only [Option.map_map, Function.comp_def, shardLatency_eq]

theorem renderPrometheus_eq (t : Telemetry) :
    renderPrometheus t = String.join ((families t).map Family.text) := by
  unfold renderPrometheus families
  rw [gauge_eq (body_plain "bfh_up " "bfh_up" (by simp) _),
    gauge_eq (body_plain "bfh_uptime_seconds " "bfh_uptime_seconds" (by simp) _),
    gauge_eq (body_shards _ _), gauge_eq (body_books _ _ _), gauge_eq (body_published _ _),
    gauge_eq (body_plain "bfh_snapshot_requests_total " "bfh_snapshot_requests_total"
      (by simp) _),
    gauge_eq (body_plain "bfh_book_snapshots_total " "bfh_book_snapshots_total" (by simp) _),
    gauge_eq (body_plain "bfh_sequence_gaps_total " "bfh_sequence_gaps_total" (by simp) _),
    gauge_eq (body_plain "bfh_crossed_books_total " "bfh_crossed_books_total" (by simp) _),
    gauge_eq (body_plain "bfh_unverified_bridges_total " "bfh_unverified_bridges_total"
      (by simp) _),
    gauge_eq (body_dropped _ _ _ _),
    gauge_eq (body_plain "bfh_subscribers " "bfh_subscribers" (by simp) _),
    gauge_eq (body_messages _), gauge_eq (body_latency _)]
  simp only [List.map_cons, List.map_nil, String.join_cons, String.join_nil, String.append_assoc,
    String.append_empty]

/-! ## The families are well formed -/

theorem free_toString (n : Nat) {chars : List Char} (h : chars.all (!·.isDigit) = true) :
    Free chars (toString n) := by
  intro c hc hmem
  rw [Nat.toString_eq_repr, Nat.toList_repr] at hmem
  have hdigit := Nat.isDigit_of_mem_toDigits (by decide) (by decide) hmem
  have hnot := List.all_eq_true.mp h c hc
  simp [hdigit] at hnot

theorem free_fixed1 (x : Rat) : Free ['\n'] (fixed1 x) := by
  intro c hc
  obtain rfl := List.mem_singleton.mp hc
  have hnewline : ['\n'].all (!·.isDigit) = true := by decide
  have hwhole := free_toString (roundHalfEven (|x| * 10) / 10) hnewline
  have hrest := free_toString (roundHalfEven (|x| * 10) % 10) hnewline
  have hwhole' := hwhole.not_mem (c := '\n') (by simp)
  have hrest' := hrest.not_mem (c := '\n') (by simp)
  unfold fixed1
  simp only [String.toList_append, List.mem_append, not_or]
  refine ⟨⟨⟨?_, hwhole'⟩, by decide⟩, hrest'⟩
  split_ifs <;> decide

theorem wellFormed_plain (n : Nat) : (plain n).WellFormed where
  label l hl := by simp [plain] at hl
  value := free_toString n (by decide)

theorem wellFormed_labelled {key value : String} (hkey : Free ['=', ' ', '\n'] key)
    (hvalue : Free ['\x22', ' ', '\n'] value) (n : Nat) : (labelled key value n).WellFormed where
  label l hl := by
    obtain rfl : (key, value) = l := by simpa [labelled] using hl
    exact ⟨hkey, hvalue⟩
  value := free_toString n (by decide)

theorem wellFormed_shard (id : Nat) {value : String} (h : Free ['\n'] value) :
    Sample.WellFormed ⟨some ("shard", toString id), value⟩ where
  label l hl := by
    obtain rfl : ("shard", toString id) = l := by simpa using hl
    have hkey : Free ['=', ' ', '\n'] "shard" := by decide
    exact ⟨hkey, free_toString id (by decide)⟩
  value := h

theorem samples_plain (n : Nat) : ∀ s ∈ [plain n], s.WellFormed := by
  intro s hs
  rw [List.mem_singleton.mp hs]
  exact wellFormed_plain n

theorem wellFormed_family {name help kind : String} {samples : List Sample}
    (hname : Free ['#', '\x7b', ' ', '\n'] name) (hhelp : Free ['\n'] help)
    (hkind : Free ['\n'] kind) (hsamples : ∀ s ∈ samples, s.WellFormed) :
    Family.WellFormed ⟨name, help, kind, samples⟩ := ⟨hname, hhelp, hkind, hsamples⟩

theorem wellFormed_families (t : Telemetry) : ∀ f ∈ families t, f.WellFormed := by
  intro f hf
  simp only [families, List.mem_cons, List.not_mem_nil, or_false] at hf
  rcases hf with rfl | rfl | rfl | rfl | rfl | rfl | rfl | rfl | rfl | rfl | rfl | rfl | rfl | rfl
  · exact wellFormed_family (by decide) (by decide) (by decide) (samples_plain _)
  · exact wellFormed_family (by decide) (by decide) (by decide) (samples_plain _)
  · apply wellFormed_family (by decide) (by decide) (by decide)
    intro s hs
    simp only [List.mem_cons, List.not_mem_nil, or_false] at hs
    rcases hs with rfl | rfl <;> exact wellFormed_labelled (by decide) (by decide) _
  · apply wellFormed_family (by decide) (by decide) (by decide)
    intro s hs
    simp only [List.mem_cons, List.not_mem_nil, or_false] at hs
    rcases hs with rfl | rfl | rfl <;> exact wellFormed_labelled (by decide) (by decide) _
  · apply wellFormed_family (by decide) (by decide) (by decide)
    intro s hs
    simp only [List.mem_cons, List.not_mem_nil, or_false] at hs
    rcases hs with rfl | rfl <;> exact wellFormed_labelled (by decide) (by decide) _
  · exact wellFormed_family (by decide) (by decide) (by decide) (samples_plain _)
  · exact wellFormed_family (by decide) (by decide) (by decide) (samples_plain _)
  · exact wellFormed_family (by decide) (by decide) (by decide) (samples_plain _)
  · exact wellFormed_family (by decide) (by decide) (by decide) (samples_plain _)
  · exact wellFormed_family (by decide) (by decide) (by decide) (samples_plain _)
  · apply wellFormed_family (by decide) (by decide) (by decide)
    intro s hs
    simp only [List.mem_cons, List.not_mem_nil, or_false] at hs
    rcases hs with rfl | rfl | rfl | rfl <;> exact wellFormed_labelled (by decide) (by decide) _
  · exact wellFormed_family (by decide) (by decide) (by decide) (samples_plain _)
  · apply wellFormed_family (by decide) (by decide) (by decide)
    intro s hs
    obtain ⟨shard, -, rfl⟩ := List.mem_map.mp hs
    exact wellFormed_shard shard.id (free_toString _ (by decide))
  · apply wellFormed_family (by decide) (by decide) (by decide)
    intro s hs
    obtain ⟨shard, -, hshard⟩ := List.mem_filterMap.mp hs
    obtain ⟨l, -, rfl⟩ := Option.map_eq_some_iff.mp hshard
    exact wellFormed_shard shard.id (free_fixed1 l)

/-- A scraper reads back what the handler knows: the families of `METRIC_FAMILIES`, each
once and in that order, and every sample with its label and value. -/
theorem metrics_page_reads_back (t : Telemetry) :
    parse (renderPrometheus t).toList = some (families t) ∧
      (families t).map Family.name = metricFamilies ∧ metricFamilies.Nodup := by
  refine ⟨?_, rfl, by decide⟩
  rw [renderPrometheus_eq]
  exact parse_text (wellFormed_families t)

end FeedHandler.Metrics
