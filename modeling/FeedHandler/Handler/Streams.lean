import FeedHandler.Lib.Chunks
import FeedHandler.Handler.Symbol
/-!
# What each connection subscribes to

The symbols are dealt to shards in chunks of a hundred, and each shard subscribes to
two streams for each of its symbols, in batches of fifty. Both ports compute the same
batches. No stream is left out and none is asked for twice, on whatever connection.
-/

namespace FeedHandler.Handler

open Lib

def subscribeBatchSize : Nat := 50

/-- The two streams of each symbol. Stream names are in lower case, and `lower` is how
the port lowers them. -/
def streamNames (lower : String → String) (symbols : List String) : List String :=
  symbols.flatMap fun symbol =>
    [lower symbol ++ "@depth@100ms", lower symbol ++ "@bookTicker"]

/-- The `params` of the SUBSCRIBE messages of one connection. -/
def subscribeBatches (lower : String → String) (symbols : List String) : List (List String) :=
  chunks subscribeBatchSize (streamNames lower symbols)

def Universe.shardCount (u : Universe) : Nat := (chunks maxSymbolsPerShard u.symbols).length

theorem chunks_symbols (u : Universe) :
    chunks maxSymbolsPerShard u.symbols = (List.range u.shardCount).map u.shard := by
  rw [Universe.shardCount, length_chunks]
  rfl

theorem owner_lt_shardCount {u : Universe} {symbol : String} (h : symbol ∈ u.symbols) :
    u.owner symbol < u.shardCount := by
  have hlt := List.idxOf_lt_length_iff.mpr h
  rw [Universe.shardCount, length_chunks, lt_length_chunks (by decide)]
  unfold Universe.owner maxSymbolsPerShard
  omega

theorem flatten_shards (u : Universe) : ((List.range u.shardCount).map u.shard).flatten =
    u.symbols := by
  rw [← chunks_symbols]
  exact flatten_chunks (by decide) u.symbols

theorem length_streamNames (lower : String → String) (symbols : List String) :
    (streamNames lower symbols).length = 2 * symbols.length := by
  unfold streamNames
  induction symbols with
  | nil => rfl
  | cons symbol symbols ih =>
      rw [List.flatMap_cons, List.length_append, ih]
      simp only [List.length_cons, List.length_nil]
      omega

theorem length_shard_le (u : Universe) (i : Nat) : (u.shard i).length ≤ maxSymbolsPerShard :=
  List.length_take_le _ _

/-! ## Names of streams -/

theorem depth_ne_bookTicker (a b : String) : a ++ "@depth@100ms" ≠ b ++ "@bookTicker" := by
  intro h
  have hlast := congrArg (fun s : String => s.toList.getLast?) h
  simp [String.toList_append] at hlast

theorem mem_streamNames {lower : String → String} {symbols : List String} {name : String} :
    name ∈ streamNames lower symbols ↔ ∃ symbol ∈ symbols,
      name = lower symbol ++ "@depth@100ms" ∨ name = lower symbol ++ "@bookTicker" := by
  simp [streamNames]

theorem nodup_streamNames {lower : String → String} {symbols : List String}
    (hsymbols : symbols.Nodup)
    (hlower : ∀ a ∈ symbols, ∀ b ∈ symbols, lower a = lower b → a = b) :
    (streamNames lower symbols).Nodup := by
  induction symbols with
  | nil => exact List.nodup_nil
  | cons symbol symbols ih =>
      obtain ⟨hnot, hnodup⟩ := List.nodup_cons.mp hsymbols
      have htail := ih hnodup fun a ha b hb =>
        hlower a (List.mem_cons_of_mem symbol ha) b (List.mem_cons_of_mem symbol hb)
      have hdistinct : ∀ other ∈ symbols, lower symbol ≠ lower other := by
        intro other hother heq
        have := hlower symbol List.mem_cons_self other (List.mem_cons_of_mem symbol hother) heq
        exact hnot (this ▸ hother)
      have hpair : [lower symbol ++ "@depth@100ms", lower symbol ++ "@bookTicker"].Nodup := by
        simp
      refine List.nodup_append.mpr ⟨hpair, htail, ?_⟩
      intro name hname name' hname' heq
      subst heq
      obtain ⟨other, hother, hkind⟩ := mem_streamNames.mp hname'
      simp only [List.mem_cons, List.not_mem_nil, or_false] at hname
      rcases hname with rfl | rfl <;> rcases hkind with hkind | hkind
      · exact hdistinct other hother (by simpa using hkind)
      · exact depth_ne_bookTicker _ _ hkind
      · exact depth_ne_bookTicker _ _ hkind.symm
      · exact hdistinct other hother (by simpa using hkind)

/-! ## The plan -/

theorem flatten_subscribeBatches (lower : String → String) (symbols : List String) :
    (subscribeBatches lower symbols).flatten = streamNames lower symbols :=
  flatten_chunks (by decide) _

def allBatches (lower : String → String) (u : Universe) : List (List String) :=
  (List.range u.shardCount).flatMap fun i => subscribeBatches lower (u.shard i)

theorem flatten_allBatches (lower : String → String) (u : Universe) :
    (allBatches lower u).flatten = streamNames lower u.symbols := by
  have hconnections : ∀ is : List Nat,
      (is.flatMap fun i => subscribeBatches lower (u.shard i)).flatten =
        streamNames lower (is.map u.shard).flatten := by
    intro is
    induction is with
    | nil => rfl
    | cons i is ih =>
        rw [List.flatMap_cons, List.flatten_append, flatten_subscribeBatches, ih, List.map_cons,
          List.flatten_cons]
        exact List.flatMap_append.symm
  rw [allBatches, hconnections, flatten_shards]

theorem mem_subscribeBatches_iff {lower : String → String} {u : Universe}
    (hlower : ∀ a ∈ u.symbols, ∀ b ∈ u.symbols, lower a = lower b → a = b) {symbol : String}
    (hsymbol : symbol ∈ u.symbols) {name : String} (hname : name ∈ streamNames lower [symbol])
    (i : Nat) : name ∈ (subscribeBatches lower (u.shard i)).flatten ↔ u.owner symbol = i := by
  obtain ⟨self, hself, hkind⟩ := mem_streamNames.mp hname
  rw [List.mem_singleton.mp hself] at hkind
  rw [flatten_subscribeBatches]
  constructor
  · intro hmem
    obtain ⟨other, hother, hkind'⟩ := mem_streamNames.mp hmem
    obtain ⟨hmem, howner⟩ := Universe.mem_shard.mp hother
    have heq : lower symbol = lower other := by
      rcases hkind with rfl | rfl <;> rcases hkind' with hkind' | hkind'
      · simpa using hkind'
      · exact absurd hkind' (depth_ne_bookTicker _ _)
      · exact absurd hkind'.symm (depth_ne_bookTicker _ _)
      · simpa using hkind'
    rwa [hlower symbol hsymbol other hmem heq]
  · intro howner
    exact mem_streamNames.mpr ⟨symbol, Universe.mem_shard.mpr ⟨hsymbol, howner⟩, hkind⟩

/-- Every batch has between one and fifty streams, a connection carries at most two
hundred, all batches together name each stream of each symbol exactly once, and both
streams of a symbol come on the connection of its shard, which runs, and on no other. No
two symbols may differ in case only. -/
theorem subscription_plan (lower : String → String) (u : Universe)
    (hlower : ∀ a ∈ u.symbols, ∀ b ∈ u.symbols, lower a = lower b → a = b) :
    (∀ batch ∈ allBatches lower u, batch ≠ [] ∧ batch.length ≤ subscribeBatchSize) ∧
      (∀ i, (subscribeBatches lower (u.shard i)).flatten.length ≤ 200) ∧
      (allBatches lower u).flatten = streamNames lower u.symbols ∧
      (allBatches lower u).flatten.Nodup ∧
      ∀ symbol ∈ u.symbols, u.owner symbol < u.shardCount ∧
        ∀ name ∈ streamNames lower [symbol], ∀ i,
          (name ∈ (subscribeBatches lower (u.shard i)).flatten ↔ u.owner symbol = i) := by
  refine ⟨fun batch hbatch => ?_, fun i => ?_, flatten_allBatches lower u, ?_, ?_⟩
  · obtain ⟨i, -, hmem⟩ := List.mem_flatMap.mp hbatch
    exact ⟨ne_nil_of_mem_chunks (by decide) hmem, length_le_of_mem_chunks hmem⟩
  · have hle := length_shard_le u i
    rw [flatten_subscribeBatches, length_streamNames]
    unfold maxSymbolsPerShard at hle
    omega
  · rw [flatten_allBatches]
    exact nodup_streamNames u.nodup hlower
  · intro symbol hsymbol
    exact ⟨owner_lt_shardCount hsymbol, fun name hname =>
      mem_subscribeBatches_iff hlower hsymbol hname⟩

def asciiLower (s : String) : String := String.ofList (s.toList.map Char.toLower)

theorem subscription_plan_two :
    let u : Universe := ⟨["BTCUSDT", "ETHUSDT"], by decide⟩
    (∀ batch ∈ allBatches asciiLower u,
        batch ≠ [] ∧ batch.length ≤ subscribeBatchSize) ∧
      (∀ i, (subscribeBatches asciiLower (u.shard i)).flatten.length ≤ 200) ∧
      (allBatches asciiLower u).flatten = streamNames asciiLower u.symbols ∧
      (allBatches asciiLower u).flatten.Nodup ∧
      ∀ symbol ∈ u.symbols, u.owner symbol < u.shardCount ∧
        ∀ name ∈ streamNames asciiLower [symbol], ∀ i,
          (name ∈ (subscribeBatches asciiLower (u.shard i)).flatten ↔ u.owner symbol = i) :=
  subscription_plan asciiLower ⟨["BTCUSDT", "ETHUSDT"], by decide⟩ (by decide)

end FeedHandler.Handler
