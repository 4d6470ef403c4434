import FeedHandler.Metrics.Port
import FeedHandler.Book.Counters
import FeedHandler.Handler.Disconnect
import FeedHandler.Handler.Recovery
import FeedHandler.Handler.Streams
/-!
# Telemetry over runs

What `/metrics` and `/health` report about the books and the shards of the running
system. A counter of a book outlives `reset` and `mark_for_resync`, so the totals that
the page declares as counters never fall. The flag of a shard follows its connection.
-/

namespace FeedHandler

namespace Book

/-! ## Counters of a book -/

structure CountersLe (b b' : Book) : Prop where
  gapCount : b.gapCount ≤ b'.gapCount
  crossedCount : b.crossedCount ≤ b'.crossedCount
  snapshotCount : b.snapshotCount ≤ b'.snapshotCount
  unverifiedBridgeCount : b.unverifiedBridgeCount ≤ b'.unverifiedBridgeCount
  bufferDropped : b.bufferDropped ≤ b'.bufferDropped

theorem CountersLe.refl (b : Book) : b.CountersLe b := ⟨le_rfl, le_rfl, le_rfl, le_rfl, le_rfl⟩

theorem CountersLe.trans {b b' b'' : Book} (h : b.CountersLe b') (h' : b'.CountersLe b'') :
    b.CountersLe b'' where
  gapCount := h.gapCount.trans h'.gapCount
  crossedCount := h.crossedCount.trans h'.crossedCount
  snapshotCount := h.snapshotCount.trans h'.snapshotCount
  unverifiedBridgeCount := h.unverifiedBridgeCount.trans h'.unverifiedBridgeCount
  bufferDropped := h.bufferDropped.trans h'.bufferDropped

theorem le_crossedCount_checkIntegrity (b : Book) :
    b.crossedCount ≤ b.checkIntegrity.2.crossedCount := by
  unfold checkIntegrity
  split
  · split_ifs
    · exact Nat.le_succ b.crossedCount
    · exact le_rfl
    · exact le_rfl
    · exact le_rfl
  · exact le_rfl

theorem le_crossedCount_onDepth (b : Book) (e : DepthEvent) :
    b.crossedCount ≤ (b.onDepth e).2.crossedCount := by
  have happlied : (b.applied e).crossedCount = b.crossedCount := rfl
  have hchecked := le_crossedCount_checkIntegrity (b.applied e)
  unfold onDepth
  split
  · simp
  · simp
  · unfold onLiveDepth onSequenced
    split_ifs
    · exact le_rfl
    · simp
    · split
      next checked hresult =>
        rw [hresult] at hchecked
        exact happlied ▸ hchecked
      next checked hresult =>
        rw [hresult] at hchecked
        simpa using happlied ▸ hchecked

theorem le_crossedCount_onSnapshot (b : Book) (lastUpdateId : Nat) (bids asks : Levels) :
    b.crossedCount ≤ (b.onSnapshot lastUpdateId bids asks).2.crossedCount := by
  by_cases hbridged : b.state = .buffering ∧ Bridged lastUpdateId (pending lastUpdateId b.buffer)
  · obtain ⟨bids', asks', last, hsynced⟩ := synced_eq b lastUpdateId bids asks
    have hcrossed : (b.synced lastUpdateId bids asks).crossedCount = b.crossedCount := by
      rw [hsynced]
      rfl
    have hchecked := le_crossedCount_checkIntegrity (b.synced lastUpdateId bids asks)
    rw [onSnapshot_of_bridged hbridged.1 hbridged.2]
    dsimp only
    split_ifs
    · exact hcrossed ▸ hchecked
    · exact hcrossed ▸ hchecked
  · have hstep := onSnapshot_step b lastUpdateId bids asks
    generalize (b.onSnapshot lastUpdateId bids asks).1 = answer,
      (b.onSnapshot lastUpdateId bids asks).2 = b' at hstep
    cases hstep with
    | ignored => exact le_rfl
    | refused => exact le_rfl
    | rejected hstate hbridge => exact absurd ⟨hstate, hbridge⟩ hbridged
    | accepted hstate hbridge => exact absurd ⟨hstate, hbridge⟩ hbridged

theorem countersLe_onDepth (b : Book) (e : DepthEvent) : b.CountersLe (b.onDepth e).2 := by
  obtain ⟨-, -, hsnapshots, hunverified⟩ := untouched_onDepth b e
  refine ⟨?_, le_crossedCount_onDepth b e, hsnapshots.ge, hunverified.ge, ?_⟩
  all_goals
    have hstep := onDepth_step b e
    generalize (b.onDepth e).1 = action, (b.onDepth e).2 = b' at hstep
    cases hstep <;> simp [applied, applyDiff]
  all_goals
    split_ifs <;> omega

theorem countersLe_onSnapshot (b : Book) (lastUpdateId : Nat) (bids asks : Levels) :
    b.CountersLe (b.onSnapshot lastUpdateId bids asks).2 := by
  by_cases hstate : b.state = .buffering
  · obtain ⟨hsnapshots, hunverified⟩ := counts_onSnapshot hstate lastUpdateId bids asks
    have hdropped := (buffer_onSnapshot hstate lastUpdateId bids asks).2
    refine ⟨?_, le_crossedCount_onSnapshot b lastUpdateId bids asks, by omega, ?_, by omega⟩
    · have hstep := onSnapshot_step b lastUpdateId bids asks
      generalize (b.onSnapshot lastUpdateId bids asks).1 = answer,
        (b.onSnapshot lastUpdateId bids asks).2 = b' at hstep
      cases hstep <;> simp [loadSnapshot]
    · rw [hunverified]
      split_ifs <;> omega
  · rw [onSnapshot_of_not_buffering hstate]
    exact .refl b

end Book

namespace Metrics

open Lib Handler

/-! ## What the loop over the books adds up -/

theorem foldl_count (total : Tally → Nat) (own : Book → Nat)
    (hcount : ∀ t b, total (t.count b) = total t + own b) (books : List Book) (t : Tally) :
    total (books.foldl Tally.count t) = total t + (books.map own).sum := by
  induction books generalizing t with
  | nil => simp
  | cons b books ih =>
      rw [List.foldl_cons, ih, hcount, List.map_cons, List.sum_cons, Nat.add_assoc]

theorem live_foldl_count (books : List Book) (t : Tally) :
    (books.foldl Tally.count t).live =
      t.live + books.countP fun b => decide (b.state = .live) := by
  induction books generalizing t with
  | nil => simp
  | cons b books ih =>
      rw [List.foldl_cons, ih, List.countP_cons]
      by_cases hlive : b.state = .live
      · simp only [Tally.count, hlive, if_true, decide_true]
        omega
      · simp [Tally.count, hlive]

theorem stateName_inj {a b : BookState} : stateName a = stateName b ↔ a = b := by
  cases a <;> cases b <;> decide

theorem bookStates_foldl_count (state : BookState) (books : List Book) (t : Tally) :
    ((books.foldl Tally.count t).bookStates (stateName state)).getD 0 =
      (t.bookStates (stateName state)).getD 0 +
        books.countP fun b => decide (b.state = state) := by
  induction books generalizing t with
  | nil => simp
  | cons b books ih =>
      rw [List.foldl_cons, ih, List.countP_cons]
      simp only [Tally.count, countState, Function.update_apply, stateName_inj]
      by_cases hstate : b.state = state
      · simp only [hstate, if_true, Option.getD_some, decide_true]
        omega
      · simp [hstate, Ne.symm hstate]

theorem countP_states (books : List Book) :
    (books.countP fun b => decide (b.state = .live)) +
      (books.countP fun b => decide (b.state = .buffering)) +
      (books.countP fun b => decide (b.state = .uninitialized)) = books.length := by
  induction books with
  | nil => rfl
  | cons b books ih =>
      simp only [List.countP_cons, List.length_cons]
      cases b.state <;> simp <;> omega

/-! ## Observations of the system -/

/-- What `gather` reads in a state of the system. `order` is the order in which the map
yields its books; what no task of the system writes comes from `samples` and `p`. -/
def observe (u : Universe) (s : System) (order : List String) (samples : Nat → ShardInfo)
    (p : Process) : Telemetry :=
  gather (order.map s.books)
    ((List.range u.shardCount).map fun i =>
      { samples i with id := i, connected := (s.shards i).connected }) p

variable {u : Universe} {s : System} {order order' : List String}

theorem observe_perm (horder : order.Perm u.symbols) (samples : Nat → ShardInfo) (p : Process) :
    observe u s order samples p = observe u s u.symbols samples p :=
  Python.gather_perm (horder.map s.books) _ p

theorem connected_observe (samples : Nat → ShardInfo) (p : Process) :
    (observe u s order samples p).connected = (observe u s order samples p).shards.length ↔
      ∀ i < u.shardCount, (s.shards i).connected = true := by
  unfold observe gather
  dsimp only
  rw [List.length_filter_eq_length_iff]
  simp

/-! ## Totals -/

theorem countersLe_next {a : Act} (ha : System.enabled u s a) (symbol : String) :
    (s.books symbol).CountersLe ((System.next u s a).books symbol) := by
  have hstep := books_next ha symbol
  generalize (System.next u s a).books symbol = b' at hstep
  cases hstep with
  | kept => exact .refl _
  | depth i now e hpc hmem =>
      have hstamped : (s.books symbol).CountersLe ((s.books symbol).stamped now) :=
        ⟨le_rfl, le_rfl, le_rfl, le_rfl, le_rfl⟩
      exact hstamped.trans (Book.countersLe_onDepth _ e)
  | ticker i bid ask hpc hmem => exact ⟨le_rfl, le_rfl, le_rfl, le_rfl, le_rfl⟩
  | reset i hpc hmem => exact ⟨le_rfl, le_rfl, le_rfl, le_rfl, le_rfl⟩
  | sweep now order hmem hstale => exact ⟨le_rfl, le_rfl, le_rfl, le_rfl, le_rfl⟩
  | respond t lastUpdateId bids asks => exact Book.countersLe_onSnapshot _ lastUpdateId bids asks

theorem countersLe_exec {acts : List Act} (hacts : u.machine.Admits s acts) (symbol : String) :
    (s.books symbol).CountersLe ((u.machine.exec s acts).books symbol) := by
  induction acts generalizing s with
  | nil => exact .refl _
  | cons a acts ih => exact (countersLe_next hacts.1 symbol).trans (ih hacts.2)

theorem totals_observe (samples : Nat → ShardInfo) (p : Process) :
    (observe u s order samples p).gaps = (order.map fun k => (s.books k).gapCount).sum ∧
    (observe u s order samples p).crossed = (order.map fun k => (s.books k).crossedCount).sum ∧
    (observe u s order samples p).snapshotsPerBook =
      (order.map fun k => (s.books k).snapshotCount).sum ∧
    (observe u s order samples p).unverifiedBridges =
      (order.map fun k => (s.books k).unverifiedBridgeCount).sum ∧
    (observe u s order samples p).bufferDropped =
      (order.map fun k => (s.books k).bufferDropped).sum := by
  have hsum : ∀ (total : Tally → Nat) (own : Book → Nat), total Tally.start = 0 →
      (∀ t b, total (t.count b) = total t + own b) →
      total ((order.map s.books).foldl Tally.count Tally.start) =
        (order.map fun k => own (s.books k)).sum := by
    intro total own hstart hcount
    rw [foldl_count total own hcount, hstart, Nat.zero_add, List.map_map]
    rfl
  refine ⟨?_, ?_, ?_, ?_, ?_⟩
  · exact hsum Tally.gaps Book.gapCount rfl fun _ _ => rfl
  · exact hsum Tally.crossed Book.crossedCount rfl fun _ _ => rfl
  · exact hsum Tally.snapshotsPerBook Book.snapshotCount rfl fun _ _ => rfl
  · exact hsum Tally.unverifiedBridges Book.unverifiedBridgeCount rfl fun _ _ => rfl
  · exact hsum Tally.bufferDropped Book.bufferDropped rfl fun _ _ => rfl

theorem unverified_le_next {a : Act} (ha : System.enabled u s a) (symbol : String)
    (h : (s.books symbol).unverifiedBridgeCount ≤ (s.books symbol).snapshotCount) :
    ((System.next u s a).books symbol).unverifiedBridgeCount ≤
      ((System.next u s a).books symbol).snapshotCount := by
  have hstep := books_next ha symbol
  generalize (System.next u s a).books symbol = b' at hstep
  cases hstep with
  | kept => exact h
  | depth i now e hpc hmem =>
      obtain ⟨-, -, hsnapshots, hunverified⟩ :=
        Book.untouched_onDepth ((s.books symbol).stamped now) e
      rw [hsnapshots, hunverified]
      exact h
  | ticker i bid ask hpc hmem => exact h
  | reset i hpc hmem => exact h
  | sweep now order hmem hstale => exact h
  | respond t lastUpdateId bids asks =>
      by_cases hstate : (s.books symbol).state = .buffering
      · obtain ⟨hsnapshots, hunverified⟩ :=
          Book.counts_onSnapshot hstate lastUpdateId bids asks
        rw [hsnapshots, hunverified]
        split_ifs <;> omega
      · rw [Book.onSnapshot_of_not_buffering hstate]
        exact h

theorem unverified_le_snapshots (hs : u.machine.Reachable s) (symbol : String) :
    (s.books symbol).unverifiedBridgeCount ≤ (s.books symbol).snapshotCount :=
  hs.invariant
    (I := fun s => (s.books symbol).unverifiedBridgeCount ≤ (s.books symbol).snapshotCount)
    (by rintro _ rfl; exact le_rfl) fun _ _ h ha => unverified_le_next ha symbol h

/-- The totals of the books never fall, whatever is reset, dropped, marked, aborted or
reconnected in between, nor does `total_dropped` as long as the counters of the process do
not; and no more bridges go unproven than snapshots are counted. -/
theorem totals_never_fall (hs : u.machine.Reachable s) {acts : List Act}
    (hacts : u.machine.Admits s acts) (horder : order.Perm u.symbols)
    (horder' : order'.Perm u.symbols) (samples samples' : Nat → ShardInfo) (p p' : Process) :
    let before := observe u s order samples p
    let after := observe u (u.machine.exec s acts) order' samples' p'
    before.gaps ≤ after.gaps ∧ before.crossed ≤ after.crossed ∧
      before.snapshotsPerBook ≤ after.snapshotsPerBook ∧
      before.unverifiedBridges ≤ after.unverifiedBridges ∧
      before.bufferDropped ≤ after.bufferDropped ∧
      (p.bboDropped ≤ p'.bboDropped → p.bookDropped ≤ p'.bookDropped →
        p.subscriberDropped ≤ p'.subscriberDropped →
          before.totalDropped ≤ after.totalDropped) ∧
      after.unverifiedBridges ≤ after.snapshotsPerBook := by
  intro before after
  have hle := countersLe_exec hacts
  obtain ⟨hgaps, hcrossed, hsnapshots, hunverified, hdropped⟩ :=
    @totals_observe u s u.symbols samples p
  obtain ⟨hgaps', hcrossed', hsnapshots', hunverified', hdropped'⟩ :=
    @totals_observe u (u.machine.exec s acts) u.symbols samples' p'
  have hbefore : before = observe u s u.symbols samples p := observe_perm horder samples p
  have hafter : after = observe u (u.machine.exec s acts) u.symbols samples' p' :=
    observe_perm horder' samples' p'
  rw [← hbefore] at hgaps hcrossed hsnapshots hunverified hdropped
  rw [← hafter] at hgaps' hcrossed' hsnapshots' hunverified' hdropped'
  have hbuffer : before.bufferDropped ≤ after.bufferDropped := by
    rw [hdropped, hdropped']
    exact List.sum_le_sum fun symbol _ => (hle symbol).bufferDropped
  have htotal : p.bboDropped ≤ p'.bboDropped → p.bookDropped ≤ p'.bookDropped →
      p.subscriberDropped ≤ p'.subscriberDropped → before.totalDropped ≤ after.totalDropped := by
    intro hbbo hbook hsubscriber
    have heq : before.totalDropped =
        p.bboDropped + p.bookDropped + p.subscriberDropped + before.bufferDropped := rfl
    have heq' : after.totalDropped =
        p'.bboDropped + p'.bookDropped + p'.subscriberDropped + after.bufferDropped := rfl
    omega
  refine ⟨?_, ?_, ?_, ?_, hbuffer, htotal, ?_⟩
  · rw [hgaps, hgaps']
    exact List.sum_le_sum fun symbol _ => (hle symbol).gapCount
  · rw [hcrossed, hcrossed']
    exact List.sum_le_sum fun symbol _ => (hle symbol).crossedCount
  · rw [hsnapshots, hsnapshots']
    exact List.sum_le_sum fun symbol _ => (hle symbol).snapshotCount
  · rw [hunverified, hunverified']
    exact List.sum_le_sum fun symbol _ => (hle symbol).unverifiedBridgeCount
  · rw [hunverified', hsnapshots']
    exact List.sum_le_sum fun symbol _ => unverified_le_snapshots (hs.exec acts hacts) symbol

/-- The bridge of the first snapshot is unproven, and the event after the next breaks
the chain. -/
theorem totals_never_fall_gap :
    let acts := [.connect 0, .depth 0 "BTCUSDT" 1 ⟨1, 10, 0, [], []⟩, .requestSync 0, .check 0,
      .send 0, .respond 0 20 [] [], .depth 0 "BTCUSDT" 2 ⟨21, 30, 20, [], []⟩, .emit 0,
      .depth 0 "BTCUSDT" 3 ⟨41, 50, 40, [], []⟩, .requestSync 0, .close 0,
      .markDisconnected 0, .resetBooks 0]
    let after := observe btc (btc.machine.exec System.start acts) ["BTCUSDT"]
      (fun _ => ⟨0, false, 0, 0, none⟩) ⟨0, 0, 0, 0, 0, 0, 0, 0⟩
    0 ≤ after.gaps ∧ after.gaps = 1 ∧ after.unverifiedBridges = 1 := by
  intro acts after
  have hacts : btc.machine.Admits System.start acts := by decide +kernel
  have horder : ["BTCUSDT"].Perm btc.symbols := List.Perm.refl _
  have hfall := totals_never_fall (.start rfl) hacts horder horder (fun _ => ⟨0, false, 0, 0, none⟩)
    (fun _ => ⟨0, false, 0, 0, none⟩) ⟨0, 0, 0, 0, 0, 0, 0, 0⟩ ⟨0, 0, 0, 0, 0, 0, 0, 0⟩
  exact ⟨le_trans (Nat.zero_le _) hfall.1, by decide +kernel, by decide +kernel⟩

/-! ## Health -/

/-- The places at which a shard has its connection; one that died kept the flag. -/
def up : ShardPc → Bool
  | .reading | .needSnapshot _ | .publishing _ | .panicked => true
  | _ => false

theorem flagged_next {a : Act} (ha : System.enabled u s a) {i : Nat}
    (h : up (s.shards i).pc = true → (s.shards i).connected = true)
    (hup : up ((System.next u s a).shards i).pc = true) :
    ((System.next u s a).shards i).connected = true := by
  have hstep := shards_next ha i
  generalize (System.next u s a).shards i = k at hstep hup
  cases hstep with
  | kept => exact h hup
  | connect hpc => rfl
  | depth symbol now e hpc => exact h (by rw [hpc]; rfl)
  | requestSync symbol hpc => exact h (by rw [hpc]; rfl)
  | emit symbol hpc => exact h (by rw [hpc]; rfl)
  | panicked hpc => exact h (by rw [hpc]; rfl)
  | connectFail | close | markDisconnected | resetBooks | abortHandles | reconnect =>
      simp [up] at hup

theorem flagged_reachable (hs : u.machine.Reachable s) {i : Nat}
    (hup : up (s.shards i).pc = true) : (s.shards i).connected = true :=
  hs.invariant
    (I := fun s => up (s.shards i).pc = true → (s.shards i).connected = true)
    (by rintro _ rfl h; simp [System.start, up] at h)
    (fun _ _ h ha => flagged_next ha h) hup

theorem live_observe (samples : Nat → ShardInfo) (p : Process) :
    (observe u s order samples p).live =
      order.countP fun symbol => decide ((s.books symbol).state = .live) := by
  unfold observe gather
  dsimp only
  rw [live_foldl_count, List.countP_map]
  exact Nat.zero_add _

theorem bookState_observe (samples : Nat → ShardInfo) (p : Process) (state : BookState) :
    (observe u s order samples p).bookState (stateName state) =
      order.countP fun symbol => decide ((s.books symbol).state = state) := by
  unfold observe gather Telemetry.bookState
  dsimp only
  rw [bookStates_foldl_count, List.countP_map]
  exact Nat.zero_add _

/-- `/health` and `/metrics` in every state of every run: the three states share out the
books; from the reset of its books until its next connection no book of a shard is live,
so the live ones are at most those of the other shards; no shard that has flagged its
disconnect leaves the process healthy; with every shard up, a majority of live books is
what decides; and a shard whose task died is reported as connected for good. -/
theorem health_over_runs (hs : u.machine.Reachable s) (horder : order.Perm u.symbols)
    (samples : Nat → ShardInfo) (p : Process) :
    let t := observe u s order samples p
    t.bookState "live" = t.live ∧
    t.live + t.bookState "buffering" + t.bookState "uninitialized" = u.symbols.length ∧
    (∀ symbol ∈ u.symbols, (s.shards (u.owner symbol)).pc.phase symbol = .cleared →
      (s.books symbol).state = .uninitialized) ∧
    t.live ≤ u.symbols.countP (fun symbol =>
      decide ((s.shards (u.owner symbol)).pc.phase symbol ≠ .cleared)) ∧
    (t.healthy = true → ∀ i < u.shardCount, (s.shards i).pc.down = false) ∧
    ((∀ i < u.shardCount, up (s.shards i).pc = true) →
      (t.healthy = true ↔ u.symbols.length < 2 * t.live)) ∧
    ∀ i, (s.shards i).pc = .panicked → ∀ acts, u.machine.Admits s acts →
      ((u.machine.exec s acts).shards i).connected = true := by
  intro t
  have ht : t = observe u s u.symbols samples p := observe_perm horder samples p
  have hlive := @live_observe u s u.symbols samples p
  have hstates := @bookState_observe u s u.symbols samples p
  have htotal : (observe u s u.symbols samples p).total = u.symbols.length :=
    List.length_map _
  have hconnected := @connected_observe u s u.symbols samples p
  have hcleared : ∀ symbol ∈ u.symbols,
      (s.shards (u.owner symbol)).pc.phase symbol = .cleared →
        (s.books symbol).state = .uninitialized := fun symbol hsymbol =>
    (regular_reachable hs hsymbol).cleared
  have hhealthy : (observe u s u.symbols samples p).healthy = true ↔
      (∀ i < u.shardCount, (s.shards i).connected = true) ∧
        u.symbols.length < 2 * (observe u s u.symbols samples p).live := by
    unfold Telemetry.healthy
    rw [Bool.and_eq_true, beq_iff_eq, hconnected, decide_eq_true_iff, htotal]
    exact and_congr_right fun _ => by omega
  rw [ht]
  refine ⟨?_, ?_, hcleared, ?_, ?_, ?_, ?_⟩
  · exact (hstates .live).trans hlive.symm
  · have hbuffering := hstates .buffering
    have huninitialized := hstates .uninitialized
    have hshare := countP_states (u.symbols.map s.books)
    simp only [List.countP_map, List.length_map] at hshare
    simp only [stateName] at hbuffering huninitialized
    rw [hlive, hbuffering, huninitialized]
    exact hshare
  · rw [hlive]
    apply List.countP_mono_left
    intro symbol hsymbol hbook
    apply decide_eq_true
    intro hphase
    have hstate := hcleared symbol hsymbol hphase
    simp [hstate] at hbook
  · intro h i hi
    by_contra hdown
    have hflag := (held_reachable hs i).connected (Bool.not_eq_false _ ▸ hdown)
    simp [(hhealthy.mp h).1 i hi] at hflag
  · intro hup
    rw [hhealthy]
    exact and_iff_right fun i hi => flagged_reachable hs (hup i hi)
  · intro i hpanicked acts hacts
    apply flagged_reachable (hs.exec acts hacts)
    rw [Machine.exec_kept (P := fun s => (s.shards i).pc = .panicked)
      (fun _ _ _ ha h => stays_panicked ha h) hs hpanicked hacts]
    rfl

/-- One shard, its only book live: healthy. -/
theorem health_over_runs_live :
    let acts := [.connect 0, .depth 0 "BTCUSDT" 1 ⟨1, 10, 0, [], []⟩, .requestSync 0, .check 0,
      .send 0, .respond 0 20 [] []]
    (observe btc (btc.machine.exec System.start acts) ["BTCUSDT"]
      (fun _ => ⟨0, false, 0, 0, none⟩) ⟨0, 0, 0, 0, 0, 0, 0, 0⟩).healthy = true := by
  intro acts
  have hs : btc.machine.Reachable (btc.machine.exec System.start acts) :=
    (Machine.Reachable.start rfl).exec acts (by decide +kernel)
  have horder : ["BTCUSDT"].Perm btc.symbols := List.Perm.refl _
  have hhealth := health_over_runs hs horder
    (fun _ => ⟨0, false, 0, 0, none⟩) ⟨0, 0, 0, 0, 0, 0, 0, 0⟩
  exact (hhealth.2.2.2.2.2.1 (by decide +kernel)).mpr (by decide +kernel)

end Metrics

end FeedHandler
