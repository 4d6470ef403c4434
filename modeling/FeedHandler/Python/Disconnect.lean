import FeedHandler.Handler.Disconnect
import FeedHandler.Python.Shard
/-!
# Disconnects in both ports

As long as no connection is closed with code 1000 or 1001, the exception handler
of the Python shard does what the four steps after the read loop do in the other
port, and a connection attempt starts from the same state.
-/

namespace FeedHandler.Python

open Lib

open Handler (Universe)

/-! ## Books -/

namespace Book

def Cleared (b : Book) : Prop :=
  b.state = .uninitialized →
    b.bids = InsertionMap.empty ∧ b.asks = InsertionMap.empty ∧ b.buffer = []

theorem cleared_of_ne {b : Book} (h : b.state ≠ .uninitialized) : b.Cleared :=
  fun hstate => absurd hstate h

theorem cleared_reset (b : Book) : b.reset.Cleared := fun _ => ⟨rfl, rfl, rfl⟩

@[simp] theorem state_bufferPush (b : Book) (e : DepthEvent) :
    (b.bufferPush e).state = b.state := by
  unfold bufferPush
  dsimp only
  split_ifs <;> rfl

@[simp] theorem state_checkIntegrity (b : Book) : b.checkIntegrity.2.state = b.state := by
  unfold checkIntegrity
  cases b.bids.maxKey? <;> cases b.asks.minKey? <;> try rfl
  dsimp only
  split_ifs <;> rfl

@[simp] theorem state_goLive (b : Book) (appliedAny : Bool) :
    (b.goLive appliedAny).state = .live := by
  unfold goLive
  dsimp only
  split_ifs <;> rfl

theorem state_replay (lastUpdateId : Nat) (buffered : List DepthEvent) (appliedAny : Bool)
    (b : Book) : (replay lastUpdateId buffered appliedAny b).2.state = b.state := by
  induction buffered generalizing appliedAny b with
  | nil => rfl
  | cons e buffered ih =>
      unfold replay
      split_ifs
      · exact ih _ _
      · rfl
      · exact ih _ _
      · rfl
      · exact ih _ _

theorem state_onDepth_ne (b : Book) (e : DepthEvent) :
    (b.onDepth e).2.state ≠ .uninitialized := by
  cases hstate : b.state <;>
    simp only [onDepth, onSequenced, toBuffering, applyDiff, hstate, reduceCtorEq, if_true,
      if_false]
  · simp
  · simp [hstate]
  · split_ifs <;> simp [hstate]

theorem onSnapshot_of_uninitialized {b : Book} (hstate : b.state = .uninitialized)
    (lastUpdateId : Nat) (bids asks : Levels) :
    b.onSnapshot lastUpdateId bids asks = (true, b) := by
  rw [onSnapshot, if_pos]
  simp [hstate]

theorem state_onSnapshot_ne {b : Book} (hstate : b.state ≠ .uninitialized)
    (lastUpdateId : Nat) (bids asks : Levels) :
    (b.onSnapshot lastUpdateId bids asks).2.state ≠ .uninitialized := by
  unfold onSnapshot
  split_ifs with hbuffering
  · exact hstate
  · have hreplay := state_replay lastUpdateId b.buffer false (b.loadSnapshot lastUpdateId bids asks)
    generalize replay lastUpdateId b.buffer false (b.loadSnapshot lastUpdateId bids asks) = result
      at hreplay
    obtain ⟨applied, b'⟩ := result
    cases applied with
    | none =>
        rw [show b'.state = _ from hreplay]
        exact hstate
    | some appliedAny =>
        dsimp only
        split_ifs <;> simp

theorem cleared_onSnapshot {b : Book} (h : b.Cleared) (lastUpdateId : Nat) (bids asks : Levels) :
    (b.onSnapshot lastUpdateId bids asks).2.Cleared := by
  by_cases hstate : b.state = .uninitialized
  · rw [onSnapshot_of_uninitialized hstate]
    exact h
  · exact cleared_of_ne (state_onSnapshot_ne hstate lastUpdateId bids asks)

end Book

variable {u : Universe} {s : System} {i : Nat}

/-! ## The tasks of a shard -/

def System.Runs (s : System) (i : Nat) : Nat → Prop :=
  Holds (fun k => k.creator = some i ∧ k.pc.unfinished = true) s.tasks

theorem runs_of_setTaskPc {t t' : Nat} {k : SyncTask} {pc : TaskPc} (hk : s.tasks t = some k)
    (hpc : k.pc.unfinished = true) (h : (s.setTaskPc t k pc).Runs i t') : s.Runs i t' := by
  refine Holds.of_rewrite h ?_
  by_cases hcreator : k.creator = some i
  · exact Or.inl ⟨k, hk, hcreator, hpc⟩
  · exact Or.inr fun hruns => hcreator hruns.1

theorem runs_of_createTask {symbol : String} {creator : Option Nat} {t : Nat}
    (h : (s.createTask symbol creator).Runs i t) :
    t = s.nextTask ∧ creator = some i ∨ s.Runs i t :=
  (Holds.of_update h).imp (fun hnew => ⟨hnew.1, hnew.2.1⟩) id

theorem runs_of_cancel {ids : List Nat} {t : Nat} (h : (s.cancel ids).Runs i t) :
    s.Runs i t ∧ t ∉ ids := by
  refine Holds.of_map (fun k hruns => ?_) h
  obtain ⟨-, hunfinished⟩ := hruns
  unfold SyncTask.cancel at hunfinished
  split_ifs at hunfinished with hpc
  · simp [TaskPc.unfinished] at hunfinished
  · exact hpc hunfinished

/-! ## The sweep -/

theorem takeStaleBooks_preserves {P : Book → Prop} {books : String → Book} {symbol : String}
    {now : Rat} (hbook : P (books symbol))
    (hmark : ∀ b, P b → b.state = .live → P (b.markForResync.stamped now))
    (order : List String) (threshold : Rat) :
    P ((takeStaleBooks books order now threshold).2 symbol) := by
  unfold takeStaleBooks
  suffices ∀ acc : List String × (String → Book), P (acc.2 symbol) →
      P ((order.foldl (takeStale now threshold) acc).2 symbol) from this _ hbook
  induction order with
  | nil => exact fun _ hacc => hacc
  | cons other order ih =>
      intro acc hacc
      refine ih _ ?_
      unfold takeStale
      split_ifs with hstale
      · by_cases hsymbol : symbol = other
        · subst hsymbol
          simpa only [Function.update_self] using hmark _ hacc hstale.1
        · simpa only [Function.update_of_ne hsymbol] using hacc
      · exact hacc

theorem takeStaleBooks_of_uninitialized {books : String → Book} {symbol : String}
    (hstate : (books symbol).state = .uninitialized) (order : List String) (now threshold : Rat) :
    ((takeStaleBooks books order now threshold).2 symbol).state = .uninitialized :=
  takeStaleBooks_preserves (P := fun b => b.state = .uninitialized) hstate
    (fun b hidle hlive => absurd (hidle.symm.trans hlive) (by decide)) order threshold

theorem cleared_takeStaleBooks {books : String → Book} {symbol : String}
    (hcleared : (books symbol).Cleared) (order : List String) (now threshold : Rat) :
    ((takeStaleBooks books order now threshold).2 symbol).Cleared :=
  takeStaleBooks_preserves hcleared
    (fun b _ _ => Book.cleared_of_ne (by simp [Book.markForResync, Book.stamped])) order threshold

theorem foldl_createTask (symbols : List String) (s : System) :
    (symbols.foldl (fun s symbol => s.createTask symbol none) s).books = s.books ∧
      (symbols.foldl (fun s symbol => s.createTask symbol none) s).shards = s.shards ∧
      ∀ i t, (symbols.foldl (fun s symbol => s.createTask symbol none) s).Runs i t →
        s.Runs i t := by
  induction symbols generalizing s with
  | nil => exact ⟨rfl, rfl, fun _ _ h => h⟩
  | cons symbol symbols ih =>
      obtain ⟨hbooks, hshards, hruns⟩ := ih (s.createTask symbol none)
      refine ⟨hbooks, hshards, fun i t h => ?_⟩
      exact (runs_of_createTask (hruns i t h)).resolve_left (by simp)

/-! ## What every step keeps -/

/-- After the cleanup and until the next attempt succeeds. -/
def ShardPc.offline : ShardPc → Bool
  | .connecting | .backoff => true
  | _ => false

def ShardPc.online : ShardPc → Bool
  | .subscribing | .reading => true
  | _ => false

/-- The shard's tasks are registered, and while it is offline its books, its flag
and its registry are as the handler left them. -/
structure Held (u : Universe) (s : System) (i : Nat) : Prop where
  cleared : ∀ symbol ∈ u.shard i, (s.books symbol).Cleared
  covered : Covered (s.Runs i) (s.shards i).syncTasks
  idle : (s.shards i).pc.offline = true →
    ∀ symbol ∈ u.shard i, (s.books symbol).state = .uninitialized
  connected : (s.shards i).pc.offline = true → (s.shards i).connected = false
  syncTasks : (s.shards i).pc.offline = true → (s.shards i).syncTasks = []

namespace Held

theorem of_same {s' : System} (h : Held u s i) (hshard : s'.shards i = s.shards i)
    (hcleared : ∀ symbol ∈ u.shard i, (s'.books symbol).Cleared)
    (hidle : (s.shards i).pc.offline = true → ∀ symbol ∈ u.shard i,
      (s.books symbol).state = .uninitialized → (s'.books symbol).state = .uninitialized)
    (hruns : ∀ t, s'.Runs i t → s.Runs i t) : Held u s' i := by
  refine ⟨hcleared, ?_, ?_, ?_, ?_⟩ <;> rw [hshard]
  · exact h.covered.mono hruns
  · exact fun hoffline symbol hmem =>
      hidle hoffline symbol hmem (h.idle hoffline symbol hmem)
  · exact h.connected
  · exact h.syncTasks

theorem of_books {s' : System} (h : Held u s i) (hshard : s'.shards i = s.shards i)
    (hbooks : s'.books = s.books) (hruns : ∀ t, s'.Runs i t → s.Runs i t) : Held u s' i :=
  h.of_same hshard (fun symbol hmem => hbooks ▸ h.cleared symbol hmem)
    (fun _ _ _ hstate => hbooks ▸ hstate) hruns

theorem setBook (h : Held u s i) {symbol : String} {b : Book}
    (hcleared : symbol ∈ u.shard i → b.Cleared)
    (hidle : (s.shards i).pc.offline = true → symbol ∈ u.shard i →
      (s.books symbol).state = .uninitialized → b.state = .uninitialized) :
    Held u (s.setBook symbol b) i := by
  refine h.of_same rfl (fun other hmem => ?_) (fun hoffline other hmem hstate => ?_)
    fun _ ht => ht
  · simp only [System.setBook, Function.update_apply]
    split_ifs with heq
    · exact hcleared (heq ▸ hmem)
    · exact h.cleared other hmem
  · simp only [System.setBook, Function.update_apply]
    split_ifs with heq
    · subst heq
      exact hidle hoffline hmem hstate
    · exact hstate

theorem setShard (h : Held u s i) {j : Nat} {pc : ShardPc} {connected : Bool}
    (hpc : pc.offline = true →
      (s.shards j).pc.offline = true ∧ connected = (s.shards j).connected) :
    Held u (s.setShard j ⟨pc, connected, (s.shards j).syncTasks⟩) i := by
  by_cases hij : i = j
  · subst hij
    have hshard : (s.setShard i ⟨pc, connected, (s.shards i).syncTasks⟩).shards i =
        ⟨pc, connected, (s.shards i).syncTasks⟩ := Function.update_self _ _ _
    refine ⟨h.cleared, ?_, ?_, ?_, ?_⟩ <;> rw [hshard]
    · exact h.covered
    · exact fun hoffline => h.idle (hpc hoffline).1
    · exact fun hoffline => (hpc hoffline).2.trans (h.connected (hpc hoffline).1)
    · exact fun hoffline => h.syncTasks (hpc hoffline).1
  · exact h.of_books (Function.update_of_ne hij _ _) rfl fun _ ht => ht

theorem setTaskPc (h : Held u s i) {t : Nat} {k : SyncTask} (hk : s.tasks t = some k)
    (hpc : k.pc.unfinished = true) (pc : TaskPc) : Held u (s.setTaskPc t k pc) i :=
  h.of_books rfl rfl fun _ => runs_of_setTaskPc hk hpc

theorem cancel (h : Held u s i) (ids : List Nat) : Held u (s.cancel ids) i :=
  h.of_books rfl rfl fun _ ht => (runs_of_cancel ht).1

theorem requestSync (h : Held u s i) {j : Nat} (hpc : (s.shards j).pc.offline = false)
    (symbol : String) : Held u (s.requestSync j symbol) i := by
  have hcreated : ∀ t, (s.requestSync j symbol).Runs i t →
      t = s.nextTask ∧ some j = some i ∨ s.Runs i t ∧
        t ∉ ((s.shards j).syncTasks.filter fun e => decide (e.1 = symbol)).map Prod.snd :=
    fun t ht => (runs_of_createTask ht).imp id runs_of_cancel
  by_cases hij : i = j
  · subst hij
    have hshard : (s.requestSync i symbol).shards i =
        { s.shards i with
          syncTasks := (symbol, s.nextTask) ::
            (s.shards i).syncTasks.filter fun e => decide (e.1 ≠ symbol) } :=
      Function.update_self _ _ _
    refine ⟨h.cleared, ?_, ?_, ?_, ?_⟩ <;> rw [hshard]
    · exact h.covered.replace symbol s.nextTask fun t ht => (hcreated t ht).imp And.left id
    · simp [hpc]
    · simp [hpc]
    · simp [hpc]
  · refine h.of_books (Function.update_of_ne hij _ _) rfl fun t ht => ?_
    rcases hcreated t ht with ⟨-, heq⟩ | ⟨hruns, -⟩
    · exact absurd (Option.some.inj heq).symm hij
    · exact hruns

theorem disconnected (h : Held u s i) (j : Nat) : Held u (s.disconnected u j) i := by
  have hruns : ∀ t, (s.disconnected u j).Runs i t →
      s.Runs i t ∧ t ∉ (s.shards j).syncTasks.map Prod.snd :=
    fun t ht => runs_of_cancel ht
  have hcleared : ∀ symbol ∈ u.shard i, ((s.disconnected u j).books symbol).Cleared := by
    intro symbol hmem
    simp only [System.disconnected, System.setShard, System.cancel, System.resetBooks]
    split_ifs
    · exact Book.cleared_reset _
    · exact h.cleared symbol hmem
  by_cases hij : i = j
  · subst hij
    have hshard : (s.disconnected u i).shards i = ⟨.backoff, false, []⟩ :=
      Function.update_self _ _ _
    refine ⟨hcleared, ?_, ?_, ?_, ?_⟩ <;> rw [hshard]
    · exact fun t ht => (h.covered.clear hruns t ht).elim
    · intro _ symbol hmem
      simp [System.disconnected, System.setShard, System.cancel, System.resetBooks, hmem,
        Book.reset]
    · exact fun _ => rfl
    · exact fun _ => rfl
  · refine h.of_same (Function.update_of_ne hij _ _) hcleared (fun _ symbol _ hstate => ?_)
      fun t ht => (hruns t ht).1
    simp only [System.disconnected, System.setShard, System.cancel, System.resetBooks]
    split_ifs
    · rfl
    · exact hstate

theorem processingError (h : Held u s i) {j : Nat} {symbol : String} (hmem : symbol ∈ u.shard j)
    (b : Book) : Held u ((s.setBook symbol b).disconnected u j) i := by
  have hbook : ∀ other, ((s.setBook symbol b).disconnected u j).books other =
      (s.disconnected u j).books other ∨
        ∃ b' : Book, ((s.setBook symbol b).disconnected u j).books other = b'.reset := by
    intro other
    simp only [System.disconnected, System.setShard, System.cancel, System.resetBooks]
    by_cases hother : other ∈ u.shard j
    · exact Or.inr ⟨_, if_pos hother⟩
    · have hne : other ≠ symbol := fun heq => hother (heq ▸ hmem)
      simp [hother, System.setBook, hne]
  have hdone := h.disconnected j
  refine hdone.of_same rfl (fun other hother => ?_) (fun _ other _ hstate => ?_) fun _ ht => ht
  · rcases hbook other with heq | ⟨b', heq⟩ <;> rw [heq]
    · exact hdone.cleared other hother
    · exact b'.cleared_reset
  · rcases hbook other with heq | ⟨b', heq⟩ <;> rw [heq]
    · exact hstate
    · rfl

end Held

theorem exists_task {t : Nat} {pc : TaskPc} (h : s.TaskAt t pc) :
    ∃ k, s.tasks t = some k ∧ k.pc = pc := Option.map_eq_some_iff.mp h

theorem not_offline_of_reading {j : Nat} {symbol : String} (hj : (s.shards j).pc = .reading)
    (hmemj : symbol ∈ u.shard j) (hoffline : (s.shards i).pc.offline = true) :
    symbol ∉ u.shard i := by
  intro hmem
  obtain rfl : i = j := (Universe.mem_shard.mp hmem).2.symm.trans (Universe.mem_shard.mp hmemj).2
  rw [hj] at hoffline
  simp [ShardPc.offline] at hoffline

/-- No connection is closed with code 1000 or 1001. -/
def NoNormalClose (_ : System) (a : Act) : Prop := ∀ i, a ≠ .normalClose i

theorem held_next {a : Act} (h : Held u s i) (ha : System.enabled u s a)
    (hclose : NoNormalClose s a) : Held u (System.next u s a) i := by
  cases a with
  | connect j => exact h.setShard (by simp [ShardPc.offline])
  | subscribed j => exact h.setShard (by simp [ShardPc.offline])
  | depth j symbol now e =>
      obtain ⟨hpc, hmem⟩ := ha
      have hbook : Held u (s.setBook symbol (((s.books symbol).stamped now).onDepth e).2) i :=
        h.setBook (fun _ => Book.cleared_of_ne (Book.state_onDepth_ne _ e))
          fun hoffline hmemi => absurd hmemi (not_offline_of_reading hpc hmem hoffline)
      simp only [System.next]
      split
      · exact hbook.requestSync (by simp [System.setBook, hpc, ShardPc.offline]) symbol
      · exact hbook.of_books rfl rfl fun _ ht => ht
      · exact hbook
  | ticker j symbol bid ask =>
      exact h.setBook (fun hmem => h.cleared symbol hmem) fun _ _ hstate => hstate
  | lost j => exact h.disconnected j
  | processingError j symbol b => exact h.processingError ha.2 b
  | normalClose j => exact absurd rfl (hclose j)
  | shutdown j => exact (h.cancel _).setShard (by simp [ShardPc.offline])
  | reconnect j =>
      have hpc : (s.shards j).pc = .backoff := ha
      exact h.setShard fun _ => ⟨by rw [hpc]; rfl, rfl⟩
  | sweep now =>
      obtain ⟨hbooks, hshards, hruns⟩ := foldl_createTask
        (takeStaleBooks s.books u.symbols now Handler.staleThreshold).1
        { s with books := (takeStaleBooks s.books u.symbols now Handler.staleThreshold).2 }
      refine h.of_same (congrFun hshards i) (fun symbol hmem => ?_) (fun _ symbol _ hstate => ?_)
        fun t ht => hruns i t ht
      · rw [System.next, hbooks]
        exact cleared_takeStaleBooks (h.cleared symbol hmem) _ _ _
      · rw [System.next, hbooks]
        exact takeStaleBooks_of_uninitialized hstate _ _ _
  | check t =>
      obtain ⟨k, hk, hpc⟩ := exists_task ha
      simp only [System.next, hk]
      exact h.setTaskPc hk (by rw [hpc]; rfl) _
  | respond t lastUpdateId bids asks =>
      obtain ⟨k, hk, hpc⟩ := exists_task ha
      have hbook : Held u
          (s.setBook k.symbol ((s.books k.symbol).onSnapshot lastUpdateId bids asks).2) i := by
        refine h.setBook (fun hmem => Book.cleared_onSnapshot (h.cleared k.symbol hmem) _ _ _)
          fun _ _ hstate => ?_
        rw [Book.onSnapshot_of_uninitialized hstate]
        exact hstate
      simp only [System.next, hk]
      exact hbook.setTaskPc (t := t) (k := k) hk (by rw [hpc]; rfl) _
  | fetchError t =>
      obtain ⟨k, hk, hpc⟩ := exists_task ha
      simp only [System.next, hk]
      exact h.setTaskPc hk (by rw [hpc]; rfl) _
  | wake t =>
      obtain ⟨k, hk, hpc⟩ := exists_task ha
      simp only [System.next, hk]
      exact h.setTaskPc hk (by rw [hpc]; rfl) _

theorem held_reachable (hs : ((machine u).guarded NoNormalClose).Reachable s) (i : Nat) :
    Held u s i := by
  refine hs.invariant (I := fun s => Held u s i) ?_ ?_
  · rintro _ rfl
    exact ⟨fun _ _ _ => ⟨rfl, rfl, rfl⟩, fun t ⟨_, hk, _⟩ => by simp [System.start] at hk,
      fun _ _ _ => rfl, fun _ => rfl, fun _ => rfl⟩
  · rintro s a h ⟨ha, hclose⟩
    exact held_next h ha hclose

/-! ## Connection attempts -/

/-- What a connection attempt of the shard must start from. -/
structure Unsynced (u : Universe) (s : System) (i : Nat) : Prop where
  books : ∀ symbol ∈ u.shard i, (s.books symbol).state = .uninitialized ∧
    (s.books symbol).bids = InsertionMap.empty ∧ (s.books symbol).asks = InsertionMap.empty ∧
      (s.books symbol).buffer = []
  connected : (s.shards i).connected = false
  syncs : ∀ t k, s.tasks t = some k → k.creator = some i → k.pc.unfinished = false

theorem unsynced_of_connecting (hs : ((machine u).guarded NoNormalClose).Reachable s)
    (hpc : (s.shards i).pc = .connecting) : Unsynced u s i := by
  have hheld := held_reachable hs i
  have hoffline : (s.shards i).pc.offline = true := by
    rw [hpc]
    rfl
  refine ⟨fun symbol hmem => ?_, hheld.connected hoffline, fun t k hk hcreator => ?_⟩
  · have hstate := hheld.idle hoffline symbol hmem
    exact ⟨hstate, hheld.cleared symbol hmem hstate⟩
  · by_contra hunfinished
    obtain ⟨e, he, -⟩ := hheld.covered t ⟨k, hk, hcreator, Bool.not_eq_false _ ▸ hunfinished⟩
    rw [hheld.syncTasks hoffline] at he
    exact List.not_mem_nil he

def Flagged (s : System) (i : Nat) : Prop :=
  (s.shards i).pc.online = true → (s.shards i).connected = true

theorem Flagged.setShard (h : Flagged s i) {j : Nat} {k : Shard}
    (hk : i = j → k.pc.online = true → k.connected = true) : Flagged (s.setShard j k) i := by
  by_cases hij : i = j
  · subst hij
    simpa [Flagged, System.setShard] using hk rfl
  · simpa [Flagged, System.setShard, hij] using h

theorem flagged_next {a : Act} (h : Flagged s i) (ha : System.enabled u s a) :
    Flagged (System.next u s a) i := by
  cases a with
  | connect j => exact h.setShard fun _ _ => rfl
  | subscribed j =>
      refine h.setShard fun hij _ => ?_
      subst hij
      have hpc : (s.shards i).pc = .subscribing := ha
      exact h (by rw [hpc]; rfl)
  | depth j symbol now e =>
      have hbook : Flagged (s.setBook symbol (((s.books symbol).stamped now).onDepth e).2) i := h
      simp only [System.next]
      split
      · exact Flagged.setShard hbook fun hij => hij ▸ h
      · exact h
      · exact h
  | ticker j symbol bid ask => exact h
  | lost j => exact Flagged.setShard h fun _ hpc => by simp [ShardPc.online] at hpc
  | processingError j symbol b =>
      exact Flagged.setShard h fun _ hpc => by simp [ShardPc.online] at hpc
  | normalClose j => exact h.setShard fun _ hpc => by simp [ShardPc.online] at hpc
  | shutdown j => exact Flagged.setShard h fun _ hpc => by simp [ShardPc.online] at hpc
  | reconnect j => exact h.setShard fun _ hpc => by simp [ShardPc.online] at hpc
  | sweep now =>
      obtain ⟨-, hshards, -⟩ := foldl_createTask
        (takeStaleBooks s.books u.symbols now Handler.staleThreshold).1
        { s with books := (takeStaleBooks s.books u.symbols now Handler.staleThreshold).2 }
      rw [Flagged, System.next, hshards]
      exact h
  | check t | respond t _ _ _ | fetchError t | wake t =>
      simp only [System.next]
      split <;> exact h

theorem not_unsynced_of_normalClose (hs : (machine u).Reachable s)
    (hclose : (s.shards i).pc = .reading) :
    ¬ Unsynced u (System.next u s (.normalClose i)) i := by
  have hflagged : Flagged s i := hs.invariant (I := fun s => Flagged s i)
    (by rintro _ rfl hpc; simp [System.start, ShardPc.online] at hpc)
    fun _ _ h ha => flagged_next h ha
  intro hunsynced
  have hconnected := hunsynced.connected
  simp only [System.next, System.setShardPc, System.setShard, Function.update_self] at hconnected
  rw [hflagged (by rw [hclose]; rfl)] at hconnected
  simp at hconnected

/-- In every run of the one port, and in every run of the other in which no
connection is closed with code 1000 or 1001, every connection attempt of a shard
starts unsynced. The attempt after such a close never does. -/
theorem unsynced_at_every_attempt (u : Universe) :
    (∀ s i, u.machine.Reachable s → (s.shards i).pc = .connecting → Handler.Unsynced u s i) ∧
      (∀ s i, ((machine u).guarded NoNormalClose).Reachable s →
        (s.shards i).pc = .connecting → Unsynced u s i) ∧
      ∀ s i, (machine u).Reachable s → (machine u).enabled s (.normalClose i) →
        (((machine u).next s (.normalClose i)).shards i).pc = .connecting ∧
          ¬ Unsynced u ((machine u).next s (.normalClose i)) i :=
  ⟨fun _ _ hs hpc => Handler.unsynced_of_connecting hs hpc,
    fun _ _ hs hpc => unsynced_of_connecting hs hpc, fun _ _ hs hclose =>
      ⟨by simp [machine, System.next, System.setShardPc, System.setShard],
        not_unsynced_of_normalClose hs hclose⟩⟩

/-- A shard that connects, asks for a snapshot, is disconnected and tries again. -/
theorem unsynced_at_every_attempt_second :
    Handler.Unsynced Handler.btc (Handler.btc.machine.exec Handler.System.start
      [.connect 0, .depth 0 "BTCUSDT" 1 ⟨1, 10, 0, [], []⟩, .requestSync 0, .close 0,
        .markDisconnected 0, .resetBooks 0, .abortHandles 0, .reconnect 0]) 0 ∧
      Unsynced Handler.btc ((machine Handler.btc).exec System.start
        [.connect 0, .subscribed 0, .depth 0 "BTCUSDT" 1 ⟨1, 10, 0, [], []⟩, .lost 0,
          .reconnect 0]) 0 := by
  constructor
  · refine (unsynced_at_every_attempt Handler.btc).1 _ 0
      ((Machine.Reachable.start (m := Handler.btc.machine) (s := Handler.System.start) rfl).exec
        _ ?_) ?_ <;> decide +kernel
  · refine (unsynced_at_every_attempt Handler.btc).2.1 _ 0
      ((Machine.Reachable.start (m := (machine Handler.btc).guarded NoNormalClose)
        (s := System.start) rfl).exec _ (Machine.admits_guarded.mpr ⟨?_, ?_⟩)) ?_
    · decide +kernel
    · simp [Machine.Admits, NoNormalClose]
    · decide +kernel

/-- The peer of a connected shard closes the connection: its next attempt finds
the book buffering and the shard flagged as connected. -/
theorem synced_after_normalClose :
    ¬ ∀ (u : Universe),
      (∀ s i, u.machine.Reachable s → (s.shards i).pc = .connecting → Handler.Unsynced u s i) ∧
        ∀ s i, (machine u).Reachable s → (s.shards i).pc = .connecting → Unsynced u s i := by
  intro hall
  have hreachable := (Machine.Reachable.start (m := machine Handler.btc) (s := System.start)
    rfl).exec [.connect 0, .subscribed 0, .depth 0 "BTCUSDT" 1 ⟨1, 10, 0, [], []⟩,
      .normalClose 0] (by decide +kernel)
  have hunsynced := (hall Handler.btc).2 _ 0 hreachable (by decide +kernel)
  exact absurd hunsynced.connected (by decide +kernel)

end FeedHandler.Python
