import FeedHandler.Handler.Refinement
import FeedHandler.Lib.Registry
/-!
# What a disconnect leaves behind

Every way out of the read loop of `run_shard` passes through the same four steps:
the shard is flagged, its books are reset, its syncs are aborted, and it sleeps.
So every connection attempt starts from unsynced books with no sync of the shard
running.
-/

namespace FeedHandler.Handler

open Lib

variable {u : Universe} {s : System} {i : Nat}

/-! ## The syncs of a shard -/

def System.Runs (s : System) (i : Nat) : Nat → Prop :=
  Holds (fun k => k.spawner = some i ∧ k.pc.unfinished = true) s.tasks

theorem runs_of_setTaskPc {t t' : Nat} {k : SyncTask} {pc : TaskPc} (hk : s.tasks t = some k)
    (hpc : k.pc.unfinished = true) (h : (s.setTaskPc t k pc).Runs i t') : s.Runs i t' := by
  refine Holds.of_rewrite h ?_
  by_cases hspawner : k.spawner = some i
  · exact Or.inl ⟨k, hk, hspawner, hpc⟩
  · exact Or.inr fun hruns => hspawner hruns.1

theorem runs_of_spawn {symbol : String} {spawner : Option Nat} {t : Nat}
    (h : (s.spawn symbol spawner).Runs i t) : t = s.nextTask ∧ spawner = some i ∨ s.Runs i t :=
  (Holds.of_update h).imp (fun hnew => ⟨hnew.1, hnew.2.1⟩) id

theorem runs_of_abort {ids : List Nat} {t : Nat} (h : (s.abort ids).Runs i t) :
    s.Runs i t ∧ t ∉ ids := by
  refine Holds.of_map (fun k hruns => ?_) h
  cases hpc : k.pc <;> simp [SyncTask.abort, TaskPc.abort, hpc, TaskPc.unfinished] at hruns

/-- From the moment the shard is flagged until it is connected again. -/
def ShardPc.down : ShardPc → Bool
  | .flagged | .booksReset | .backoff | .connecting => true
  | _ => false

/-- From the moment the syncs are aborted until the shard is connected again. -/
def ShardPc.drained : ShardPc → Bool
  | .backoff | .connecting => true
  | _ => false

/-- The shard's syncs are registered, and its flag and registry are what its place
in the loop says. -/
structure Held (s : System) (i : Nat) : Prop where
  covered : Covered (s.Runs i) (s.shards i).syncHandles
  connected : (s.shards i).pc.down = true → (s.shards i).connected = false
  syncHandles : (s.shards i).pc.drained = true → (s.shards i).syncHandles = []

namespace Held

theorem of_same {s' : System} (h : Held s i) (hshard : s'.shards i = s.shards i)
    (hruns : ∀ t, s'.Runs i t → s.Runs i t) : Held s' i := by
  refine ⟨?_, ?_, ?_⟩
  · rw [hshard]
    exact h.covered.mono hruns
  · rw [hshard]
    exact h.connected
  · rw [hshard]
    exact h.syncHandles

theorem setShard (h : Held s i) {j : Nat} {k : Shard}
    (hcovered : i = j → Covered (s.Runs i) k.syncHandles)
    (hconnected : i = j → k.pc.down = true → k.connected = false)
    (hhandles : i = j → k.pc.drained = true → k.syncHandles = []) :
    Held (s.setShard j k) i := by
  by_cases hij : i = j
  · subst hij
    have hshard : (s.setShard i k).shards i = k := Function.update_self _ _ _
    refine ⟨?_, ?_, ?_⟩
    · rw [hshard]
      exact hcovered rfl
    · rw [hshard]
      exact hconnected rfl
    · rw [hshard]
      exact hhandles rfl
  · exact h.of_same (Function.update_of_ne hij _ _) fun _ ht => ht

theorem setShardPc (h : Held s i) {j : Nat} {pc : ShardPc}
    (hdown : pc.down = true → (s.shards j).pc.down = true)
    (hdrained : pc.drained = true → (s.shards j).pc.drained = true) :
    Held (s.setShardPc j pc) i := by
  refine h.setShard (fun hij => hij ▸ h.covered) (fun hij hpc => ?_) fun hij hpc => ?_
  · subst hij
    exact h.connected (hdown hpc)
  · subst hij
    exact h.syncHandles (hdrained hpc)

theorem setTaskPc (h : Held s i) {t : Nat} {k : SyncTask} (hk : s.tasks t = some k)
    (hpc : k.pc.unfinished = true) (pc : TaskPc) : Held (s.setTaskPc t k pc) i :=
  h.of_same rfl fun _ => runs_of_setTaskPc hk hpc

theorem requestSync (h : Held s i) (j : Nat) (symbol : String) :
    Held (s.requestSync j symbol) i := by
  have hspawned : ∀ t, ((s.abort (s.handlesFor j symbol)).spawn symbol (some j)).Runs i t →
      t = s.nextTask ∧ some j = some i ∨ s.Runs i t ∧ t ∉ s.handlesFor j symbol :=
    fun t ht => (runs_of_spawn ht).imp id runs_of_abort
  by_cases hij : i = j
  · subst hij
    have hshard : (s.requestSync i symbol).shards i =
        { s.shards i with
          pc := .reading
          syncHandles := (symbol, s.nextTask) ::
            (s.shards i).syncHandles.filter fun e => decide (e.1 ≠ symbol) } :=
      Function.update_self _ _ _
    refine ⟨?_, ?_, ?_⟩
    · rw [hshard]
      exact h.covered.replace symbol s.nextTask fun t ht => (hspawned t ht).imp And.left id
    · rw [hshard]
      simp [ShardPc.down]
    · rw [hshard]
      simp [ShardPc.drained]
  · refine h.of_same (Function.update_of_ne hij _ _) fun t ht => ?_
    rcases hspawned t ht with ⟨-, heq⟩ | ⟨hruns, -⟩
    · exact absurd (Option.some.inj heq).symm hij
    · exact hruns

theorem abortHandles (h : Held s i) {j : Nat} (hpc : (s.shards j).pc = .booksReset) :
    Held (s.abortHandles j) i := by
  by_cases hij : i = j
  · subst hij
    have hshard : (s.abortHandles i).shards i =
        { s.shards i with pc := .backoff, syncHandles := [] } := Function.update_self _ _ _
    refine ⟨?_, fun _ => ?_, fun _ => ?_⟩
    · rw [hshard]
      exact fun t ht => (h.covered.clear (fun t ht => runs_of_abort ht) t ht).elim
    · rw [hshard]
      exact h.connected (by rw [hpc]; rfl)
    · rw [hshard]
  · exact h.of_same (Function.update_of_ne hij _ _) fun t ht => (runs_of_abort ht).1

end Held

theorem held_next {a : Act} (h : Held s i) (ha : System.enabled u s a) :
    Held (System.next u s a) i := by
  cases a with
  | connect j =>
      exact h.setShard (fun hij => hij ▸ h.covered) (fun _ hpc => by simp [ShardPc.down] at hpc)
        fun _ hpc => by simp [ShardPc.drained] at hpc
  | connectFail j => exact h.setShardPc (by simp [ShardPc.down]) (by simp [ShardPc.drained])
  | depth j symbol now e =>
      have hbook : Held (s.setBook symbol (((s.books symbol).stamped now).onDepth e).2) i :=
        h.of_same rfl fun _ ht => ht
      refine hbook.setShardPc (fun hdown => ?_) fun hdrained => ?_
      · cases hresult : (((s.books symbol).stamped now).onDepth e).1 <;>
          simp [hresult, ShardPc.after, ShardPc.down] at hdown
      · cases hresult : (((s.books symbol).stamped now).onDepth e).1 <;>
          simp [hresult, ShardPc.after, ShardPc.drained] at hdrained
  | ticker j symbol bid ask => exact h.of_same rfl fun _ ht => ht
  | requestSync j =>
      simp only [System.next]
      split
      next symbol _ => exact h.requestSync j symbol
      next => exact h
  | emit j =>
      simp only [System.next]
      split
      next symbol _ =>
        have hemit : Held (s.emit symbol) i := h.of_same rfl fun _ ht => ht
        exact hemit.setShardPc (by simp [ShardPc.down]) (by simp [ShardPc.drained])
      next => exact h
  | close j => exact h.setShardPc (by simp [ShardPc.down]) (by simp [ShardPc.drained])
  | panicShard j => exact h.setShardPc (by simp [ShardPc.down]) (by simp [ShardPc.drained])
  | markDisconnected j =>
      exact h.setShard (fun hij => hij ▸ h.covered) (fun _ _ => rfl)
        fun _ hpc => by simp [ShardPc.drained] at hpc
  | resetBooks j =>
      have hbooks : Held (s.resetBooks (u.shard j)) i := h.of_same rfl fun _ ht => ht
      have hpc : (s.shards j).pc = .flagged := ha.1
      exact hbooks.setShardPc (fun _ => by simp [System.resetBooks, hpc, ShardPc.down])
        (by simp [ShardPc.drained])
  | abortHandles j => exact h.abortHandles ha
  | reconnect j =>
      have hpc : (s.shards j).pc = .backoff := ha
      exact h.setShardPc (fun _ => by rw [hpc]; rfl) fun _ => by rw [hpc]; rfl
  | sweep now order => exact h.of_same rfl fun _ ht => ht
  | spawnResync =>
      simp only [System.next]
      split
      next symbol rest _ =>
        refine h.of_same rfl fun t ht => ?_
        have hruns : (s.spawn symbol none).Runs i t := ht
        exact (runs_of_spawn hruns).resolve_left (by simp)
      next => exact h
  | check t =>
      obtain ⟨k, hk, hpc⟩ := exists_task ha.1
      simp only [System.next, hk]
      exact h.setTaskPc hk (by rw [hpc]; rfl) _
  | send t =>
      obtain ⟨k, hk, hpc⟩ := exists_task ha
      simp only [System.next, hk]
      exact h.setTaskPc hk (by rw [hpc]; rfl) _
  | fail t =>
      obtain ⟨k, hk, hpc⟩ := exists_task ha
      simp only [System.next, hk]
      exact h.setTaskPc hk (by rw [hpc]; rfl) _
  | respond t lastUpdateId bids asks =>
      obtain ⟨k, hk, hpc⟩ := exists_task ha.1
      have hbook : Held
          (s.setBook k.symbol ((s.books k.symbol).onSnapshot lastUpdateId bids asks).2) i :=
        h.of_same rfl fun _ ht => ht
      have hset := fun pc => hbook.setTaskPc (t := t) (k := k) hk (by rw [hpc]; rfl) pc
      simp only [System.next, hk, System.respond]
      split_ifs
      · exact hset .finished
      · exact (hset .asleepLocked).of_same rfl fun _ ht => ht
  | panicTask t =>
      obtain ⟨k, hk, hpc⟩ := exists_task ha
      simp only [System.next, hk]
      exact h.setTaskPc hk (by rw [hpc]; rfl) _
  | wake t =>
      obtain ⟨k, hk, hpc⟩ := exists_asleep ha
      have hunfinished : k.pc.unfinished = true := by
        rcases hpc with hpc | hpc <;> rw [hpc] <;> rfl
      simp only [System.next, hk]
      exact (h.setTaskPc hk hunfinished .checking).of_same rfl fun _ ht => ht

theorem held_reachable (hs : u.machine.Reachable s) (i : Nat) : Held s i := by
  refine hs.invariant (I := fun s => Held s i) ?_ fun _ _ h ha => held_next h ha
  rintro _ rfl
  exact ⟨fun t ⟨_, hk, _⟩ => by simp [System.start] at hk, fun _ => rfl, fun _ => rfl⟩

/-! ## Connection attempts -/

/-- What a connection attempt of the shard must start from. -/
structure Unsynced (u : Universe) (s : System) (i : Nat) : Prop where
  books : ∀ symbol ∈ u.shard i, (s.books symbol).state = .uninitialized ∧
    (s.books symbol).bids = OrderedMap.empty ∧ (s.books symbol).asks = OrderedMap.empty ∧
      (s.books symbol).buffer = []
  connected : (s.shards i).connected = false
  syncs : ∀ t k, s.tasks t = some k → k.spawner = some i → k.pc.unfinished = false

theorem unsynced_of_connecting (hs : u.machine.Reachable s) (hpc : (s.shards i).pc = .connecting) :
    Unsynced u s i := by
  have hheld := held_reachable hs i
  have hnil := hheld.syncHandles (by rw [hpc]; rfl)
  refine ⟨fun symbol hmem => ?_, hheld.connected (by rw [hpc]; rfl), fun t k hk hspawner => ?_⟩
  · obtain ⟨hsymbol, howner⟩ := Universe.mem_shard.mp hmem
    have hregular := regular_reachable hs hsymbol
    have hstate : (s.books symbol).state = .uninitialized :=
      hregular.cleared (by rw [phase_of_owner howner, hpc]; rfl)
    obtain ⟨hbids, hasks, hbuffer, -⟩ := hregular.wellFormed.uninitialized hstate
    exact ⟨hstate, hbids, hasks, hbuffer⟩
  · by_contra hunfinished
    obtain ⟨e, he, -⟩ := hheld.covered t ⟨k, hk, hspawner, Bool.not_eq_false _ ▸ hunfinished⟩
    rw [hnil] at he
    exact List.not_mem_nil he

end FeedHandler.Handler
