import FeedHandler.Handler.Orphans
import FeedHandler.Book.Counters
import Mathlib.Tactic.Linarith
/-!
# Which books can still come back

From any reachable state a run can bring a tracked book live again, on whatever
uncrossed levels the venue serves next, unless the task of its shard is dead and nobody
is left at work on the book. In that one case no run ever does.
-/

namespace FeedHandler.Handler

open Lib

namespace SymbolState

variable {c : SymbolState}

/-! ## Books that are lost -/

structure Lost (c : SymbolState) : Prop where
  phase : c.phase = .running
  state : c.book.state ≠ .live
  orphan : c.book.state = .buffering → ¬ c.Served

theorem Lost.uninitialized (h : c.Lost) (hserved : c.Served) :
    c.book.state = .uninitialized := by
  have hlive := h.state
  have horphan := h.orphan
  cases hstate : c.book.state with
  | uninitialized => rfl
  | buffering => exact absurd hserved (horphan hstate)
  | live => exact absurd hstate hlive

theorem Lost.of_uninitialized {c' : SymbolState} (hphase : c'.phase = .running)
    (hstate : c'.book.state = .uninitialized) : c'.Lost :=
  ⟨hphase, by simp [hstate], by simp [hstate]⟩

theorem Lost.of_task (h : c.Lost) {t : Nat} {pc : TaskPc} (ht : c.tasks t = some pc)
    (hpc : pc.unfinished = true) : c.book.state = .uninitialized :=
  h.uninitialized (Or.inr (Or.inr ⟨t, pc, ht, hpc⟩))

theorem Lost.next (h : c.Lost) {op : SymbolOp} (hop : c.enabled op)
    (hdeliver : ∀ now e, op ≠ .deliver now e) (hreset : op ≠ .reset) : (c.next op).Lost := by
  have hphase := h.phase
  cases op with
  | connect => exact absurd (hphase.symm.trans hop) (by decide)
  | deliver now e => exact absurd rfl (hdeliver now e)
  | ticker bid ask => exact ⟨hphase, h.state, h.orphan⟩
  | requestSync t => exact absurd (hphase.symm.trans hop.1) (by decide)
  | reset => exact absurd rfl hreset
  | abortHandles => exact absurd (hphase.symm.trans hop) (by decide)
  | sweep now => exact absurd hop.1 h.state
  | spawnResync t =>
      exact .of_uninitialized hphase (h.uninitialized (Or.inr (Or.inl hop.1)))
  | check t => exact .of_uninitialized hphase (h.of_task hop rfl)
  | send t => exact .of_uninitialized hphase (h.of_task hop rfl)
  | fail t => exact .of_uninitialized hphase (h.of_task hop rfl)
  | respond t lastUpdateId bids asks =>
      have hstate := h.of_task hop rfl
      have hafter : (c.book.onSnapshot lastUpdateId bids asks).2.state = .uninitialized := by
        rw [Book.onSnapshot_of_not_buffering (by simp [hstate])]
        exact hstate
      exact .of_uninitialized hphase hafter
  | panicTask t => exact .of_uninitialized hphase (h.of_task hop rfl)
  | wake t =>
      rcases hop with ht | ht
      · exact .of_uninitialized hphase (h.of_task ht rfl)
      · exact .of_uninitialized hphase (h.of_task ht rfl)

end SymbolState

variable {u : Universe} {s : System} {symbol : String}

theorem symbolOp_of_panicked (hpc : (s.shards (u.owner symbol)).pc = .panicked) {a : Act}
    (ha : System.enabled u s a) {op : SymbolOp} (hop : symbolOp u s symbol a = some op) :
    (∀ now e, op ≠ .deliver now e) ∧ op ≠ .reset := by
  cases a with
  | depth i other now e =>
      simp only [symbolOp, Option.ite_none_right_eq_some] at hop
      obtain ⟨hreading, hmem, -⟩ := ha
      rw [hop.1] at hmem
      rw [(Universe.mem_shard.mp hmem).2] at hpc
      simp [hpc] at hreading
  | resetBooks i =>
      simp only [symbolOp, Option.ite_none_right_eq_some] at hop
      obtain ⟨hflagged, -⟩ := ha
      rw [hop.1] at hpc
      simp [hpc] at hflagged
  | emit i | close i | panicShard i | markDisconnected i | reconnect i => simp [symbolOp] at hop
  | connect i | connectFail i | ticker i other bid ask | requestSync i | abortHandles i
  | sweep now order | spawnResync | check t | send t | fail t | respond t lastUpdateId bids asks
  | panicTask t | wake t =>
      simp only [symbolOp, Option.ite_none_right_eq_some, Option.some.injEq] at hop
      obtain ⟨-, rfl⟩ := hop
      exact ⟨by simp, by simp⟩

theorem stays_panicked {a : Act} (ha : System.enabled u s a) {i : Nat}
    (h : (s.shards i).pc = .panicked) : ((System.next u s a).shards i).pc = .panicked := by
  have hstep := shards_next ha i
  generalize (System.next u s a).shards i = k at hstep
  cases hstep <;> simp_all

theorem lost_exec (hs : u.machine.Reachable s) (hsymbol : symbol ∈ u.symbols)
    (hpc : (s.shards (u.owner symbol)).pc = .panicked) (hlost : (s.symbol u symbol).Lost)
    {acts : List Act} (hacts : u.machine.Admits s acts) :
    ((u.machine.exec s acts).symbol u symbol).Lost := by
  have hkept := Machine.exec_kept (m := u.machine)
    (P := fun s => (s.shards (u.owner symbol)).pc = .panicked ∧ (s.symbol u symbol).Lost)
    ?_ hs ⟨hpc, hlost⟩ hacts
  · exact hkept.2
  · intro s a hreach ha h
    refine ⟨stays_panicked ha h.1, ?_⟩
    apply (symbol_next (tidy_reachable hreach) ha hsymbol).preserves h.2
    intro op hop henabled
    obtain ⟨hdeliver, hreset⟩ := symbolOp_of_panicked h.1 ha hop
    exact h.2.next henabled hdeliver hreset

/-! ## The lock of the books -/

def Locked (s : System) : Prop := ∀ t, s.lock = some t → s.TaskAt t .asleepLocked

namespace Locked

theorem setTaskPc (h : Locked s) {t : Nat} {k : SyncTask} (hk : s.tasks t = some k)
    (hpc : k.pc ≠ .asleepLocked) (pc : TaskPc) : Locked (s.setTaskPc t k pc) := by
  intro t' ht'
  have hat : s.TaskAt t' .asleepLocked := h t' ht'
  have hne : t' ≠ t := by
    rintro rfl
    simp [System.TaskAt, hk, hpc] at hat
  show ((Function.update s.tasks t (some { k with pc := pc })) t').map SyncTask.pc = _
  rw [Function.update_of_ne hne]
  exact hat

theorem spawn (h : Locked s) (htidy : Tidy u s) (symbol : String) (spawner : Option Nat) :
    Locked (s.spawn symbol spawner) := by
  intro t ht
  have hat : s.TaskAt t .asleepLocked := h t ht
  have hne : t ≠ s.nextTask := by
    rintro rfl
    simp [System.TaskAt, htidy.fresh s.nextTask le_rfl] at hat
  show ((Function.update s.tasks s.nextTask _) t).map SyncTask.pc = _
  rw [Function.update_of_ne hne]
  exact hat

theorem abort (h : Locked s) (ids : List Nat) : Locked (s.abort ids) := by
  intro t ht
  obtain ⟨hlock, hnot⟩ := Option.filter_eq_some_iff.mp ht
  have hat : s.TaskAt t .asleepLocked := h t hlock
  have hids : t ∉ ids := of_decide_eq_true hnot
  show (if t ∈ ids then (s.tasks t).map SyncTask.abort else s.tasks t).map SyncTask.pc = _
  rw [if_neg hids]
  exact hat

theorem next (h : Locked s) (htidy : Tidy u s) {a : Act} (ha : System.enabled u s a) :
    Locked (System.next u s a) := by
  cases a with
  | requestSync i =>
      simp only [System.next]
      split
      next other _ => exact (h.abort (s.handlesFor i other)).spawn (htidy.abort _) other (some i)
      next => exact h
  | abortHandles i => exact h.abort _
  | emit i =>
      simp only [System.next]
      split
      · exact h
      · exact h
  | spawnResync =>
      simp only [System.next]
      split
      next other rest hstale => exact h.spawn htidy other none
      next => exact h
  | check t =>
      obtain ⟨k, hk, hpc⟩ := exists_task ha.1
      simp only [System.next, hk]
      exact h.setTaskPc hk (by simp [hpc]) _
  | send t =>
      obtain ⟨k, hk, hpc⟩ := exists_task ha
      simp only [System.next, hk]
      exact h.setTaskPc hk (by simp [hpc]) _
  | fail t =>
      obtain ⟨k, hk, hpc⟩ := exists_task ha
      simp only [System.next, hk]
      exact h.setTaskPc hk (by simp [hpc]) _
  | panicTask t =>
      obtain ⟨k, hk, hpc⟩ := exists_task ha
      simp only [System.next, hk]
      exact h.setTaskPc hk (by simp [hpc]) _
  | respond t lastUpdateId bids asks =>
      obtain ⟨k, hk, hpc⟩ := exists_task ha.1
      have hfree : s.lock = none := ha.2
      simp only [System.next, hk, System.respond]
      split_ifs
      · intro t' ht'
        exact absurd (hfree.symm.trans ht') (by simp)
      · intro t' ht'
        obtain rfl := Option.some.inj ht'
        show ((Function.update s.tasks t _) t).map SyncTask.pc = _
        rw [Function.update_self]
        rfl
  | wake t =>
      obtain ⟨k, hk, -⟩ := exists_asleep ha
      simp only [System.next, hk]
      intro t' ht'
      obtain ⟨hlock, hne⟩ := Option.filter_eq_some_iff.mp ht'
      have hat : s.TaskAt t' .asleepLocked := h t' hlock
      show ((Function.update s.tasks t _) t').map SyncTask.pc = _
      rw [Function.update_of_ne (of_decide_eq_true hne)]
      exact hat
  | connect i | connectFail i | depth i other now e | ticker i other bid ask | close i
  | panicShard i | markDisconnected i | resetBooks i | reconnect i | sweep now order => exact h

end Locked

theorem locked_reachable (hs : u.machine.Reachable s) : Locked s :=
  hs.invariant_of_reachable (I := Locked) (by rintro _ rfl t ht; simp [System.start] at ht)
    fun _ _ hreach h ha => h.next (tidy_reachable hreach) ha

/-! ## Back to a fresh connection -/

theorem reaches_unlocked {P : System → Prop}
    (hwake : ∀ s t k, s.tasks t = some k → k.pc = .asleepLocked → P s →
      P (System.next u s (.wake t))) :
    u.machine.Reaches P fun s => P s ∧ s.lock = none := by
  intro s hs hP
  cases hlock : s.lock with
  | none => exact ⟨[], trivial, hP, hlock⟩
  | some t =>
      have hat := locked_reachable hs t hlock
      obtain ⟨k, hk, hpc⟩ := exists_task hat
      refine ⟨[.wake t], ⟨Or.inr hat, trivial⟩, hwake s t k hk hpc hP, ?_⟩
      show (System.next u s (.wake t)).lock = none
      simp [System.next, hk, hlock]

/-- The shard of the symbol is at `pc`, and the books are not locked. -/
def At (u : Universe) (symbol : String) (pc : ShardPc) (s : System) : Prop :=
  (s.shards (u.owner symbol)).pc = pc ∧ s.lock = none

theorem reaches_next {P Q : System → Prop}
    (h : ∀ s, u.machine.Reachable s → P s →
      ∃ a, System.enabled u s a ∧ Q (System.next u s a)) : u.machine.Reaches P Q :=
  Machine.Reaches.of_step h

theorem reaches_at {pc pc' : ShardPc} (a : Act)
    (h : ∀ s, At u symbol pc s → System.enabled u s a ∧ At u symbol pc' (System.next u s a)) :
    u.machine.Reaches (At u symbol pc) (At u symbol pc') :=
  reaches_next fun s _ hP => ⟨a, h s hP⟩

theorem reaches_connecting_of_backoff :
    u.machine.Reaches (At u symbol .backoff) (At u symbol .connecting) :=
  reaches_at (.reconnect (u.owner symbol)) fun s h =>
    ⟨h.1, by simp [At, System.next, System.setShardPc, System.setShard, h.2]⟩

theorem reaches_connecting_of_booksReset :
    u.machine.Reaches (At u symbol .booksReset) (At u symbol .connecting) := by
  apply Machine.Reaches.trans _ reaches_connecting_of_backoff
  exact reaches_at (.abortHandles (u.owner symbol)) fun s h =>
    ⟨h.1, by simp [At, System.next, System.abortHandles, System.setShard, System.abort, h.2]⟩

theorem reaches_connecting_of_flagged :
    u.machine.Reaches (At u symbol .flagged) (At u symbol .connecting) := by
  apply Machine.Reaches.trans _ reaches_connecting_of_booksReset
  exact reaches_at (.resetBooks (u.owner symbol)) fun s h =>
    ⟨⟨h.1, h.2⟩, by
      simp [At, System.next, System.setShardPc, System.setShard, System.resetBooks, h.2]⟩

theorem reaches_connecting_of_closed :
    u.machine.Reaches (At u symbol .closed) (At u symbol .connecting) := by
  apply Machine.Reaches.trans _ reaches_connecting_of_flagged
  exact reaches_at (.markDisconnected (u.owner symbol)) fun s h =>
    ⟨h.1, by simp [At, System.next, System.setShard, h.2]⟩

theorem reaches_connecting_of_reading :
    u.machine.Reaches (At u symbol .reading) (At u symbol .connecting) := by
  apply Machine.Reaches.trans _ reaches_connecting_of_closed
  exact reaches_at (.close (u.owner symbol)) fun s h =>
    ⟨h.1, by simp [At, System.next, System.setShardPc, System.setShard, h.2]⟩

theorem reaches_reading_of_needSnapshot (other : String) :
    u.machine.Reaches (At u symbol (.needSnapshot other)) (At u symbol .reading) :=
  reaches_at (.requestSync (u.owner symbol)) fun s h => by
    have hasking : (s.shards (u.owner symbol)).pc.asking = some other := by
      rw [h.1]
      rfl
    refine ⟨by simp [System.enabled, hasking], ?_⟩
    simp [At, System.next, hasking, System.requestSync, System.setShard, System.spawn,
      System.abort, h.2]

theorem reaches_reading_of_publishing (other : String) :
    u.machine.Reaches (At u symbol (.publishing other)) (At u symbol .reading) :=
  reaches_at (.emit (u.owner symbol)) fun s h => by
    have hemitting : (s.shards (u.owner symbol)).pc.emitting = some other := by
      rw [h.1]
      rfl
    refine ⟨by simp [System.enabled, hemitting, h.2], ?_⟩
    simp [At, System.next, hemitting, System.setShardPc, System.setShard, System.emit, h.2]

theorem reaches_connecting :
    u.machine.Reaches
      (fun s => (s.shards (u.owner symbol)).pc ≠ .panicked ∧ s.lock = none)
      (At u symbol .connecting) := by
  intro s hs ⟨halive, hlock⟩
  cases hpc : (s.shards (u.owner symbol)).pc with
  | connecting => exact ⟨[], trivial, hpc, hlock⟩
  | reading => exact reaches_connecting_of_reading s hs ⟨hpc, hlock⟩
  | needSnapshot other =>
      exact (reaches_reading_of_needSnapshot other).trans reaches_connecting_of_reading s hs
        ⟨hpc, hlock⟩
  | publishing other =>
      exact (reaches_reading_of_publishing other).trans reaches_connecting_of_reading s hs
        ⟨hpc, hlock⟩
  | closed => exact reaches_connecting_of_closed s hs ⟨hpc, hlock⟩
  | flagged => exact reaches_connecting_of_flagged s hs ⟨hpc, hlock⟩
  | booksReset => exact reaches_connecting_of_booksReset s hs ⟨hpc, hlock⟩
  | backoff => exact reaches_connecting_of_backoff s hs ⟨hpc, hlock⟩
  | panicked => exact absurd hpc halive

/-! ## From a connection to a sync -/

/-- A sync of the symbol is at `pc`, its book waits for it, and the books are not
locked. -/
def Syncing (symbol : String) (pc : TaskPc) (s : System) : Prop :=
  s.lock = none ∧ (s.books symbol).state = .buffering ∧
    ∃ t k, s.tasks t = some k ∧ k.symbol = symbol ∧ k.pc = pc

def Marked (symbol : String) (s : System) : Prop :=
  s.lock = none ∧ (s.books symbol).state = .buffering ∧ symbol ∈ s.stale

theorem reaches_reading (hsymbol : symbol ∈ u.symbols) :
    u.machine.Reaches (At u symbol .connecting)
      (fun s => At u symbol .reading s ∧ (s.books symbol).state = .uninitialized) := by
  apply reaches_next
  intro s hs hat
  have hcleared : (s.books symbol).state = .uninitialized :=
    (regular_reachable hs hsymbol).cleared (by rw [phase_of_owner rfl, hat.1]; rfl)
  exact ⟨.connect (u.owner symbol), hat.1, by simp [At, System.next, System.setShard, hat.2],
    hcleared⟩

theorem reaches_asking (hsymbol : symbol ∈ u.symbols) :
    u.machine.Reaches
      (fun s => At u symbol .reading s ∧ (s.books symbol).state = .uninitialized)
      (fun s => At u symbol (.needSnapshot symbol) s ∧ (s.books symbol).state = .buffering) := by
  apply reaches_next
  intro s hs ⟨hat, hstate⟩
  have hmem : symbol ∈ u.shard (u.owner symbol) := Universe.mem_shard.mpr ⟨hsymbol, rfl⟩
  have hasks : (((s.books symbol).stamped 0).onDepth ⟨1, 1, 0, [], []⟩).1 = .needSnapshot := by
    simp [Book.onDepth, Book.stamped, hstate]
  have hbuffers :
      (((s.books symbol).stamped 0).onDepth ⟨1, 1, 0, [], []⟩).2.state = .buffering := by
    simp [Book.onDepth, Book.stamped, hstate]
  refine ⟨.depth (u.owner symbol) symbol 0 ⟨1, 1, 0, [], []⟩, ⟨hat.1, hmem, hat.2⟩, ?_, ?_⟩
  · simp [At, System.next, System.setShardPc, System.setShard, System.setBook, hasks,
      ShardPc.after, hat.2]
  · simp [System.next, System.setShardPc, System.setShard, System.setBook, hbuffers]

theorem reaches_checking :
    u.machine.Reaches
      (fun s => At u symbol (.needSnapshot symbol) s ∧ (s.books symbol).state = .buffering)
      (Syncing symbol .checking) := by
  apply reaches_next
  intro s hs ⟨hat, hstate⟩
  have hasking : (s.shards (u.owner symbol)).pc.asking = some symbol := by
    rw [hat.1]
    rfl
  refine ⟨.requestSync (u.owner symbol), by simp [System.enabled, hasking], ?_⟩
  simp only [System.next, hasking]
  refine ⟨?_, hstate, s.nextTask, ⟨symbol, some (u.owner symbol), .checking⟩, ?_, rfl, rfl⟩
  · simp [System.requestSync, System.setShard, System.spawn, System.abort, hat.2]
  · simp [System.requestSync, System.setShard, System.spawn, System.abort]

theorem reaches_checking_of_marked :
    u.machine.Reaches (Marked symbol) (Syncing symbol .checking) := by
  apply Machine.Reaches.of_measure fun s => s.stale.length
  intro s hs ⟨hlock, hstate, hmem⟩
  obtain ⟨other, rest, hstale⟩ := List.exists_cons_of_ne_nil (List.ne_nil_of_mem hmem)
  have hnext : u.machine.next s .spawnResync = { s.spawn other none with stale := rest } := by
    simp only [Universe.machine, System.next, hstale]
  refine ⟨.spawnResync, List.ne_nil_of_mem hmem, ?_⟩
  rw [hnext]
  by_cases hother : other = symbol
  · subst hother
    exact Or.inl ⟨hlock, hstate, s.nextTask, _, Function.update_self _ _ _, rfl, rfl⟩
  · have hrest : symbol ∈ rest := by
      rw [hstale] at hmem
      exact (List.mem_cons.mp hmem).resolve_left (Ne.symm hother)
    exact Or.inr ⟨⟨hlock, hstate, hrest⟩, by rw [hstale]; exact Nat.lt_succ_self _⟩

theorem reaches_drained :
    u.machine.Reaches (fun s => s.lock = none ∧ (s.books symbol).state = .live ∧ s.stale ≠ [])
      (fun s => s.lock = none ∧ (s.books symbol).state = .live ∧ s.stale = []) := by
  apply Machine.Reaches.of_measure fun s => s.stale.length
  intro s hs ⟨hlock, hlive, hne⟩
  obtain ⟨other, rest, hstale⟩ := List.exists_cons_of_ne_nil hne
  have hnext : u.machine.next s .spawnResync = { s.spawn other none with stale := rest } := by
    simp only [Universe.machine, System.next, hstale]
  refine ⟨.spawnResync, hne, ?_⟩
  rw [hnext]
  by_cases hrest : rest = []
  · exact Or.inl ⟨hlock, hlive, hrest⟩
  · exact Or.inr ⟨⟨hlock, hlive, hrest⟩, by rw [hstale]; exact Nat.lt_succ_self _⟩

theorem reaches_marked (hsymbol : symbol ∈ u.symbols) :
    u.machine.Reaches (fun s => s.lock = none ∧ (s.books symbol).state = .live)
      (Marked symbol) := by
  have hswept : u.machine.Reaches
      (fun s => s.lock = none ∧ (s.books symbol).state = .live ∧ s.stale = [])
      (Marked symbol) := by
    apply reaches_next
    intro s hs ⟨hlock, hlive, hstale⟩
    refine ⟨.sweep ((s.books symbol).lastUpdateTime + 31) u.symbols,
      ⟨hstale, hlock, List.Perm.refl _⟩, ?_⟩
    have htaken := takeStaleBooks_eq s.books u.nodup
      ((s.books symbol).lastUpdateTime + 31) staleThreshold
    have hsilent : Stale (s.books symbol) ((s.books symbol).lastUpdateTime + 31)
        staleThreshold := by
      refine ⟨hlive, ?_⟩
      unfold staleThreshold
      linarith
    refine ⟨hlock, ?_, ?_⟩
    · show ((takeStaleBooks s.books u.symbols _ staleThreshold).2 symbol).state = .buffering
      rw [htaken.2, if_pos ⟨hsymbol, hsilent⟩]
      rfl
    · show symbol ∈ (takeStaleBooks s.books u.symbols _ staleThreshold).1
      rw [htaken.1, List.mem_map]
      exact ⟨symbol, List.mem_filter.mpr ⟨hsymbol, decide_eq_true hsilent⟩,
        (tidy_reachable hs).symbol_eq symbol⟩
  intro s hs ⟨hlock, hlive⟩
  by_cases hstale : s.stale = []
  · exact hswept s hs ⟨hlock, hlive, hstale⟩
  · exact reaches_drained.trans hswept s hs ⟨hlock, hlive, hstale⟩

/-! ## From a sync to a live book -/

theorem exists_pending_nil (buffer : List DepthEvent) :
    ∃ lastUpdateId, Book.pending lastUpdateId buffer = [] := by
  induction buffer with
  | nil => exact ⟨0, rfl⟩
  | cons e buffer ih =>
      obtain ⟨n, hn⟩ := ih
      refine ⟨max n (e.u + 1), ?_⟩
      unfold Book.pending at hn ⊢
      rw [List.filter_eq_nil_iff] at hn ⊢
      intro d hd
      rcases List.mem_cons.mp hd with rfl | hd
      · simp
      · have hlt := hn d hd
        simp only [decide_eq_true_eq] at hlt ⊢
        omega

theorem reaches_requesting :
    u.machine.Reaches (Syncing symbol .checking) (Syncing symbol .requesting) := by
  apply reaches_next
  intro s hs ⟨hlock, hstate, t, k, hk, hsymbol, hpc⟩
  refine ⟨.check t, ⟨by simp [System.TaskAt, hk, hpc], hlock⟩, ?_⟩
  simp only [System.next, hk, hsymbol, hstate, if_true]
  exact ⟨hlock, hstate, t, _, Function.update_self _ _ _, hsymbol, rfl⟩

theorem reaches_inFlight :
    u.machine.Reaches (Syncing symbol .requesting) (Syncing symbol .inFlight) := by
  apply reaches_next
  intro s hs ⟨hlock, hstate, t, k, hk, hsymbol, hpc⟩
  refine ⟨.send t, by simp [System.enabled, System.TaskAt, hk, hpc], ?_⟩
  simp only [System.next, hk]
  exact ⟨hlock, hstate, t, _, Function.update_self _ _ _, hsymbol, rfl⟩

theorem reaches_checking_of_asleep {pc : TaskPc} (hasleep : pc = .retrying ∨ pc = .asleepLocked) :
    u.machine.Reaches (Syncing symbol pc) (Syncing symbol .checking) := by
  apply reaches_next
  intro s hs ⟨hlock, hstate, t, k, hk, hsymbol, hpc⟩
  refine ⟨.wake t, by simpa [System.enabled, System.TaskAt, hk, hpc] using hasleep, ?_⟩
  simp only [System.next, hk]
  exact ⟨by simp [hlock], hstate, t, _, Function.update_self _ _ _, hsymbol, rfl⟩

/-- The book is live on the positive levels of this snapshot. -/
def LiveOn (symbol : String) (bids asks : Levels) (s : System) : Prop :=
  (s.books symbol).state = .live ∧ (s.books symbol).view = BookView.ofPositiveLevels bids asks

variable {bids asks : Levels}

theorem reaches_live (huncrossed : (BookView.ofPositiveLevels bids asks).Uncrossed) :
    u.machine.Reaches (Syncing symbol .inFlight) (LiveOn symbol bids asks) := by
  apply reaches_next
  intro s hs ⟨hlock, hstate, t, k, hk, hsymbol, hpc⟩
  obtain ⟨lastUpdateId, hpending⟩ := exists_pending_nil (s.books symbol).buffer
  have hresynced : (s.books symbol).resynced lastUpdateId bids asks =
      BookView.ofPositiveLevels bids asks := by
    rw [Book.resynced, hpending]
    rfl
  have hbridged :
      Book.Bridged lastUpdateId (Book.pending lastUpdateId (s.books symbol).buffer) := by
    rw [hpending]
    trivial
  have hanswer := (Book.onSnapshot_eq_true_iff_bridged hstate lastUpdateId bids asks).mpr
    ⟨hbridged, by rw [hresynced]; exact huncrossed⟩
  obtain ⟨hlive, hview⟩ := Book.resynced_of_accepted hstate hanswer
  rw [hresynced] at hview
  refine ⟨.respond t lastUpdateId bids asks, ⟨by simp [System.TaskAt, hk, hpc], hlock⟩, ?_⟩
  subst hsymbol
  simp only [System.next, hk, System.respond, hanswer, if_true]
  simp only [LiveOn, System.setTaskPc, System.setBook, Function.update_self]
  exact ⟨hlive, hview⟩

theorem reaches_live_of_checking
    (huncrossed : (BookView.ofPositiveLevels bids asks).Uncrossed) :
    u.machine.Reaches (Syncing symbol .checking) (LiveOn symbol bids asks) :=
  reaches_requesting.trans (reaches_inFlight.trans (reaches_live huncrossed))

theorem reaches_live_of_unfinished {pc : TaskPc} (hpc : pc.unfinished = true)
    (huncrossed : (BookView.ofPositiveLevels bids asks).Uncrossed) :
    u.machine.Reaches (Syncing symbol pc) (LiveOn symbol bids asks) := by
  have hchecking : u.machine.Reaches (Syncing symbol .checking) (LiveOn symbol bids asks) :=
    reaches_live_of_checking huncrossed
  cases pc with
  | checking => exact hchecking
  | requesting => exact reaches_inFlight.trans (reaches_live huncrossed)
  | inFlight => exact reaches_live huncrossed
  | asleepLocked => exact (reaches_checking_of_asleep (Or.inr rfl)).trans hchecking
  | retrying => exact (reaches_checking_of_asleep (Or.inl rfl)).trans hchecking
  | finished | aborted | panicked => simp [TaskPc.unfinished] at hpc

/-! ## Recoverable books -/

/-- A sync of the symbol has not ended, or the sweeper is about to spawn one. -/
def AtWork (symbol : String) (s : System) : Prop :=
  symbol ∈ s.stale ∨ ∃ t k, s.tasks t = some k ∧ k.symbol = symbol ∧ k.pc.unfinished = true

/-- The shard of the symbol is alive, or its book is live, or somebody is at work on it. -/
def Recoverable (u : Universe) (symbol : String) (s : System) : Prop :=
  (s.shards (u.owner symbol)).pc ≠ .panicked ∨ (s.books symbol).state = .live ∨
    (s.books symbol).state = .buffering ∧ AtWork symbol s

theorem lost_of_not_recoverable (h : ¬ Recoverable u symbol s) : (s.symbol u symbol).Lost := by
  unfold Recoverable at h
  push Not at h
  obtain ⟨hpanicked, hnotlive, hidle⟩ := h
  refine ⟨?_, hnotlive, fun hbuffering hserved => hidle hbuffering ?_⟩
  · rw [phase_of_owner rfl, hpanicked]
    rfl
  · rcases hserved with hasking | hmarked | ⟨t, pc, ht, hpc⟩
    · rw [phase_of_owner rfl, hpanicked] at hasking
      exact absurd hasking (by simp [ShardPc.phase])
    · exact Or.inl (by simpa [System.symbol] using hmarked)
    · obtain ⟨k, hk, hsyncs⟩ := Option.bind_eq_some_iff.mp ht
      split_ifs at hsyncs with hsame
      obtain rfl := Option.some.inj hsyncs
      exact Or.inr ⟨t, k, hk, hsame, hpc⟩

theorem next_wake {t : Nat} {k : SyncTask} (hk : s.tasks t = some k) :
    System.next u s (.wake t) =
      { s.setTaskPc t k .checking with
        lock := s.lock.filter fun holder => decide (holder ≠ t) } := by
  simp only [System.next, hk]

theorem reaches_live_of_alive (hsymbol : symbol ∈ u.symbols)
    (huncrossed : (BookView.ofPositiveLevels bids asks).Uncrossed) :
    u.machine.Reaches (fun s => (s.shards (u.owner symbol)).pc ≠ .panicked)
      (LiveOn symbol bids asks) := by
  apply (reaches_unlocked fun s t k hk _ h => by rw [next_wake hk]; exact h).trans
  apply reaches_connecting.trans
  apply (reaches_reading hsymbol).trans
  apply (reaches_asking hsymbol).trans
  exact reaches_checking.trans (reaches_live_of_checking huncrossed)

theorem reaches_live_of_live (hsymbol : symbol ∈ u.symbols)
    (huncrossed : (BookView.ofPositiveLevels bids asks).Uncrossed) :
    u.machine.Reaches (fun s => (s.books symbol).state = .live) (LiveOn symbol bids asks) := by
  apply (reaches_unlocked fun s t k hk _ h => by rw [next_wake hk]; exact h).trans
  have hswap : u.machine.Reaches (fun s => (s.books symbol).state = .live ∧ s.lock = none)
      (fun s => s.lock = none ∧ (s.books symbol).state = .live) :=
    Machine.Reaches.of_imp fun s _ h => ⟨h.2, h.1⟩
  apply hswap.trans
  apply (reaches_marked hsymbol).trans
  exact reaches_checking_of_marked.trans (reaches_live_of_checking huncrossed)

theorem atWork_wake {t : Nat} {k : SyncTask} (hk : s.tasks t = some k) (h : AtWork symbol s) :
    AtWork symbol (System.next u s (.wake t)) := by
  rw [next_wake hk]
  rcases h with hstale | ⟨t', k', hk', hsymbol, hpc⟩
  · exact Or.inl hstale
  · by_cases heq : t' = t
    · subst heq
      obtain rfl : k = k' := Option.some.inj (hk.symm.trans hk')
      exact Or.inr ⟨t', _, Function.update_self _ _ _, hsymbol, rfl⟩
    · exact Or.inr ⟨t', k', (Function.update_of_ne heq _ _).trans hk', hsymbol, hpc⟩

theorem reaches_live_of_atWork (huncrossed : (BookView.ofPositiveLevels bids asks).Uncrossed) :
    u.machine.Reaches (fun s => (s.books symbol).state = .buffering ∧ AtWork symbol s)
      (LiveOn symbol bids asks) := by
  apply (reaches_unlocked fun s t k hk _ h => ⟨by rw [next_wake hk]; exact h.1,
    atWork_wake hk h.2⟩).trans
  intro s hs ⟨⟨hstate, hwork⟩, hlock⟩
  rcases hwork with hstale | ⟨t, k, hk, hsymbol, hpc⟩
  · exact reaches_checking_of_marked.trans (reaches_live_of_checking huncrossed) s hs
      ⟨hlock, hstate, hstale⟩
  · exact reaches_live_of_unfinished hpc huncrossed s hs ⟨hlock, hstate, t, k, hk, hsymbol, rfl⟩

/-- In any reachable state, some run makes the book live on the positive levels of a
snapshot, whichever uncrossed one, exactly when the book is recoverable. Otherwise no run
makes it live at all. -/
theorem resync_possible_iff (hs : u.machine.Reachable s) (hsymbol : symbol ∈ u.symbols) :
    (Recoverable u symbol s ↔ ∀ bids asks, (BookView.ofPositiveLevels bids asks).Uncrossed →
      ∃ acts, u.machine.Admits s acts ∧ LiveOn symbol bids asks (u.machine.exec s acts)) ∧
    (¬ Recoverable u symbol s → ∀ acts, u.machine.Admits s acts →
      ((u.machine.exec s acts).books symbol).state ≠ .live) := by
  have hnever : ¬ Recoverable u symbol s → ∀ acts, u.machine.Admits s acts →
      ((u.machine.exec s acts).books symbol).state ≠ .live := by
    intro hnot acts hacts
    have hpanicked : (s.shards (u.owner symbol)).pc = .panicked := by
      by_contra halive
      exact hnot (Or.inl halive)
    exact (lost_exec hs hsymbol hpanicked (lost_of_not_recoverable hnot) hacts).state
  refine ⟨⟨fun h bids asks huncrossed => ?_, fun h => ?_⟩, hnever⟩
  · rcases h with halive | hlive | hwork
    · exact reaches_live_of_alive hsymbol huncrossed s hs halive
    · exact reaches_live_of_live hsymbol huncrossed s hs hlive
    · exact reaches_live_of_atWork huncrossed s hs hwork
  · by_contra hnot
    obtain ⟨acts, hacts, hlive, -⟩ := h [] [] (Or.inl fun _ => rfl)
    exact hnever hnot acts hacts hlive

/-- From the start any snapshot can be reached. With its shard killed by the first payload,
the book is never live. -/
theorem resync_possible_iff_dead :
    (∃ acts, btc.machine.Admits System.start acts ∧
      LiveOn "BTCUSDT" [(.one, .one)] [] (btc.machine.exec System.start acts)) ∧
    ∀ acts, btc.machine.Admits
        (btc.machine.exec System.start [.connect 0, .panicShard 0]) acts →
      ((btc.machine.exec (btc.machine.exec System.start [.connect 0, .panicShard 0])
        acts).books "BTCUSDT").state ≠ .live := by
  have hdead : btc.machine.Reachable
      (btc.machine.exec System.start [.connect 0, .panicShard 0]) :=
    (Machine.Reachable.start rfl).exec _ (by decide)
  constructor
  · exact (resync_possible_iff (.start rfl) (by decide)).1.mp (Or.inl (by decide)) _ _
      (Or.inr (Or.inl fun _ => rfl))
  · apply (resync_possible_iff hdead (by decide)).2
    rintro (halive | hlive | ⟨hbuffering, -⟩)
    · exact halive (by decide)
    · exact absurd hlive (by decide)
    · exact absurd hbuffering (by decide)

end FeedHandler.Handler
