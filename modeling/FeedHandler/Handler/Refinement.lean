import FeedHandler.Book.WellFormed
import FeedHandler.Handler.Tidy
/-!
# Every step of the system is a step of a symbol

`symbolOp` reads off what an action means for one symbol, and `symbol_next` says
that the symbol's part of the system makes exactly that step, or none. It rests on
`Tidy`: task ids are fresh, handles belong to the shard's own symbols, and the
sweeper lists no symbol twice.
-/

namespace FeedHandler.Handler

open Lib

variable {u : Universe} {s : System}

/-! ## The projection of each update -/

theorem symbol_setBook (symbol other : String) (b : Book) :
    (s.setBook other b).symbol u symbol =
      if other = symbol then { s.symbol u symbol with book := b } else s.symbol u symbol := by
  by_cases h : other = symbol
  · subst h
    rw [if_pos rfl]
    simp [System.symbol, System.setBook, System.handlesFor]
  · rw [if_neg h]
    simp [System.symbol, System.setBook, System.handlesFor, Ne.symm h]

theorem symbol_setShard (symbol : String) (i : Nat) (pc : ShardPc) (connected : Bool) :
    (s.setShard i ⟨pc, connected, (s.shards i).syncHandles⟩).symbol u symbol =
      if u.owner symbol = i then { s.symbol u symbol with phase := pc.phase symbol }
      else s.symbol u symbol := by
  by_cases h : u.owner symbol = i
  · subst h
    rw [if_pos rfl]
    simp [System.symbol, System.setShard, System.handlesFor]
  · rw [if_neg h]
    simp [System.symbol, System.setShard, System.handlesFor, h]

theorem symbol_setShard_same (symbol : String) {i : Nat} {pc : ShardPc} (connected : Bool)
    (hpc : pc.phase symbol = (s.shards i).pc.phase symbol) :
    (s.setShard i ⟨pc, connected, (s.shards i).syncHandles⟩).symbol u symbol =
      s.symbol u symbol := by
  rw [symbol_setShard]
  split_ifs with h
  · rw [hpc, ← h]
    rfl
  · rfl

theorem symbol_setTaskPc (symbol : String) {t : Nat} {k : SyncTask} (pc : TaskPc)
    (hk : s.tasks t = some k) :
    (s.setTaskPc t k pc).symbol u symbol =
      if k.symbol = symbol then (s.symbol u symbol).setTask t pc else s.symbol u symbol := by
  by_cases h : k.symbol = symbol
  · rw [if_pos h]
    ext1
    · rfl
    · rfl
    · funext t'
      simp only [System.symbol, System.setTaskPc, SymbolState.setTask_tasks,
        Function.update_apply]
      split_ifs
      · simp [h]
      · rfl
    · rfl
    · rfl
  · rw [if_neg h]
    ext1
    · rfl
    · rfl
    · funext t'
      simp only [System.symbol, System.setTaskPc, Function.update_apply]
      split_ifs with ht
      · simp [ht, hk, h]
      · rfl
    · rfl
    · rfl

theorem symbol_spawn (symbol other : String) (spawner : Option Nat)
    (hfresh : s.tasks s.nextTask = none) :
    (s.spawn other spawner).symbol u symbol =
      if other = symbol then (s.symbol u symbol).setTask s.nextTask .checking
      else s.symbol u symbol := by
  by_cases h : other = symbol
  · rw [if_pos h]
    ext1
    · rfl
    · rfl
    · funext t
      simp only [System.symbol, System.spawn, SymbolState.setTask_tasks, Function.update_apply]
      split_ifs
      · simp [h]
      · rfl
    · rfl
    · rfl
  · rw [if_neg h]
    ext1
    · rfl
    · rfl
    · funext t
      simp only [System.symbol, System.spawn, Function.update_apply]
      split_ifs with ht
      · simp [h, ht, hfresh]
      · rfl
    · rfl
    · rfl

theorem symbol_abort (symbol : String) (ids : List Nat) :
    (s.abort ids).symbol u symbol =
      { s.symbol u symbol with tasks := SymbolState.abort (s.symbol u symbol).tasks ids } := by
  ext1
  · rfl
  · rfl
  · funext t
    simp only [System.symbol, System.abort, SymbolState.abort]
    split_ifs
    · cases s.tasks t with
      | none => rfl
      | some k => by_cases h : k.symbol = symbol <;> simp [SyncTask.abort, h]
    · rfl
  · rfl
  · rfl

theorem SymbolState.abort_congr {tasks : Nat → Option TaskPc} {ids ids' : List Nat}
    (h : ∀ t, tasks t ≠ none → (t ∈ ids ↔ t ∈ ids')) : abort tasks ids = abort tasks ids' := by
  funext t
  unfold abort
  by_cases ht : tasks t = none
  · simp [ht]
  · simp only [h t ht]

theorem SymbolState.abort_of_not_mem {tasks : Nat → Option TaskPc} {ids : List Nat}
    (h : ∀ t, tasks t ≠ none → t ∉ ids) : abort tasks ids = tasks :=
  (abort_congr fun t ht => iff_of_false (h t ht) List.not_mem_nil).trans rfl

/-! ## The projection of each step -/

def System.Syncs (s : System) (t : Nat) (symbol : String) : Prop :=
  (s.tasks t).map SyncTask.symbol = some symbol

instance (s : System) (t : Nat) (symbol : String) : Decidable (s.Syncs t symbol) :=
  inferInstanceAs (Decidable (_ = _))

/-- What an action means for a symbol, if anything. -/
def symbolOp (u : Universe) (s : System) (symbol : String) : Act → Option SymbolOp
  | .connect i | .connectFail i => if u.owner symbol = i then some .connect else none
  | .depth _ other now e => if other = symbol then some (.deliver now e) else none
  | .ticker _ other bid ask => if other = symbol then some (.ticker bid ask) else none
  | .requestSync i =>
      if (s.shards i).pc = .needSnapshot symbol then some (.requestSync s.nextTask) else none
  | .resetBooks i => if u.owner symbol = i then some .reset else none
  | .abortHandles i => if u.owner symbol = i then some .abortHandles else none
  | .sweep now _ => if Stale (s.books symbol) now staleThreshold then some (.sweep now) else none
  | .spawnResync =>
      if s.stale.head? = some symbol then some (.spawnResync s.nextTask) else none
  | .check t => if s.Syncs t symbol then some (.check t) else none
  | .send t => if s.Syncs t symbol then some (.send t) else none
  | .fail t => if s.Syncs t symbol then some (.fail t) else none
  | .respond t lastUpdateId bids asks =>
      if s.Syncs t symbol then some (.respond t lastUpdateId bids asks) else none
  | .panicTask t => if s.Syncs t symbol then some (.panicTask t) else none
  | .wake t => if s.Syncs t symbol then some (.wake t) else none
  | .emit _ | .close _ | .panicShard _ | .markDisconnected _ | .reconnect _ => none

def SymbolState.Moves (c c' : SymbolState) : Option SymbolOp → Prop
  | none => c' = c
  | some op => c.enabled op ∧ c' = c.next op

theorem SymbolState.Moves.preserves {c c' : SymbolState} {op : Option SymbolOp}
    (h : c.Moves c' op) {J : SymbolState → Prop} (hc : J c)
    (hstep : ∀ o, op = some o → c.enabled o → J (c.next o)) : J c' := by
  cases op with
  | none => exact h ▸ hc
  | some o => exact h.2 ▸ hstep o rfl h.1

theorem ShardPc.phase_after (symbol : String) (action : Action) :
    (ShardPc.after symbol action).phase symbol =
      if action = .needSnapshot then .asking else .running := by
  cases action <;> simp [ShardPc.after, ShardPc.phase]

theorem ShardPc.phase_after_of_ne {symbol other : String} (hne : other ≠ symbol)
    (action : Action) : (ShardPc.after other action).phase symbol = .running := by
  cases action <;> simp [ShardPc.after, ShardPc.phase, hne]

theorem phase_of_owner {symbol : String} {i : Nat} (h : u.owner symbol = i) :
    (s.symbol u symbol).phase = (s.shards i).pc.phase symbol := by
  rw [← h]
  rfl

theorem tasks_of_syncs {symbol : String} {t : Nat} {k : SyncTask} (hk : s.tasks t = some k)
    (hsyncs : k.symbol = symbol) : (s.symbol u symbol).tasks t = some k.pc := by
  simp [System.symbol, hk, hsyncs]

theorem tasks_fresh (h : Tidy u s) (symbol : String) :
    (s.symbol u symbol).tasks s.nextTask = none := by
  simp [System.symbol, h.fresh s.nextTask le_rfl]

theorem moves_setTaskPc (symbol : String) {t : Nat} {k : SyncTask} {pc : TaskPc}
    (hk : s.tasks t = some k) {op : SymbolOp}
    (henabled : k.symbol = symbol → (s.symbol u symbol).enabled op)
    (hnext : k.symbol = symbol → (s.symbol u symbol).next op = (s.symbol u symbol).setTask t pc) :
    (s.symbol u symbol).Moves ((s.setTaskPc t k pc).symbol u symbol)
      (if s.Syncs t symbol then some op else none) := by
  rw [symbol_setTaskPc symbol pc hk]
  by_cases h : k.symbol = symbol
  · rw [if_pos h, if_pos (by simp [System.Syncs, hk, h])]
    exact ⟨henabled h, (hnext h).symm⟩
  · rw [if_neg h, if_neg (by simp [System.Syncs, hk, h])]
    rfl

theorem symbol_abortHandles (h : Tidy u s) (i : Nat) (symbol : String) :
    (s.abortHandles i).symbol u symbol =
      if u.owner symbol = i then
        { (s.symbol u symbol).next .abortHandles with phase := .cleared }
      else s.symbol u symbol := by
  have hid : ∀ e ∈ (s.shards i).syncHandles, (s.symbol u symbol).tasks e.2 ≠ none →
      e.1 = symbol := by
    intro e he hsome
    obtain ⟨-, k, hk, hks⟩ := h.registered i e he
    by_contra hne
    exact hsome (by simp [System.symbol, hk, hks, hne])
  by_cases howner : u.owner symbol = i
  · rw [if_pos howner]
    ext1
    · rfl
    · simp [System.symbol, System.abortHandles, System.setShard, howner, ShardPc.phase]
    · have habort := congrArg SymbolState.tasks
        (symbol_abort (u := u) (s := s) symbol ((s.shards i).syncHandles.map Prod.snd))
      refine habort.trans (SymbolState.abort_congr fun t ht => ?_)
      simp only [System.symbol, howner, System.handlesFor, List.mem_map, List.mem_filter,
        decide_eq_true_eq]
      constructor
      · rintro ⟨e, he, rfl⟩
        exact ⟨e, ⟨he, hid e he ht⟩, rfl⟩
      · rintro ⟨e, ⟨he, -⟩, rfl⟩
        exact ⟨e, he, rfl⟩
    · simp [System.symbol, System.abortHandles, System.setShard, System.handlesFor, howner,
        SymbolState.next]
    · rfl
  · rw [if_neg howner]
    ext1
    · rfl
    · simp [System.symbol, System.abortHandles, System.setShard, howner, System.abort]
    · have habort := congrArg SymbolState.tasks
        (symbol_abort (u := u) (s := s) symbol ((s.shards i).syncHandles.map Prod.snd))
      refine habort.trans (SymbolState.abort_of_not_mem fun t ht hmem => ?_)
      obtain ⟨e, he, rfl⟩ := List.mem_map.mp hmem
      have hown := (Universe.mem_shard.mp (h.registered i e he).1).2
      rw [hid e he ht] at hown
      exact howner hown
    · simp [System.symbol, System.abortHandles, System.setShard, System.handlesFor, howner,
        System.abort]
    · rfl

theorem handlesFor_requestSync_self (i : Nat) (symbol : String) :
    (s.requestSync i symbol).handlesFor i symbol = [s.nextTask] := by
  have hnil : ((s.shards i).syncHandles.filter fun h => decide (h.1 ≠ symbol)).filter
      (fun h => decide (h.1 = symbol)) = [] := by
    simp
  simp only [System.handlesFor, System.requestSync, System.setShard, Function.update_self,
    List.filter_cons, decide_true, if_true, hnil]
  rfl

theorem handlesFor_requestSync_of_ne {i j : Nat} {symbol other : String} (hne : other ≠ symbol) :
    (s.requestSync i other).handlesFor j symbol = s.handlesFor j symbol := by
  have hfilter : ((s.shards i).syncHandles.filter fun h => decide (h.1 ≠ other)).filter
      (fun h => decide (h.1 = symbol)) =
        (s.shards i).syncHandles.filter fun h => decide (h.1 = symbol) := by
    rw [List.filter_filter]
    refine List.filter_congr fun h _ => ?_
    by_cases hh : h.1 = symbol <;> simp [hh, Ne.symm hne]
  simp only [System.handlesFor, System.requestSync, System.setShard, Function.update_apply]
  split_ifs with hj
  · subst hj
    rw [List.filter_cons_of_neg (by simpa using hne), hfilter]
  · rfl

theorem symbol_requestSync (h : Tidy u s) {i : Nat} {other : String}
    (hpc : (s.shards i).pc = .needSnapshot other) (symbol : String) :
    (s.requestSync i other).symbol u symbol =
      if other = symbol then (s.symbol u symbol).next (.requestSync s.nextTask)
      else s.symbol u symbol := by
  have hspawn := symbol_spawn (u := u) (s := s.abort (s.handlesFor i other)) symbol other (some i)
    ((h.abort _).fresh s.nextTask le_rfl)
  rw [symbol_abort] at hspawn
  have howner := (Universe.mem_shard.mp (h.asking i other hpc)).2
  by_cases hother : other = symbol
  · subst hother
    rw [if_pos rfl] at hspawn ⊢
    ext1
    · rfl
    · simp [System.symbol, System.requestSync, System.setShard, howner, ShardPc.phase,
        SymbolState.next]
    · refine (congrArg SymbolState.tasks hspawn).trans ?_
      simp only [SymbolState.setTask, SymbolState.next, System.symbol, howner]
      rfl
    · simp only [System.symbol, howner, handlesFor_requestSync_self, SymbolState.next]
    · rfl
  · rw [if_neg hother] at hspawn ⊢
    ext1
    · rfl
    · simp only [System.symbol, System.requestSync, System.setShard, Function.update_apply]
      split_ifs with hi
      · simp [hi, hpc, hother, ShardPc.phase]
      · rfl
    · refine (congrArg SymbolState.tasks hspawn).trans ?_
      refine SymbolState.abort_of_not_mem fun t ht hmem => ht ?_
      obtain ⟨e, he, rfl⟩ := List.mem_map.mp hmem
      obtain ⟨he, hkey⟩ := List.mem_filter.mp he
      obtain ⟨-, k, hk, hks⟩ := h.registered i e he
      have hne : k.symbol ≠ symbol := by
        rw [hks, of_decide_eq_true hkey]
        exact hother
      simp [System.symbol, hk, hne]
    · simp only [System.symbol, handlesFor_requestSync_of_ne hother]
    · rfl

theorem symbol_sweep (h : Tidy u s) {order : List String} (hperm : order.Perm u.symbols)
    (hnone : s.stale = []) (now : Rat) {symbol : String} (hsymbol : symbol ∈ u.symbols) :
    (s.symbol u symbol).Moves ((System.next u s (.sweep now order)).symbol u symbol)
      (symbolOp u s symbol (.sweep now order)) := by
  have hmem : symbol ∈ order := hperm.mem_iff.mpr hsymbol
  obtain ⟨hlist, hbooks⟩ := takeStaleBooks_eq s.books (hperm.nodup_iff.mpr u.nodup) now
    staleThreshold
  simp only [h.symbol_eq, List.map_id'] at hlist
  simp only [symbolOp, System.next, System.symbol, hbooks, hlist, hmem, true_and]
  by_cases hstale : Stale (s.books symbol) now staleThreshold
  · rw [if_pos hstale, if_pos hstale]
    refine ⟨⟨hstale.1, by simp [hnone]⟩, ?_⟩
    simp [SymbolState.next, hmem, hstale, System.handlesFor]
  · rw [if_neg hstale, if_neg hstale]
    simp [SymbolState.Moves, hstale, hnone, System.handlesFor]

theorem symbol_depth {i : Nat} {other : String} {now : Rat} {e : DepthEvent}
    (ha : System.enabled u s (.depth i other now e)) (symbol : String) :
    (s.symbol u symbol).Moves ((System.next u s (.depth i other now e)).symbol u symbol)
      (symbolOp u s symbol (.depth i other now e)) := by
  obtain ⟨hpc, hmem, -⟩ := ha
  obtain ⟨-, howner⟩ := Universe.mem_shard.mp hmem
  simp only [System.next, symbolOp, System.setShardPc]
  rw [symbol_setShard, symbol_setBook]
  by_cases hother : other = symbol
  · subst hother
    rw [if_pos rfl, if_pos howner, if_pos rfl]
    refine ⟨by simp [SymbolState.enabled, phase_of_owner howner, hpc, ShardPc.phase], ?_⟩
    rw [ShardPc.phase_after]
    rfl
  · rw [if_neg hother, if_neg hother]
    split_ifs with howner'
    · have hphase : (s.symbol u symbol).phase = .running := by
        simp [phase_of_owner howner', hpc, ShardPc.phase]
      rw [ShardPc.phase_after_of_ne hother, ← hphase]
      rfl
    · rfl

theorem symbol_spawnResync (h : Tidy u s) (ha : System.enabled u s .spawnResync)
    (symbol : String) :
    (s.symbol u symbol).Moves ((System.next u s .spawnResync).symbol u symbol)
      (symbolOp u s symbol .spawnResync) := by
  obtain ⟨other, rest, hstale⟩ := List.exists_cons_of_ne_nil ha
  obtain ⟨hnot, -⟩ := List.nodup_cons.mp (hstale ▸ h.stale_nodup)
  have hspawn := symbol_spawn (u := u) symbol other none (h.fresh s.nextTask le_rfl)
  simp only [System.next, symbolOp, hstale, List.head?_cons, Option.some.injEq]
  by_cases hother : other = symbol
  · subst hother
    rw [if_pos rfl] at hspawn ⊢
    refine ⟨⟨by simp [System.symbol, hstale], tasks_fresh h other⟩, ?_⟩
    ext1
    · rfl
    · rfl
    · have htasks := congrArg SymbolState.tasks hspawn
      exact htasks
    · rfl
    · simpa [System.symbol, SymbolState.next] using hnot
  · rw [if_neg hother] at hspawn ⊢
    ext1
    · rfl
    · rfl
    · have htasks := congrArg SymbolState.tasks hspawn
      exact htasks
    · rfl
    · simp [System.symbol, hstale, Ne.symm hother]

theorem symbol_respond {t lastUpdateId : Nat} {bids asks : Levels}
    (ha : System.enabled u s (.respond t lastUpdateId bids asks)) (symbol : String) :
    (s.symbol u symbol).Moves
      ((System.next u s (.respond t lastUpdateId bids asks)).symbol u symbol)
      (symbolOp u s symbol (.respond t lastUpdateId bids asks)) := by
  obtain ⟨k, hk, hpc⟩ := exists_task ha.1
  simp only [System.next, symbolOp, hk]
  have hprojected : (s.respond t k lastUpdateId bids asks).symbol u symbol =
      if k.symbol = symbol then
        (s.symbol u symbol).next (.respond t lastUpdateId bids asks)
      else s.symbol u symbol := by
    have hset := symbol_setTaskPc (u := u)
      (s := s.setBook k.symbol ((s.books k.symbol).onSnapshot lastUpdateId bids asks).2)
      symbol (if ((s.books k.symbol).onSnapshot lastUpdateId bids asks).1 then .finished
        else .asleepLocked) hk
    rw [symbol_setBook] at hset
    have hlock : (s.respond t k lastUpdateId bids asks).symbol u symbol =
        ((s.setBook k.symbol ((s.books k.symbol).onSnapshot lastUpdateId bids asks).2).setTaskPc
          t k (if ((s.books k.symbol).onSnapshot lastUpdateId bids asks).1 then .finished
            else .asleepLocked)).symbol u symbol := by
      unfold System.respond
      dsimp only
      split_ifs <;> rfl
    rw [hlock, hset]
    by_cases hsyncs : k.symbol = symbol
    · subst hsyncs
      simp only [if_true]
      rfl
    · simp only [if_neg hsyncs]
  rw [hprojected]
  by_cases hsyncs : k.symbol = symbol
  · rw [if_pos hsyncs, if_pos (by simp [System.Syncs, hk, hsyncs])]
    exact ⟨(tasks_of_syncs hk hsyncs).trans (congrArg some hpc), rfl⟩
  · rw [if_neg hsyncs, if_neg (by simp [System.Syncs, hk, hsyncs])]
    rfl

/-- The system refines the symbol: every step of it is the step `symbolOp` names. -/
theorem symbol_next (h : Tidy u s) {a : Act} (ha : System.enabled u s a) {symbol : String}
    (hsymbol : symbol ∈ u.symbols) :
    (s.symbol u symbol).Moves ((System.next u s a).symbol u symbol)
      (symbolOp u s symbol a) := by
  -- a shard that moves between two points the symbol cannot tell apart
  have hquiet : ∀ {i : Nat} {pc : ShardPc} (connected : Bool),
      pc.phase symbol = (s.shards i).pc.phase symbol →
      (s.symbol u symbol).Moves
        ((s.setShard i ⟨pc, connected, (s.shards i).syncHandles⟩).symbol u symbol) none :=
    fun connected hpc => symbol_setShard_same symbol connected hpc
  cases a with
  | connect i =>
      simp only [System.next, symbolOp]
      rw [symbol_setShard]
      split_ifs with howner
      · exact ⟨by simp [SymbolState.enabled, phase_of_owner howner, show _ = _ from ha,
          ShardPc.phase], rfl⟩
      · rfl
  | connectFail i =>
      simp only [System.next, symbolOp, System.setShardPc]
      rw [symbol_setShard]
      split_ifs with howner
      · exact ⟨by simp [SymbolState.enabled, phase_of_owner howner, show _ = _ from ha,
          ShardPc.phase], rfl⟩
      · rfl
  | depth i other now e => exact symbol_depth ha symbol
  | ticker i other bid ask =>
      obtain ⟨hpc, hmem, -⟩ := ha
      obtain ⟨-, howner⟩ := Universe.mem_shard.mp hmem
      simp only [System.next, symbolOp]
      rw [symbol_setBook]
      split_ifs with hother
      · subst hother
        exact ⟨by simp [SymbolState.enabled, phase_of_owner howner, hpc, ShardPc.phase], rfl⟩
      · rfl
  | requestSync i =>
      obtain ⟨other, hother⟩ := Option.isSome_iff_exists.mp ha
      have hpc := ShardPc.asking_eq_some.mp hother
      simp only [System.next, symbolOp, hother]
      rw [symbol_requestSync h hpc, hpc]
      by_cases heq : other = symbol
      · subst heq
        rw [if_pos rfl, if_pos rfl]
        have howner := (Universe.mem_shard.mp (h.asking i other hpc)).2
        exact ⟨⟨by simp [phase_of_owner howner, hpc, ShardPc.phase], tasks_fresh h other⟩, rfl⟩
      · rw [if_neg heq, if_neg (by simpa using heq)]
        rfl
  | emit i =>
      obtain ⟨other, hother⟩ := Option.isSome_iff_exists.mp ha.1
      have hpc := ShardPc.emitting_eq_some.mp hother
      simp only [System.next, symbolOp, hother]
      exact hquiet (i := i) _ (by rw [hpc]; rfl)
  | close i => exact hquiet _ (by rw [show _ = _ from ha]; rfl)
  | panicShard i => exact hquiet _ (by rw [show _ = _ from ha]; rfl)
  | markDisconnected i => exact hquiet _ (by rw [show _ = _ from ha]; rfl)
  | resetBooks i =>
      simp only [System.next, symbolOp, System.setShardPc]
      rw [symbol_setShard]
      have hmem : symbol ∈ u.shard i ↔ u.owner symbol = i := by
        rw [Universe.mem_shard]
        exact and_iff_right hsymbol
      split_ifs with howner
      · refine ⟨by simp [SymbolState.enabled, phase_of_owner howner, ha.1, ShardPc.phase], ?_⟩
        simp [System.symbol, System.resetBooks, System.handlesFor, SymbolState.next,
          hmem.mpr howner, ShardPc.phase]
      · simp [SymbolState.Moves, System.symbol, System.resetBooks, System.handlesFor,
          mt hmem.mp howner]
  | abortHandles i =>
      simp only [System.next, symbolOp]
      rw [symbol_abortHandles h]
      split_ifs with howner
      · have hphase : (s.symbol u symbol).phase = .cleared := by
          simp [phase_of_owner howner, show _ = _ from ha, ShardPc.phase]
        exact ⟨hphase, by simp [SymbolState.next, hphase]⟩
      · rfl
  | reconnect i => exact hquiet _ (by rw [show _ = _ from ha]; rfl)
  | sweep now order => exact symbol_sweep h ha.2.2 ha.1 now hsymbol
  | spawnResync => exact symbol_spawnResync h ha symbol
  | check t =>
      obtain ⟨k, hk, hpc⟩ := exists_task ha.1
      simp only [System.next, symbolOp, hk]
      refine moves_setTaskPc symbol hk (fun hsyncs => ?_) fun hsyncs => ?_
      · exact (tasks_of_syncs hk hsyncs).trans (congrArg some hpc)
      · subst hsyncs
        rfl
  | send t =>
      obtain ⟨k, hk, hpc⟩ := exists_task ha
      simp only [System.next, symbolOp, hk]
      exact moves_setTaskPc symbol hk
        (fun hsyncs => (tasks_of_syncs hk hsyncs).trans (congrArg some hpc)) fun _ => rfl
  | fail t =>
      obtain ⟨k, hk, hpc⟩ := exists_task ha
      simp only [System.next, symbolOp, hk]
      exact moves_setTaskPc symbol hk
        (fun hsyncs => (tasks_of_syncs hk hsyncs).trans (congrArg some hpc)) fun _ => rfl
  | respond t lastUpdateId bids asks => exact symbol_respond ha symbol
  | panicTask t =>
      obtain ⟨k, hk, hpc⟩ := exists_task ha
      simp only [System.next, symbolOp, hk]
      exact moves_setTaskPc symbol hk
        (fun hsyncs => (tasks_of_syncs hk hsyncs).trans (congrArg some hpc)) fun _ => rfl
  | wake t =>
      obtain ⟨k, hk, hpc⟩ := exists_asleep ha
      simp only [System.next, symbolOp, hk]
      refine moves_setTaskPc symbol hk (fun hsyncs => ?_) fun _ => rfl
      simp only [SymbolState.enabled, tasks_of_syncs hk hsyncs, Option.some.injEq]
      exact hpc

/-! ## What holds of every symbol -/

/-- The symbol's book is well formed, and uninitialized while its shard has no
connection. -/
structure SymbolState.Regular (c : SymbolState) : Prop where
  wellFormed : c.book.WellFormed
  cleared : c.phase = .cleared → c.book.state = .uninitialized

namespace SymbolState

theorem wellFormed_stamped {b : Book} (h : b.WellFormed) (now : Rat) :
    (b.stamped now).WellFormed := ⟨h.bounded, h.uninitialized, h.live⟩

theorem Regular.setTask {c : SymbolState} (h : c.Regular) (t : Nat) (pc : TaskPc) :
    (c.setTask t pc).Regular := ⟨h.wellFormed, h.cleared⟩

theorem Regular.next {c : SymbolState} (h : c.Regular) {op : SymbolOp} (hop : c.enabled op) :
    (c.next op).Regular := by
  cases op with
  | connect => exact ⟨h.wellFormed, by simp [SymbolState.next]⟩
  | deliver now e =>
      refine ⟨Book.wellFormed_onDepth (wellFormed_stamped h.wellFormed now) e, fun hphase => ?_⟩
      simp only [SymbolState.next] at hphase
      split_ifs at hphase
  | ticker bid ask => exact ⟨Book.wellFormed_setTickerBbo h.wellFormed bid ask, h.cleared⟩
  | requestSync t => exact ⟨h.wellFormed, by simp [SymbolState.next]⟩
  | reset => exact ⟨Book.wellFormed_reset c.book, fun _ => rfl⟩
  | abortHandles => exact ⟨h.wellFormed, h.cleared⟩
  | sweep now =>
      refine ⟨wellFormed_stamped (Book.wellFormed_markForResync c.book) now, fun hphase => ?_⟩
      exact absurd (hop.1.symm.trans (h.cleared hphase)) (by decide)
  | spawnResync t => exact ⟨h.wellFormed, h.cleared⟩
  | check t => exact h.setTask t _
  | send t => exact h.setTask t _
  | fail t => exact h.setTask t _
  | respond t lastUpdateId bids asks =>
      refine ⟨Book.wellFormed_onSnapshot h.wellFormed lastUpdateId bids asks, fun hphase => ?_⟩
      have hidle := h.cleared hphase
      have hkeep := Book.onSnapshot_of_not_buffering (b := c.book) (by simp [hidle])
        lastUpdateId bids asks
      simpa [SymbolState.next, hkeep] using hidle
  | panicTask t => exact h.setTask t _
  | wake t => exact h.setTask t _

end SymbolState

theorem regular_reachable (hs : u.machine.Reachable s) {symbol : String}
    (hsymbol : symbol ∈ u.symbols) : (s.symbol u symbol).Regular := by
  refine hs.invariant_of_reachable (I := fun s => (s.symbol u symbol).Regular) ?_ ?_
  · rintro _ rfl
    exact ⟨Book.wellFormed_new symbol, fun _ => rfl⟩
  · intro s a hreach h ha
    exact (symbol_next (tidy_reachable hreach) ha hsymbol).preserves h fun _ _ hop => h.next hop

end FeedHandler.Handler
