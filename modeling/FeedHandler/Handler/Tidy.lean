import FeedHandler.Handler.Symbol
/-!
# What every step keeps tidy

Task ids are fresh, handles belong to the shard's own symbols, a shard asks only
for a symbol of its own, and the sweeper lists no symbol twice. One lemma for each
update of the system, and from them the step and the run.
-/

namespace FeedHandler.Handler

open Lib

variable {u : Universe} {s : System}

/-! ## The sweep -/

theorem takeStaleBooks_eq (books : String → Book) {order : List String} (hnodup : order.Nodup)
    (now threshold : Rat) :
    (takeStaleBooks books order now threshold).1 =
      (order.filter fun symbol => decide (Stale (books symbol) now threshold)).map
        (fun symbol => (books symbol).symbol) ∧
    ∀ symbol, (takeStaleBooks books order now threshold).2 symbol =
      if symbol ∈ order ∧ Stale (books symbol) now threshold then
        (books symbol).markForResync.stamped now
      else books symbol := by
  induction order using List.reverseRecOn with
  | nil => exact ⟨rfl, fun symbol => by simp [takeStaleBooks]⟩
  | append_singleton order last ih =>
      obtain ⟨hnodup', -, hdisjoint⟩ := List.nodup_append.mp hnodup
      obtain ⟨hlist, hbooks⟩ := ih hnodup'
      have hlast : last ∉ order := fun hmem => hdisjoint last hmem last (by simp) rfl
      have hunchanged : (takeStaleBooks books order now threshold).2 last = books last := by
        rw [hbooks, if_neg fun h => hlast h.1]
      have hstep : takeStaleBooks books (order ++ [last]) now threshold =
          takeStale now threshold (takeStaleBooks books order now threshold) last := by
        simp [takeStaleBooks]
      rw [hstep, takeStale, hunchanged]
      by_cases hstale : Stale (books last) now threshold
      · rw [if_pos hstale]
        refine ⟨by simp [hlist, List.filter_append, hstale], fun symbol => ?_⟩
        by_cases hsymbol : symbol = last
        · subst hsymbol
          simp [hstale]
        · simp [hsymbol, hbooks]
      · rw [if_neg hstale]
        refine ⟨by simp [hlist, List.filter_append, hstale], fun symbol => ?_⟩
        rw [hbooks]
        by_cases hsymbol : symbol = last
        · subst hsymbol
          simp [hstale]
        · simp [hsymbol]

/-! ## Tidiness -/

/-- What every step of the system keeps and the projection relies on. -/
structure Tidy (u : Universe) (s : System) : Prop where
  symbol_eq : ∀ symbol, (s.books symbol).symbol = symbol
  stale_nodup : s.stale.Nodup
  fresh : ∀ t, s.nextTask ≤ t → s.tasks t = none
  registered : ∀ i, ∀ h ∈ (s.shards i).syncHandles,
    h.1 ∈ u.shard i ∧ ∃ k, s.tasks h.2 = some k ∧ k.symbol = h.1
  asking : ∀ i symbol, (s.shards i).pc = .needSnapshot symbol → symbol ∈ u.shard i

namespace Tidy

theorem start : Tidy u System.start where
  symbol_eq _ := rfl
  stale_nodup := List.nodup_nil
  fresh _ _ := rfl
  registered i h hh := by simp [System.start] at hh
  asking i symbol h := by simp [System.start] at h

theorem setBook (h : Tidy u s) {symbol : String} {b : Book} (hb : b.symbol = symbol) :
    Tidy u (s.setBook symbol b) := by
  refine ⟨fun other => ?_, h.stale_nodup, h.fresh, h.registered, h.asking⟩
  simp only [System.setBook, Function.update_apply]
  split_ifs with hother
  · rw [hb, hother]
  · exact h.symbol_eq other

theorem setShard (h : Tidy u s) {i : Nat} {k : Shard}
    (hregistered : ∀ e ∈ k.syncHandles,
      e.1 ∈ u.shard i ∧ ∃ k, s.tasks e.2 = some k ∧ k.symbol = e.1)
    (hasking : ∀ symbol, k.pc = .needSnapshot symbol → symbol ∈ u.shard i) :
    Tidy u (s.setShard i k) := by
  refine ⟨h.symbol_eq, h.stale_nodup, h.fresh, fun j => ?_, fun j => ?_⟩
  · simp only [System.setShard, Function.update_apply]
    split_ifs with hj
    · subst hj
      exact hregistered
    · exact h.registered j
  · simp only [System.setShard, Function.update_apply]
    split_ifs with hj
    · subst hj
      exact hasking
    · exact h.asking j

theorem setShardPc (h : Tidy u s) {i : Nat} {pc : ShardPc}
    (hasking : ∀ symbol, pc = .needSnapshot symbol → symbol ∈ u.shard i) :
    Tidy u (s.setShardPc i pc) := h.setShard (h.registered i) hasking

theorem setTaskPc (h : Tidy u s) {t : Nat} {k : SyncTask} (hk : s.tasks t = some k)
    (pc : TaskPc) : Tidy u (s.setTaskPc t k pc) := by
  refine ⟨h.symbol_eq, h.stale_nodup, fun t' ht' => ?_, fun i e he => ?_, h.asking⟩
  · simp only [System.setTaskPc, Function.update_apply]
    split_ifs with heq
    · have hnone := h.fresh t' ht'
      rw [heq, hk] at hnone
      simp at hnone
    · exact h.fresh t' ht'
  · obtain ⟨hmem, k', hk', hsymbol⟩ := h.registered i e he
    refine ⟨hmem, ?_⟩
    simp only [System.setTaskPc, Function.update_apply]
    split_ifs with heq
    · rw [heq, hk] at hk'
      obtain rfl := Option.some.inj hk'
      exact ⟨_, rfl, hsymbol⟩
    · exact ⟨k', hk', hsymbol⟩

theorem spawn (h : Tidy u s) (symbol : String) (spawner : Option Nat) :
    Tidy u (s.spawn symbol spawner) := by
  refine ⟨h.symbol_eq, h.stale_nodup, fun t ht => ?_, fun i e he => ?_, h.asking⟩
  · simp only [System.spawn] at ht ⊢
    rw [Function.update_of_ne (by omega)]
    exact h.fresh t (by omega)
  · obtain ⟨hmem, k, hk, hsymbol⟩ := h.registered i e he
    have hne : e.2 ≠ s.nextTask := by
      intro heq
      rw [heq, h.fresh _ le_rfl] at hk
      simp at hk
    refine ⟨hmem, k, ?_, hsymbol⟩
    simp only [System.spawn]
    rw [Function.update_of_ne hne, hk]

theorem abort (h : Tidy u s) (ids : List Nat) : Tidy u (s.abort ids) := by
  refine ⟨h.symbol_eq, h.stale_nodup, fun t ht => ?_, fun i e he => ?_, h.asking⟩
  · simp only [System.abort, h.fresh t ht]
    split_ifs <;> rfl
  · obtain ⟨hmem, k, hk, hsymbol⟩ := h.registered i e he
    refine ⟨hmem, ?_⟩
    simp only [System.abort, hk]
    split_ifs
    · exact ⟨k.abort, rfl, hsymbol⟩
    · exact ⟨k, rfl, hsymbol⟩

theorem withLock (h : Tidy u s) (lock : Option Nat) : Tidy u { s with lock := lock } :=
  ⟨h.symbol_eq, h.stale_nodup, h.fresh, h.registered, h.asking⟩

theorem requestSync (h : Tidy u s) {i : Nat} {symbol : String} (hsymbol : symbol ∈ u.shard i) :
    Tidy u (s.requestSync i symbol) := by
  refine ((h.abort _).spawn symbol (some i)).setShard (fun e he => ?_) (by simp)
  rcases List.mem_cons.mp he with rfl | he
  · exact ⟨hsymbol, _, Function.update_self _ _ _, rfl⟩
  · exact ((h.abort (s.handlesFor i symbol)).spawn symbol (some i)).registered i e
      (List.mem_of_mem_filter he)

theorem resetBooks (h : Tidy u s) (symbols : List String) : Tidy u (s.resetBooks symbols) := by
  refine ⟨fun symbol => ?_, h.stale_nodup, h.fresh, h.registered, h.asking⟩
  simp only [System.resetBooks]
  split_ifs
  · exact h.symbol_eq symbol
  · exact h.symbol_eq symbol

theorem sweep (h : Tidy u s) {order : List String} (horder : order.Perm u.symbols) (now : Rat) :
    Tidy u { s with
      stale := (takeStaleBooks s.books order now staleThreshold).1
      books := (takeStaleBooks s.books order now staleThreshold).2 } := by
  have hnodup : order.Nodup := horder.nodup_iff.mpr u.nodup
  obtain ⟨hlist, hbooks⟩ := takeStaleBooks_eq s.books hnodup now staleThreshold
  refine ⟨fun symbol => ?_, ?_, h.fresh, h.registered, h.asking⟩
  · simp only [hbooks]
    split_ifs
    · exact h.symbol_eq symbol
    · exact h.symbol_eq symbol
  · simp only [hlist, h.symbol_eq, List.map_id']
    exact hnodup.filter _

end Tidy

theorem exists_task {t : Nat} {pc : TaskPc} (h : s.TaskAt t pc) :
    ∃ k, s.tasks t = some k ∧ k.pc = pc := Option.map_eq_some_iff.mp h

theorem exists_asleep {t : Nat} (h : s.TaskAt t .retrying ∨ s.TaskAt t .asleepLocked) :
    ∃ k, s.tasks t = some k ∧ (k.pc = .retrying ∨ k.pc = .asleepLocked) := by
  rcases h with h | h
  · exact (exists_task h).imp fun k hk => ⟨hk.1, Or.inl hk.2⟩
  · exact (exists_task h).imp fun k hk => ⟨hk.1, Or.inr hk.2⟩

theorem tidy_next {a : Act} (h : Tidy u s) (ha : System.enabled u s a) :
    Tidy u (System.next u s a) := by
  cases a with
  | connect i => exact h.setShard (h.registered i) (by simp)
  | connectFail i => exact h.setShardPc (by simp)
  | depth i symbol now e =>
      obtain ⟨-, hmem, -⟩ := ha
      have hbook : (((s.books symbol).stamped now).onDepth e).2.symbol = symbol := by
        rw [Book.symbol_onDepth]
        exact h.symbol_eq symbol
      refine (h.setBook hbook).setShardPc fun other hother => ?_
      cases hresult : (((s.books symbol).stamped now).onDepth e).1 <;>
        simp only [hresult, ShardPc.after] at hother <;> simp_all
  | ticker i symbol bid ask => exact h.setBook (h.symbol_eq symbol)
  | requestSync i =>
      simp only [System.next]
      split
      next symbol hsymbol =>
        refine h.requestSync (h.asking i symbol ?_)
        cases hpc : (s.shards i).pc <;> simp_all [ShardPc.asking]
      next => exact h
  | emit i =>
      simp only [System.next]
      split
      next symbol _ =>
        have hemit : Tidy u (s.emit symbol) :=
          ⟨h.symbol_eq, h.stale_nodup, h.fresh, h.registered, h.asking⟩
        exact hemit.setShardPc (by simp)
      next => exact h
  | close i => exact h.setShardPc (by simp)
  | panicShard i => exact h.setShardPc (by simp)
  | markDisconnected i => exact h.setShard (h.registered i) (by simp)
  | resetBooks i => exact (h.resetBooks (u.shard i)).setShardPc (by simp)
  | abortHandles i => exact (h.abort _).setShard (by simp) (by simp)
  | reconnect i => exact h.setShardPc (by simp)
  | sweep now order => exact h.sweep ha.2.2 now
  | spawnResync =>
      simp only [System.next]
      split
      next symbol rest hstale =>
        have hrest : rest.Nodup := (List.nodup_cons.mp (hstale ▸ h.stale_nodup)).2
        have hspawned := h.spawn symbol none
        exact ⟨hspawned.symbol_eq, hrest, hspawned.fresh, hspawned.registered, hspawned.asking⟩
      next => exact h
  | check t =>
      obtain ⟨k, hk, -⟩ := exists_task ha.1
      simp only [System.next, hk]
      exact h.setTaskPc hk _
  | send t =>
      obtain ⟨k, hk, -⟩ := exists_task ha
      simp only [System.next, hk]
      exact h.setTaskPc hk _
  | fail t =>
      obtain ⟨k, hk, -⟩ := exists_task ha
      simp only [System.next, hk]
      exact h.setTaskPc hk _
  | respond t lastUpdateId bids asks =>
      obtain ⟨k, hk, -⟩ := exists_task ha.1
      have hbook : ((s.books k.symbol).onSnapshot lastUpdateId bids asks).2.symbol = k.symbol := by
        rw [Book.symbol_onSnapshot, h.symbol_eq]
      simp only [System.next, hk, System.respond]
      split_ifs
      · exact (h.setBook hbook).setTaskPc hk _
      · exact ((h.setBook hbook).setTaskPc hk _).withLock _
  | panicTask t =>
      obtain ⟨k, hk, -⟩ := exists_task ha
      simp only [System.next, hk]
      exact h.setTaskPc hk _
  | wake t =>
      obtain ⟨k, hk, -⟩ := exists_asleep ha
      simp only [System.next, hk]
      exact (h.setTaskPc hk _).withLock _

theorem tidy_reachable (hs : u.machine.Reachable s) : Tidy u s :=
  hs.invariant (I := Tidy u) (by rintro _ rfl; exact Tidy.start) fun _ _ h ha => tidy_next h ha

/-! ## What a step does to a book -/

/-- The ways an action changes the book of a symbol, with what it takes. -/
inductive BookStep (u : Universe) (s : System) (symbol : String) : Act → Book → Prop
  | kept (a : Act) : BookStep u s symbol a (s.books symbol)
  | depth (i : Nat) (now : Rat) (e : DepthEvent) (hpc : (s.shards i).pc = .reading)
      (hmem : symbol ∈ u.shard i) :
      BookStep u s symbol (.depth i symbol now e) (((s.books symbol).stamped now).onDepth e).2
  | ticker (i : Nat) (bid ask : Decimal) (hpc : (s.shards i).pc = .reading)
      (hmem : symbol ∈ u.shard i) :
      BookStep u s symbol (.ticker i symbol bid ask) ((s.books symbol).setTickerBbo bid ask)
  | reset (i : Nat) (hpc : (s.shards i).pc = .flagged) (hmem : symbol ∈ u.shard i) :
      BookStep u s symbol (.resetBooks i) (s.books symbol).reset
  | sweep (now : Rat) (order : List String) (hmem : symbol ∈ u.symbols)
      (hstale : Stale (s.books symbol) now staleThreshold) :
      BookStep u s symbol (.sweep now order) ((s.books symbol).markForResync.stamped now)
  | respond (t lastUpdateId : Nat) (bids asks : Levels) :
      BookStep u s symbol (.respond t lastUpdateId bids asks)
        ((s.books symbol).onSnapshot lastUpdateId bids asks).2

theorem books_next {a : Act} (ha : System.enabled u s a) (symbol : String) :
    BookStep u s symbol a ((System.next u s a).books symbol) := by
  cases a with
  | depth i other now e =>
      obtain ⟨hpc, hmem, -⟩ := ha
      simp only [System.next, System.setShardPc, System.setShard, System.setBook,
        Function.update_apply]
      split_ifs with heq
      · subst heq
        exact .depth i now e hpc hmem
      · exact .kept _
  | ticker i other bid ask =>
      obtain ⟨hpc, hmem, -⟩ := ha
      simp only [System.next, System.setBook, Function.update_apply]
      split_ifs with heq
      · subst heq
        exact .ticker i bid ask hpc hmem
      · exact .kept _
  | resetBooks i =>
      simp only [System.next, System.setShardPc, System.setShard, System.resetBooks]
      split_ifs with hmem
      · exact .reset i ha.1 hmem
      · exact .kept _
  | sweep now order =>
      simp only [System.next]
      rw [(takeStaleBooks_eq s.books (ha.2.2.nodup_iff.mpr u.nodup) now staleThreshold).2 symbol]
      split_ifs with hstale
      · exact .sweep now order (ha.2.2.mem_iff.mp hstale.1) hstale.2
      · exact .kept _
  | respond t lastUpdateId bids asks =>
      obtain ⟨k, hk, -⟩ := exists_task ha.1
      have hbook : (s.respond t k lastUpdateId bids asks).books symbol =
          if symbol = k.symbol then ((s.books symbol).onSnapshot lastUpdateId bids asks).2
          else s.books symbol := by
        by_cases heq : symbol = k.symbol
        · subst heq
          rw [if_pos rfl]
          unfold System.respond
          dsimp only
          split_ifs <;> exact Function.update_self _ _ _
        · rw [if_neg heq]
          unfold System.respond
          dsimp only
          split_ifs <;> exact Function.update_of_ne heq _ _
      simp only [System.next, hk, hbook]
      split_ifs
      · exact .respond t lastUpdateId bids asks
      · exact .kept _
  | requestSync i | emit i | spawnResync =>
      simp only [System.next]
      split <;> exact .kept _
  | check t | send t | fail t | panicTask t | wake t =>
      simp only [System.next]
      split <;> exact .kept _
  | _ => exact .kept _

theorem uninitialized_next {symbol : String} (hsymbol : symbol ∉ u.symbols) {a : Act}
    (ha : System.enabled u s a) (h : (s.books symbol).state = .uninitialized) :
    ((System.next u s a).books symbol).state = .uninitialized := by
  have hstep := books_next ha symbol
  generalize (System.next u s a).books symbol = b' at hstep
  cases hstep with
  | kept => exact h
  | depth i now e hpc hmem => exact absurd (Universe.mem_shard.mp hmem).1 hsymbol
  | ticker i bid ask hpc hmem => exact h
  | reset i hpc hmem => rfl
  | sweep now order hmem hstale => exact absurd hmem hsymbol
  | respond t lastUpdateId bids asks =>
      rw [Book.onSnapshot_of_not_buffering (by simp [h])]
      exact h

theorem uninitialized_of_not_mem (hs : u.machine.Reachable s) {symbol : String}
    (hsymbol : symbol ∉ u.symbols) : (s.books symbol).state = .uninitialized :=
  hs.invariant (I := fun s => (s.books symbol).state = .uninitialized)
    (by rintro _ rfl; rfl) fun _ _ h ha => uninitialized_next hsymbol ha h

/-! ## What a step does to a shard -/

theorem ShardPc.asking_eq_some {pc : ShardPc} {symbol : String} :
    pc.asking = some symbol ↔ pc = .needSnapshot symbol := by
  cases pc <;> simp [ShardPc.asking]

theorem ShardPc.emitting_eq_some {pc : ShardPc} {symbol : String} :
    pc.emitting = some symbol ↔ pc = .publishing symbol := by
  cases pc <;> simp [ShardPc.emitting]

def Act.shard : Act → Option Nat
  | .connect i | .connectFail i | .depth i _ _ _ | .requestSync i | .emit i | .close i
  | .panicShard i | .markDisconnected i | .resetBooks i | .abortHandles i | .reconnect i => some i
  | _ => none

/-- The ways an action changes a shard, with the place it must be at. -/
inductive ShardStep (s : System) (i : Nat) : Act → Shard → Prop
  | kept (a : Act) (hother : a.shard ≠ some i) : ShardStep s i a (s.shards i)
  | connect (hpc : (s.shards i).pc = .connecting) :
      ShardStep s i (.connect i) { s.shards i with pc := .reading, connected := true }
  | connectFail (hpc : (s.shards i).pc = .connecting) :
      ShardStep s i (.connectFail i) { s.shards i with pc := .closed }
  | depth (symbol : String) (now : Rat) (e : DepthEvent) (hpc : (s.shards i).pc = .reading) :
      ShardStep s i (.depth i symbol now e)
        { s.shards i with
          pc := ShardPc.after symbol (((s.books symbol).stamped now).onDepth e).1 }
  | requestSync (symbol : String) (hpc : (s.shards i).pc = .needSnapshot symbol) :
      ShardStep s i (.requestSync i)
        { s.shards i with
          pc := .reading
          syncHandles := (symbol, s.nextTask) ::
            (s.shards i).syncHandles.filter fun h => decide (h.1 ≠ symbol) }
  | emit (symbol : String) (hpc : (s.shards i).pc = .publishing symbol) :
      ShardStep s i (.emit i) { s.shards i with pc := .reading }
  | close (hpc : (s.shards i).pc = .reading) :
      ShardStep s i (.close i) { s.shards i with pc := .closed }
  | panicked (hpc : (s.shards i).pc = .reading) :
      ShardStep s i (.panicShard i) { s.shards i with pc := .panicked }
  | markDisconnected (hpc : (s.shards i).pc = .closed) :
      ShardStep s i (.markDisconnected i) { s.shards i with pc := .flagged, connected := false }
  | resetBooks (hpc : (s.shards i).pc = .flagged) :
      ShardStep s i (.resetBooks i) { s.shards i with pc := .booksReset }
  | abortHandles (hpc : (s.shards i).pc = .booksReset) :
      ShardStep s i (.abortHandles i) { s.shards i with pc := .backoff, syncHandles := [] }
  | reconnect (hpc : (s.shards i).pc = .backoff) :
      ShardStep s i (.reconnect i) { s.shards i with pc := .connecting }

theorem ShardStep.of_setShard {s' : System} {i j : Nat} {k : Shard} {a : Act}
    (hshards : s'.shards = s.shards) (hact : a.shard = some j) (hself : i = j → ShardStep s i a k) :
    ShardStep s i a ((s'.setShard j k).shards i) := by
  simp only [System.setShard, Function.update_apply, hshards]
  split_ifs with heq
  · exact hself heq
  · exact .kept a fun h => heq (Option.some.inj (h.symm.trans hact))

theorem shards_next {a : Act} (ha : System.enabled u s a) (i : Nat) :
    ShardStep s i a ((System.next u s a).shards i) := by
  cases a with
  | connect j => exact .of_setShard rfl rfl (by rintro rfl; exact .connect ha)
  | connectFail j => exact .of_setShard rfl rfl (by rintro rfl; exact .connectFail ha)
  | depth j symbol now e =>
      exact .of_setShard rfl rfl (by rintro rfl; exact .depth symbol now e ha.1)
  | requestSync j =>
      obtain ⟨symbol, hsymbol⟩ := Option.isSome_iff_exists.mp ha
      have hpc := ShardPc.asking_eq_some.mp hsymbol
      simp only [System.next, hsymbol]
      exact .of_setShard rfl rfl (by rintro rfl; exact .requestSync symbol hpc)
  | emit j =>
      obtain ⟨symbol, hsymbol⟩ := Option.isSome_iff_exists.mp ha.1
      have hpc := ShardPc.emitting_eq_some.mp hsymbol
      simp only [System.next, hsymbol]
      exact .of_setShard rfl rfl (by rintro rfl; exact .emit symbol hpc)
  | close j => exact .of_setShard rfl rfl (by rintro rfl; exact .close ha)
  | panicShard j => exact .of_setShard rfl rfl (by rintro rfl; exact .panicked ha)
  | markDisconnected j => exact .of_setShard rfl rfl (by rintro rfl; exact .markDisconnected ha)
  | resetBooks j => exact .of_setShard rfl rfl (by rintro rfl; exact .resetBooks ha.1)
  | abortHandles j => exact .of_setShard rfl rfl (by rintro rfl; exact .abortHandles ha)
  | reconnect j => exact .of_setShard rfl rfl (by rintro rfl; exact .reconnect ha)
  | respond t lastUpdateId bids asks =>
      simp only [System.next]
      split
      · simp only [System.respond]
        split_ifs <;> exact .kept _ (by simp [Act.shard])
      · exact .kept _ (by simp [Act.shard])
  | spawnResync | check t | send t | fail t | panicTask t | wake t =>
      simp only [System.next]
      split <;> exact .kept _ (by simp [Act.shard])
  | ticker j symbol bid ask | sweep now order => exact .kept _ (by simp [Act.shard])

end FeedHandler.Handler
