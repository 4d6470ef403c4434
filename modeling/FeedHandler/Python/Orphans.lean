import FeedHandler.Python.Disconnect
/-!
# No orphaned book in the Python port

The Python `sync_book` catches whatever goes wrong in a fetch, a response that cannot
be parsed included, so only a cancellation ends it before its book is out of buffering.
A book that buffers therefore always has a task at work on it, as long as no shard is
cancelled itself.
-/

namespace FeedHandler.Python

open Lib

open Handler (Universe)

namespace Book

/-! ## Books -/

@[simp] theorem symbol_bufferPush (b : Book) (e : DepthEvent) :
    (b.bufferPush e).symbol = b.symbol := by
  unfold bufferPush
  dsimp only
  split_ifs <;> rfl

@[simp] theorem symbol_checkIntegrity (b : Book) : b.checkIntegrity.2.symbol = b.symbol := by
  unfold checkIntegrity
  cases b.bids.maxKey? <;> cases b.asks.minKey? <;> try rfl
  dsimp only
  split_ifs <;> rfl

@[simp] theorem symbol_goLive (b : Book) (appliedAny : Bool) :
    (b.goLive appliedAny).symbol = b.symbol := by
  unfold goLive
  dsimp only
  split_ifs <;> rfl

theorem symbol_replay (lastUpdateId : Nat) (buffered : List DepthEvent) (appliedAny : Bool)
    (b : Book) : (replay lastUpdateId buffered appliedAny b).2.symbol = b.symbol := by
  induction buffered generalizing appliedAny b with
  | nil => rfl
  | cons e buffered ih =>
      unfold replay
      split_ifs
      · exact ih _ _
      · rfl
      · exact ih _ _
      · rfl
      · exact ih _ _

theorem symbol_onDepth (b : Book) (e : DepthEvent) : (b.onDepth e).2.symbol = b.symbol := by
  cases hstate : b.state <;>
    simp only [onDepth, onSequenced, toBuffering, applyDiff, hstate, reduceCtorEq, if_true,
      if_false]
  · simp
  · simp
  · split_ifs <;> simp

theorem symbol_onSnapshot (b : Book) (lastUpdateId : Nat) (bids asks : Levels) :
    (b.onSnapshot lastUpdateId bids asks).2.symbol = b.symbol := by
  unfold onSnapshot
  split_ifs with hbuffering
  · rfl
  · have hreplay := symbol_replay lastUpdateId b.buffer false
      (b.loadSnapshot lastUpdateId bids asks)
    generalize replay lastUpdateId b.buffer false (b.loadSnapshot lastUpdateId bids asks) = result
      at hreplay
    obtain ⟨applied, b'⟩ := result
    cases applied with
    | none => exact hreplay
    | some appliedAny =>
        dsimp only
        split_ifs
        · exact (symbol_checkIntegrity _).trans ((symbol_goLive b' appliedAny).trans hreplay)
        · exact (symbol_checkIntegrity _).trans ((symbol_goLive b' appliedAny).trans hreplay)

theorem needSnapshot_of_buffering {b : Book} {e : DepthEvent}
    (hafter : (b.onDepth e).2.state = .buffering) (hbefore : b.state ≠ .buffering) :
    (b.onDepth e).1 = .needSnapshot := by
  cases hstate : b.state with
  | uninitialized => simp [onDepth, hstate]
  | buffering => exact absurd hstate hbefore
  | live =>
      simp only [onDepth, onSequenced, toBuffering, applyDiff, hstate, reduceCtorEq,
        if_false] at hafter ⊢
      split_ifs at hafter ⊢ <;> simp_all

theorem state_onSnapshot_of_true {b : Book} {lastUpdateId : Nat} {bids asks : Levels}
    (h : (b.onSnapshot lastUpdateId bids asks).1 = true) :
    (b.onSnapshot lastUpdateId bids asks).2.state ≠ .buffering := by
  unfold onSnapshot at h ⊢
  split_ifs at h ⊢ with hbuffering
  · exact hbuffering
  · have hreplay := state_replay lastUpdateId b.buffer false (b.loadSnapshot lastUpdateId bids asks)
    generalize replay lastUpdateId b.buffer false (b.loadSnapshot lastUpdateId bids asks) = result
      at h hreplay ⊢
    obtain ⟨applied, b'⟩ := result
    cases applied with
    | none => simp at h
    | some appliedAny =>
        dsimp only at h ⊢
        split_ifs at h ⊢
        simp

end Book

variable {u : Universe} {s : System}

/-! ## The sweep -/

/-- A book that a sweep has changed is on its list. -/
structure Listed (books : String → Book) (acc : List String × (String → Book)) : Prop where
  symbol_eq : ∀ symbol, (acc.2 symbol).symbol = symbol
  listed : ∀ symbol, acc.2 symbol = books symbol ∨ symbol ∈ acc.1

theorem listed_takeStaleBooks {books : String → Book}
    (hbooks : ∀ symbol, (books symbol).symbol = symbol) (order : List String)
    (now threshold : Rat) : Listed books (takeStaleBooks books order now threshold) := by
  unfold takeStaleBooks
  suffices ∀ acc, Listed books acc →
      Listed books (order.foldl (takeStale now threshold) acc) from
    this _ ⟨hbooks, fun _ => Or.inl rfl⟩
  induction order with
  | nil => exact fun _ h => h
  | cons other order ih =>
      intro acc h
      apply ih
      unfold takeStale
      split_ifs
      · constructor
        · intro symbol
          by_cases hsymbol : symbol = other
          · subst hsymbol
            simpa [Book.markForResync, Book.reset, Book.stamped] using h.symbol_eq symbol
          · simpa [Function.update_of_ne hsymbol] using h.symbol_eq symbol
        · intro symbol
          by_cases hsymbol : symbol = other
          · subst hsymbol
            exact Or.inr (List.mem_append_right _ (by simp [h.symbol_eq symbol]))
          · refine (h.listed symbol).imp (fun hsame => ?_) (List.mem_append_left _)
            exact (Function.update_of_ne hsymbol _ _).trans hsame
      · exact h

/-! ## Who is at work -/

def System.AtWork (s : System) (symbol : String) : Prop :=
  ∃ t k, s.tasks t = some k ∧ k.symbol = symbol ∧ k.pc.unfinished = true

/-- What every step keeps: names, fresh ids, registries of a shard's own tasks, and
somebody at work on every book that buffers. -/
structure Staffed (u : Universe) (s : System) : Prop where
  symbol_eq : ∀ symbol, (s.books symbol).symbol = symbol
  fresh : ∀ t, s.nextTask ≤ t → s.tasks t = none
  registered : ∀ i, ∀ e ∈ (s.shards i).syncTasks,
    e.1 ∈ u.shard i ∧ ∃ k, s.tasks e.2 = some k ∧ k.symbol = e.1
  staffed : ∀ symbol, (s.books symbol).state = .buffering → s.AtWork symbol

/-- No shard is cancelled, and the handling of a message never renames a book. -/
def Running (s : System) : Act → Prop
  | .shutdown _ => False
  | .processingError _ symbol b => b.symbol = (s.books symbol).symbol
  | _ => True

theorem atWork_setTaskPc {t : Nat} {k : SyncTask} {pc : TaskPc} {symbol : String}
    (hk : s.tasks t = some k) (hpc : k.symbol = symbol → pc.unfinished = true)
    (h : s.AtWork symbol) : (s.setTaskPc t k pc).AtWork symbol := by
  obtain ⟨t', k', hk', hsymbol, hunfinished⟩ := h
  by_cases heq : t' = t
  · subst heq
    obtain rfl : k = k' := Option.some.inj (hk.symm.trans hk')
    exact ⟨t', _, Function.update_self _ _ _, hsymbol, hpc hsymbol⟩
  · exact ⟨t', k', (Function.update_of_ne heq _ _).trans hk', hsymbol, hunfinished⟩

theorem atWork_createTask (hfresh : s.tasks s.nextTask = none) {symbol : String}
    (h : s.AtWork symbol) (other : String) (creator : Option Nat) :
    (s.createTask other creator).AtWork symbol := by
  obtain ⟨t, k, hk, hsymbol, hunfinished⟩ := h
  have hne : t ≠ s.nextTask := by
    rintro rfl
    rw [hfresh] at hk
    exact absurd hk (by simp)
  exact ⟨t, k, (Function.update_of_ne hne _ _).trans hk, hsymbol, hunfinished⟩

theorem atWork_created (s : System) (symbol : String) (creator : Option Nat) :
    (s.createTask symbol creator).AtWork symbol :=
  ⟨s.nextTask, _, Function.update_self _ _ _, rfl, rfl⟩

theorem atWork_cancel {ids : List Nat} {symbol : String} (h : s.AtWork symbol)
    (hids : ∀ t ∈ ids, ∀ k, s.tasks t = some k → k.symbol ≠ symbol) :
    (s.cancel ids).AtWork symbol := by
  obtain ⟨t, k, hk, hsymbol, hunfinished⟩ := h
  have hnot : t ∉ ids := fun hmem => hids t hmem k hk hsymbol
  exact ⟨t, k, by simp [System.cancel, hnot, hk], hsymbol, hunfinished⟩

@[simp] theorem symbol_cancel (k : SyncTask) : k.cancel.symbol = k.symbol := by
  unfold SyncTask.cancel
  split_ifs <;> rfl

theorem staffed_foldl_createTask (symbols : List String) {s : System}
    (hfresh : ∀ t, s.nextTask ≤ t → s.tasks t = none) {s' : System}
    (hs' : s' = symbols.foldl (fun s symbol => s.createTask symbol none) s) :
    (∀ t, s'.nextTask ≤ t → s'.tasks t = none) ∧
    (∀ t k, s.tasks t = some k → s'.tasks t = some k) ∧
    ∀ symbol, s.AtWork symbol ∨ symbol ∈ symbols → s'.AtWork symbol := by
  induction symbols generalizing s with
  | nil =>
      subst hs'
      exact ⟨hfresh, fun _ _ hk => hk, fun symbol h => h.resolve_right List.not_mem_nil⟩
  | cons other symbols ih =>
      have hcreated : ∀ t, (s.createTask other none).nextTask ≤ t →
          (s.createTask other none).tasks t = none := by
        intro t ht
        have ht' : s.nextTask + 1 ≤ t := ht
        exact (Function.update_of_ne (by omega) _ _).trans (hfresh t (by omega))
      obtain ⟨hfresh', hkept, hwork⟩ := ih hcreated hs'
      refine ⟨hfresh', fun t k hk => hkept t k ?_, fun symbol h => hwork symbol ?_⟩
      · have hne : t ≠ s.nextTask := by
          rintro rfl
          rw [hfresh _ le_rfl] at hk
          exact absurd hk (by simp)
        exact (Function.update_of_ne hne _ _).trans hk
      · rcases h with h | h
        · exact Or.inl (atWork_createTask (hfresh _ le_rfl) h other none)
        · rcases List.mem_cons.mp h with rfl | h
          · exact Or.inl (atWork_created s symbol none)
          · exact Or.inr h

namespace Staffed

theorem start : Staffed u System.start where
  symbol_eq _ := rfl
  fresh _ _ := rfl
  registered i e he := by simp [System.start] at he
  staffed symbol h := by simp [System.start, Book.new] at h

theorem setShard (h : Staffed u s) {i : Nat} {k : Shard}
    (hk : k.syncTasks = (s.shards i).syncTasks) : Staffed u (s.setShard i k) := by
  refine ⟨h.symbol_eq, h.fresh, fun j e he => h.registered j e ?_, h.staffed⟩
  by_cases hj : j = i
  · subst hj
    rw [← hk]
    simpa [System.setShard] using he
  · simpa [System.setShard, hj] using he

theorem setBook (h : Staffed u s) {symbol : String} {b : Book} (hsymbol : b.symbol = symbol)
    (hb : b.state = .buffering → s.AtWork symbol) : Staffed u (s.setBook symbol b) := by
  refine ⟨fun other => ?_, h.fresh, h.registered, fun other hbuffering => ?_⟩
  · by_cases hother : other = symbol
    · subst hother
      simpa [System.setBook] using hsymbol
    · simpa [System.setBook, hother] using h.symbol_eq other
  · by_cases hother : other = symbol
    · subst hother
      exact hb (by simpa [System.setBook] using hbuffering)
    · exact h.staffed other (by simpa [System.setBook, hother] using hbuffering)

theorem setTaskPc (h : Staffed u s) {t : Nat} {k : SyncTask} (hk : s.tasks t = some k)
    {pc : TaskPc} (hpc : (s.books k.symbol).state = .buffering → pc.unfinished = true) :
    Staffed u (s.setTaskPc t k pc) := by
  refine ⟨h.symbol_eq, fun t' ht' => ?_, fun i e he => ?_, fun symbol hbuffering => ?_⟩
  · have hne : t' ≠ t := by
      rintro rfl
      rw [h.fresh t' ht'] at hk
      exact absurd hk (by simp)
    exact (Function.update_of_ne hne _ _).trans (h.fresh t' ht')
  · obtain ⟨hmem, k', hk', hsymbol⟩ := h.registered i e he
    refine ⟨hmem, ?_⟩
    by_cases heq : e.2 = t
    · obtain rfl : k = k' := Option.some.inj (hk.symm.trans (heq ▸ hk'))
      exact ⟨{ k with pc := pc }, by rw [heq]; exact Function.update_self _ _ _, hsymbol⟩
    · exact ⟨k', (Function.update_of_ne heq _ _).trans hk', hsymbol⟩
  · refine atWork_setTaskPc hk (fun hsymbol => hpc ?_) (h.staffed symbol hbuffering)
    rw [hsymbol]
    exact hbuffering

theorem requestSync (h : Staffed u s) {i : Nat} {symbol : String} (hmem : symbol ∈ u.shard i)
    {b : Book} (hsymbol : b.symbol = symbol) :
    Staffed u ((s.setBook symbol b).requestSync i symbol) := by
  let ids := ((s.shards i).syncTasks.filter fun e => decide (e.1 = symbol)).map Prod.snd
  have hids : ∀ t ∈ ids, ∀ k, s.tasks t = some k → k.symbol = symbol := by
    intro t ht k hk
    obtain ⟨e, he, rfl⟩ := List.mem_map.mp ht
    obtain ⟨he, hname⟩ := List.mem_filter.mp he
    obtain ⟨-, k', hk', hk'symbol⟩ := h.registered i e he
    obtain rfl : k = k' := Option.some.inj (hk.symm.trans hk')
    exact hk'symbol.trans (of_decide_eq_true hname)
  have hcancelled : ∀ t, (s.cancel ids).tasks t = none ↔ s.tasks t = none := by
    intro t
    simp only [System.cancel]
    split_ifs <;> simp
  have hfresh : ∀ t, s.nextTask ≤ t → (s.cancel ids).tasks t = none := fun t ht =>
    (hcancelled t).mpr (h.fresh t ht)
  refine ⟨fun other => ?_, fun t ht => ?_, fun j e he => ?_, fun other hbuffering => ?_⟩
  · by_cases hother : other = symbol
    · subst hother
      simpa [System.requestSync, System.setShard, System.createTask, System.cancel,
        System.setBook] using hsymbol
    · simpa [System.requestSync, System.setShard, System.createTask, System.cancel,
        System.setBook, hother] using h.symbol_eq other
  · have ht' : s.nextTask + 1 ≤ t := ht
    have hne : t ≠ s.nextTask := by omega
    exact (Function.update_of_ne hne _ _).trans (hfresh t (by omega))
  · have hold : ∀ e ∈ (s.shards j).syncTasks, e.1 ∈ u.shard j ∧
        ∃ k, ((s.setBook symbol b).requestSync i symbol).tasks e.2 = some k ∧
          k.symbol = e.1 := by
      intro e he
      obtain ⟨hin, k, hk, hname⟩ := h.registered j e he
      have hne : e.2 ≠ s.nextTask := by
        intro heq
        rw [heq, h.fresh _ le_rfl] at hk
        exact absurd hk (by simp)
      have htasks : ((s.setBook symbol b).requestSync i symbol).tasks e.2 =
          (s.cancel ids).tasks e.2 := Function.update_of_ne hne _ _
      refine ⟨hin, ?_⟩
      rw [htasks]
      simp only [System.cancel, hk]
      split_ifs
      · exact ⟨k.cancel, rfl, by rw [symbol_cancel, hname]⟩
      · exact ⟨k, rfl, hname⟩
    by_cases hj : j = i
    · subst hj
      have hshard : ((s.setBook symbol b).requestSync j symbol).shards j =
          { s.shards j with
            syncTasks := (symbol, s.nextTask) ::
              (s.shards j).syncTasks.filter fun e => decide (e.1 ≠ symbol) } :=
        Function.update_self _ _ _
      rw [hshard] at he
      rcases List.mem_cons.mp he with rfl | he
      · exact ⟨hmem, _, Function.update_self _ _ _, rfl⟩
      · exact hold e (List.mem_of_mem_filter he)
    · have he' : e ∈ (s.shards j).syncTasks := by
        simpa [System.requestSync, System.setShard, System.createTask, System.cancel,
          System.setBook, hj] using he
      exact hold e he'
  · by_cases hother : other = symbol
    · subst hother
      exact ⟨s.nextTask, _, Function.update_self _ _ _, rfl, rfl⟩
    · have hbefore : (s.books other).state = .buffering := by
        simpa [System.requestSync, System.setShard, System.createTask, System.cancel,
          System.setBook, hother] using hbuffering
      have hwork : (s.cancel ids).AtWork other := by
        refine atWork_cancel (h.staffed other hbefore) fun t ht k hk => ?_
        rw [hids t ht k hk]
        exact Ne.symm hother
      exact atWork_createTask (s := s.cancel ids) (hfresh _ le_rfl) hwork symbol (some i)

/-- The cancelled tasks are those of books that the handler resets, so nothing need be
known of the shard's own books. -/
theorem of_disconnected {i : Nat} (hsymbol : ∀ symbol, (s.books symbol).symbol = symbol)
    (hfresh : ∀ t, s.nextTask ≤ t → s.tasks t = none)
    (hregistered : ∀ i, ∀ e ∈ (s.shards i).syncTasks,
      e.1 ∈ u.shard i ∧ ∃ k, s.tasks e.2 = some k ∧ k.symbol = e.1)
    (hstaffed : ∀ symbol ∉ u.shard i, (s.books symbol).state = .buffering → s.AtWork symbol) :
    Staffed u (s.disconnected u i) := by
  let ids := (s.shards i).syncTasks.map Prod.snd
  have hids : ∀ t ∈ ids, ∀ k, s.tasks t = some k → k.symbol ∈ u.shard i := by
    intro t ht k hk
    obtain ⟨e, he, rfl⟩ := List.mem_map.mp ht
    obtain ⟨hin, k', hk', hname⟩ := hregistered i e he
    obtain rfl : k = k' := Option.some.inj (hk.symm.trans hk')
    rw [hname]
    exact hin
  have hbooks : ∀ symbol, (s.disconnected u i).books symbol =
      if symbol ∈ u.shard i then (s.books symbol).reset else s.books symbol := fun _ => rfl
  refine ⟨fun symbol => ?_, fun t ht => ?_, fun j e he => ?_, fun symbol hbuffering => ?_⟩
  · rw [hbooks]
    split_ifs
    · exact hsymbol symbol
    · exact hsymbol symbol
  · show (if t ∈ ids then (s.tasks t).map SyncTask.cancel else s.tasks t) = none
    rw [hfresh t ht]
    split_ifs <;> rfl
  · by_cases hj : j = i
    · subst hj
      have hshard : (s.disconnected u j).shards j = ⟨.backoff, false, []⟩ :=
        Function.update_self _ _ _
      rw [hshard] at he
      exact absurd he List.not_mem_nil
    · have hshard : (s.disconnected u i).shards j = s.shards j := Function.update_of_ne hj _ _
      rw [hshard] at he
      obtain ⟨hin, k, hk, hname⟩ := hregistered j e he
      refine ⟨hin, ?_⟩
      show ∃ k, (if e.2 ∈ ids then (s.tasks e.2).map SyncTask.cancel else s.tasks e.2) = some k ∧
        k.symbol = e.1
      rw [hk]
      split_ifs
      · exact ⟨k.cancel, rfl, by rw [symbol_cancel, hname]⟩
      · exact ⟨k, rfl, hname⟩
  · rw [hbooks] at hbuffering
    split_ifs at hbuffering with hin
    · simp [Book.reset] at hbuffering
    · refine atWork_cancel (hstaffed symbol hin hbuffering) fun t ht k hk heq => hin ?_
      rw [← heq]
      exact hids t ht k hk

theorem processingError (h : Staffed u s) {i : Nat} {symbol : String} (hmem : symbol ∈ u.shard i)
    {b : Book} (hsymbol : b.symbol = symbol) :
    Staffed u ((s.setBook symbol b).disconnected u i) := by
  refine of_disconnected (fun other => ?_) h.fresh h.registered fun other hother hbuffering => ?_
  · by_cases heq : other = symbol
    · subst heq
      simpa [System.setBook] using hsymbol
    · simpa [System.setBook, heq] using h.symbol_eq other
  · have hne : other ≠ symbol := by
      rintro rfl
      exact hother hmem
    exact h.staffed other (by simpa [System.setBook, hne] using hbuffering)

theorem sweep (h : Staffed u s) (now : Rat) : Staffed u (System.next u s (.sweep now)) := by
  let stale := takeStaleBooks s.books u.symbols now Handler.staleThreshold
  obtain ⟨hname, hlisted⟩ := listed_takeStaleBooks h.symbol_eq u.symbols now
    Handler.staleThreshold
  obtain ⟨hbooks, hshards, -⟩ := foldl_createTask stale.1 { s with books := stale.2 }
  obtain ⟨hfresh, hkept, hwork⟩ := staffed_foldl_createTask stale.1
    (s := { s with books := stale.2 }) h.fresh rfl
  have hnext : System.next u s (.sweep now) =
      stale.1.foldl (fun s symbol => s.createTask symbol none) { s with books := stale.2 } := rfl
  rw [hnext]
  refine ⟨fun symbol => ?_, hfresh, fun i e he => ?_, fun symbol hbuffering => hwork symbol ?_⟩
  · rw [hbooks]
    exact hname symbol
  · rw [hshards] at he
    obtain ⟨hin, k, hk, hsymbol⟩ := h.registered i e he
    exact ⟨hin, k, hkept e.2 k hk, hsymbol⟩
  · rw [hbooks] at hbuffering
    refine (hlisted symbol).imp (fun hsame => ?_) id
    exact h.staffed symbol (hsame ▸ hbuffering)

end Staffed

theorem staffed_next (h : Staffed u s) {a : Act} (ha : System.enabled u s a)
    (hrunning : Running s a) : Staffed u (System.next u s a) := by
  cases a with
  | connect i => exact h.setShard rfl
  | subscribed i => exact h.setShard rfl
  | normalClose i => exact h.setShard rfl
  | reconnect i => exact h.setShard rfl
  | shutdown i => exact absurd hrunning id
  | depth i symbol now e =>
      have hname : (((s.books symbol).stamped now).onDepth e).2.symbol = symbol := by
        rw [Book.symbol_onDepth]
        exact h.symbol_eq symbol
      have hquiet : (((s.books symbol).stamped now).onDepth e).1 ≠ .needSnapshot →
          Staffed u (s.setBook symbol (((s.books symbol).stamped now).onDepth e).2) := by
        intro hnot
        refine h.setBook hname fun hafter => h.staffed symbol ?_
        by_contra hbefore
        exact hnot (Book.needSnapshot_of_buffering hafter hbefore)
      simp only [System.next]
      cases haction : (((s.books symbol).stamped now).onDepth e).1 with
      | needSnapshot => exact h.requestSync ha.2 hname
      | publish =>
          have hbook := hquiet (by simp [haction])
          exact ⟨hbook.symbol_eq, hbook.fresh, hbook.registered, hbook.staffed⟩
      | none_ => exact hquiet (by simp [haction])
  | ticker i symbol bid ask =>
      exact h.setBook (h.symbol_eq symbol) fun hbuffering => h.staffed symbol hbuffering
  | lost i =>
      exact .of_disconnected h.symbol_eq h.fresh h.registered fun symbol _ => h.staffed symbol
  | processingError i symbol b =>
      exact h.processingError ha.2 (hrunning.trans (h.symbol_eq symbol))
  | sweep now => exact h.sweep now
  | check t =>
      obtain ⟨k, hk, -⟩ := exists_task ha
      simp only [System.next, hk]
      exact h.setTaskPc hk fun hbuffering => by rw [if_pos hbuffering]; rfl
  | respond t lastUpdateId bids asks =>
      obtain ⟨k, hk, -⟩ := exists_task ha
      have hname : ((s.books k.symbol).onSnapshot lastUpdateId bids asks).2.symbol = k.symbol := by
        rw [Book.symbol_onSnapshot]
        exact h.symbol_eq k.symbol
      have hwork : ((s.books k.symbol).onSnapshot lastUpdateId bids asks).2.state = .buffering →
          s.AtWork k.symbol := by
        intro hafter
        apply h.staffed
        by_contra hbefore
        rw [Book.onSnapshot, if_pos hbefore] at hafter
        exact hbefore hafter
      simp only [System.next, hk, System.respond]
      refine (h.setBook hname hwork).setTaskPc hk fun hbuffering => ?_
      have hafter : ((s.books k.symbol).onSnapshot lastUpdateId bids asks).2.state =
          .buffering := by simpa [System.setBook] using hbuffering
      rw [if_neg fun htrue => Book.state_onSnapshot_of_true htrue hafter]
      rfl
  | fetchError t =>
      obtain ⟨k, hk, -⟩ := exists_task ha
      simp only [System.next, hk]
      exact h.setTaskPc hk fun _ => rfl
  | wake t =>
      obtain ⟨k, hk, -⟩ := exists_task ha
      simp only [System.next, hk]
      exact h.setTaskPc hk fun _ => rfl

theorem staffed_reachable (hs : ((machine u).guarded Running).Reachable s) : Staffed u s := by
  refine hs.invariant (I := Staffed u) ?_ ?_
  · rintro _ rfl
    exact Staffed.start
  · intro s a h ha
    exact staffed_next h ha.1 ha.2

/-- In every interleaving, whatever connections and fetches fail and whatever messages and
responses cannot be processed, a book that buffers has a task at work on it. -/
theorem python_no_orphaned_book (hs : ((machine u).guarded Running).Reachable s)
    {symbol : String} (hbuffering : (s.books symbol).state = .buffering) :
    ∃ t k, s.tasks t = some k ∧ k.symbol = symbol ∧ k.pc.unfinished = true :=
  (staffed_reachable hs).staffed symbol hbuffering

/-- The first response of the venue cannot be parsed. The task goes to sleep and tries
again. -/
theorem python_no_orphaned_book_retry :
    ∃ t k, ((machine Handler.btc).exec System.start
      [.connect 0, .subscribed 0, .depth 0 "BTCUSDT" 1 ⟨1, 10, 0, [], []⟩, .check 0,
        .fetchError 0]).tasks t = some k ∧ k.symbol = "BTCUSDT" ∧ k.pc.unfinished = true := by
  have hs := (Machine.Reachable.start (m := (machine Handler.btc).guarded Running)
    (s := System.start) rfl).exec
      [.connect 0, .subscribed 0, .depth 0 "BTCUSDT" 1 ⟨1, 10, 0, [], []⟩, .check 0,
        .fetchError 0]
      ⟨⟨by decide, trivial⟩, ⟨by decide, trivial⟩, ⟨by decide, trivial⟩, ⟨by decide, trivial⟩,
        ⟨by decide, trivial⟩, trivial⟩
  exact python_no_orphaned_book hs (by decide)

end FeedHandler.Python
