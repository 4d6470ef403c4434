import FeedHandler.Lib.Fairness
import FeedHandler.Python.Orphans
/-!
# Books come live in the Python port

The task at work on a book that buffers is never cancelled before the book is reset,
since `_request_sync` is called only for books that did not buffer. So it goes on
asking the venue, and as long as the venue does not refuse for ever the book comes live.
-/

namespace FeedHandler.Python

open Lib
open Machine (Run)

open Handler (Universe)

namespace Book

theorem onDepth_of_buffering {b : Book} (h : b.state = .buffering) (e : DepthEvent) :
    (b.onDepth e).1 ≠ .needSnapshot := by
  simp [onDepth, h]

end Book

/-! ## Sync tasks that move on -/

/-- How far a sync is from hearing from the venue. -/
def TaskPc.distance : TaskPc → Nat
  | .asleep => 3
  | .checking => 2
  | .fetching => 1
  | .finished | .cancelled => 0

def Act.syncTask : Act → Option Nat
  | check t | respond t _ _ _ | fetchError t | wake t => some t
  | connect _ | subscribed _ | depth _ _ _ _ | ticker _ _ _ _ | lost _ | processingError _ _ _
  | normalClose _ | shutdown _ | reconnect _ | sweep _ => none

def System.Syncs (s : System) (t : Nat) (symbol : String) (pc : TaskPc) : Prop :=
  ∃ k, s.tasks t = some k ∧ k.symbol = symbol ∧ k.pc = pc

def Fetched (symbol : String) (s : System) (a : Act) : Prop :=
  ∃ t, s.Syncs t symbol .fetching ∧
    (a = .fetchError t ∨ ∃ lastUpdateId bids asks, a = .respond t lastUpdateId bids asks)

/-- The answer is a snapshot that the book takes. -/
def Accepted (symbol : String) (s : System) (a : Act) : Prop :=
  ∃ t lastUpdateId bids asks, s.Syncs t symbol .fetching ∧
    a = .respond t lastUpdateId bids asks ∧
      ((s.books symbol).onSnapshot lastUpdateId bids asks).1 = true

variable {u : Universe} {s s' : System} {symbol : String} {t : Nat} {pc : TaskPc} {a : Act}

theorem syncs_setTaskPc {k : SyncTask} (hsymbol : k.symbol = symbol) (pc : TaskPc) :
    (s.setTaskPc t k pc).Syncs t symbol pc :=
  ⟨_, Function.update_self _ _ _, hsymbol, rfl⟩

theorem System.Syncs.of_tasks (h : s.Syncs t symbol pc) (htasks : s'.tasks t = s.tasks t) :
    s'.Syncs t symbol pc := by
  obtain ⟨k, hk, hsymbol, hpc⟩ := h
  exact ⟨k, htasks.trans hk, hsymbol, hpc⟩

theorem System.Syncs.cancel (h : s.Syncs t symbol pc) (ids : List Nat)
    (hids : ∀ t' ∈ ids, ∀ k, s.tasks t' = some k → k.symbol ≠ symbol) :
    (s.cancel ids).Syncs t symbol pc := by
  obtain ⟨k, hk, hsymbol, hpc⟩ := h
  have hnot : t ∉ ids := fun hmem => hids t hmem k hk hsymbol
  exact ⟨k, by simp [System.cancel, hnot, hk], hsymbol, hpc⟩

theorem System.Syncs.lt (h : s.Syncs t symbol pc) (hstaffed : Staffed u s) : t < s.nextTask := by
  obtain ⟨k, hk, -⟩ := h
  by_contra hle
  rw [hstaffed.fresh t (Nat.not_lt.mp hle)] at hk
  cases hk

/-- What a step makes of a sync at work: it is still at work, and unless a fetch ended it
is no further from the venue, and closer if the step was its own. -/
def MovesOn (symbol : String) (s : System) (a : Act) (t : Nat) (pc : TaskPc) (s' : System) :
    Prop :=
  ∃ pc', s'.Syncs t symbol pc' ∧ pc'.unfinished = true ∧
    (¬ Fetched symbol s a → pc'.distance ≤ pc.distance ∧
      (a.syncTask = some t → pc'.distance < pc.distance))

theorem movesOn_of_syncs (hpc : pc.unfinished = true) (h : s'.Syncs t symbol pc)
    (hother : a.syncTask ≠ some t) : MovesOn symbol s a t pc s' :=
  ⟨pc, h, hpc, fun _ => ⟨le_rfl, fun heq => absurd heq hother⟩⟩

theorem syncs_disconnected {i : Nat} (h : s.Syncs t symbol pc) (hsymbol : symbol ∉ u.shard i)
    (hregistered : ∀ e ∈ (s.shards i).syncTasks,
      e.1 ∈ u.shard i ∧ ∃ k, s.tasks e.2 = some k ∧ k.symbol = e.1) :
    (s.disconnected u i).Syncs t symbol pc := by
  have hreset : (s.resetBooks (u.shard i)).Syncs t symbol pc := h.of_tasks rfl
  have hcancelled := hreset.cancel ((s.shards i).syncTasks.map Prod.snd) ?_
  · exact hcancelled.of_tasks rfl
  · intro t' ht' k hk heq
    obtain ⟨e, he, rfl⟩ := List.mem_map.mp ht'
    obtain ⟨hin, k', hk', hname⟩ := hregistered e he
    obtain rfl : k = k' := Option.some.inj (hk.symm.trans hk')
    exact hsymbol (heq ▸ hname ▸ hin)

theorem syncs_requestSync {i : Nat} {other : String} (h : s.Syncs t symbol pc)
    (hlt : t < s.nextTask) (hne : other ≠ symbol)
    (hregistered : ∀ e ∈ (s.shards i).syncTasks, ∃ k, s.tasks e.2 = some k ∧ k.symbol = e.1) :
    (s.requestSync i other).Syncs t symbol pc := by
  have hcancelled := h.cancel (((s.shards i).syncTasks.filter
    fun e => decide (e.1 = other)).map Prod.snd) ?_
  · exact hcancelled.of_tasks (Function.update_of_ne (Nat.ne_of_lt hlt) _ _)
  · intro t' ht' k hk heq
    obtain ⟨e, he, rfl⟩ := List.mem_map.mp ht'
    obtain ⟨hin, hkey⟩ := List.mem_filter.mp he
    obtain ⟨k', hk', hname⟩ := hregistered e hin
    obtain rfl : k = k' := Option.some.inj (hk.symm.trans hk')
    exact hne ((of_decide_eq_true hkey).symm.trans (hname.symm.trans heq))

theorem task_cases {t' : Nat} {k : SyncTask} (h : s.Syncs t symbol pc) (hk : s.tasks t' = some k) :
    t' ≠ t ∨ t' = t ∧ k.symbol = symbol ∧ k.pc = pc := by
  by_cases heq : t' = t
  · subst heq
    obtain ⟨k', hk', hsymbol, hpc⟩ := h
    obtain rfl : k = k' := Option.some.inj (hk.symm.trans hk')
    exact Or.inr ⟨rfl, hsymbol, hpc⟩
  · exact Or.inl heq

theorem movesOn_next (hstaffed : Staffed u s) (ha : System.enabled u s a) (hrunning : Running s a)
    (hbefore : (s.books symbol).state = .buffering)
    (hafter : ((System.next u s a).books symbol).state = .buffering)
    (h : s.Syncs t symbol pc) (hpc : pc.unfinished = true) :
    MovesOn symbol s a t pc (System.next u s a) := by
  cases a with
  | connect i | subscribed i | normalClose i | reconnect i | ticker i other bid ask =>
      exact movesOn_of_syncs hpc (h.of_tasks rfl) (by simp [Act.syncTask])
  | shutdown i => exact absurd hrunning id
  | depth i other now e =>
      apply movesOn_of_syncs hpc _ (by simp [Act.syncTask])
      simp only [System.next]
      cases haction : (((s.books other).stamped now).onDepth e).1 with
      | needSnapshot =>
          have hne : other ≠ symbol := by
            intro heq
            subst heq
            have hstamped : ((s.books other).stamped now).state = .buffering := hbefore
            exact Book.onDepth_of_buffering hstamped e haction
          have hset : (s.setBook other (((s.books other).stamped now).onDepth e).2).Syncs t symbol
              pc := h.of_tasks rfl
          exact syncs_requestSync hset (h.lt hstaffed) hne fun e he =>
            (hstaffed.registered i e he).2
      | publish => exact h.of_tasks rfl
      | none_ => exact h.of_tasks rfl
  | lost i =>
      apply movesOn_of_syncs hpc _ (by simp [Act.syncTask])
      apply syncs_disconnected h _ (hstaffed.registered i)
      intro hin
      have hreset : ((System.next u s (.lost i)).books symbol).state = .uninitialized := by
        simp [System.next, System.disconnected, System.setShard, System.cancel, System.resetBooks,
          hin, Book.reset]
      simp [hreset] at hafter
  | processingError i other b =>
      apply movesOn_of_syncs hpc _ (by simp [Act.syncTask])
      have hset : (s.setBook other b).Syncs t symbol pc := h.of_tasks rfl
      apply syncs_disconnected hset _ (hstaffed.registered i)
      intro hin
      have hreset : ((System.next u s (.processingError i other b)).books symbol).state =
          .uninitialized := by
        simp [System.next, System.disconnected, System.setShard, System.cancel, System.resetBooks,
          hin, Book.reset]
      simp [hreset] at hafter
  | sweep now =>
      apply movesOn_of_syncs hpc _ (by simp [Act.syncTask])
      obtain ⟨k, hk, hsymbol⟩ := h
      have hkept := (staffed_foldl_createTask
        (takeStaleBooks s.books u.symbols now Handler.staleThreshold).1
        (s := { s with
          books := (takeStaleBooks s.books u.symbols now Handler.staleThreshold).2 })
        hstaffed.fresh rfl).2.1
      exact ⟨k, hkept t k hk, hsymbol⟩
  | check t' =>
      obtain ⟨k, hk, hat⟩ := exists_task ha
      simp only [System.next, hk]
      rcases task_cases h hk with hne | ⟨rfl, hsymbol, rfl⟩
      · exact movesOn_of_syncs hpc (h.of_tasks (Function.update_of_ne (Ne.symm hne) _ _))
          (by simpa [Act.syncTask] using hne)
      · rw [hsymbol, if_pos hbefore]
        refine ⟨.fetching, syncs_setTaskPc hsymbol _, rfl, fun _ => ?_⟩
        rw [hat]
        exact ⟨by decide, fun _ => by decide⟩
  | respond t' lastUpdateId bids asks =>
      obtain ⟨k, hk, hat⟩ := exists_task ha
      have hnext : System.next u s (.respond t' lastUpdateId bids asks) =
          s.respond t' k lastUpdateId bids asks := by simp only [System.next, hk]
      rw [hnext] at hafter ⊢
      rcases task_cases h hk with hne | ⟨rfl, rfl, rfl⟩
      · exact movesOn_of_syncs hpc (h.of_tasks (Function.update_of_ne (Ne.symm hne) _ _))
          (by simpa [Act.syncTask] using hne)
      · have hbook : (s.respond t' k lastUpdateId bids asks).books k.symbol =
            ((s.books k.symbol).onSnapshot lastUpdateId bids asks).2 := Function.update_self _ _ _
        rw [hbook] at hafter
        have hrefused : ((s.books k.symbol).onSnapshot lastUpdateId bids asks).1 ≠ true :=
          fun htrue => Book.state_onSnapshot_of_true htrue hafter
        refine ⟨.asleep, ?_, rfl, fun hfetched => ?_⟩
        · unfold System.respond
          dsimp only
          rw [if_neg hrefused]
          exact syncs_setTaskPc rfl _
        · rw [hat] at h
          exact absurd ⟨t', h, Or.inr ⟨_, _, _, rfl⟩⟩ hfetched
  | fetchError t' =>
      obtain ⟨k, hk, hat⟩ := exists_task ha
      simp only [System.next, hk]
      rcases task_cases h hk with hne | ⟨rfl, hsymbol, rfl⟩
      · exact movesOn_of_syncs hpc (h.of_tasks (Function.update_of_ne (Ne.symm hne) _ _))
          (by simpa [Act.syncTask] using hne)
      · refine ⟨.asleep, syncs_setTaskPc hsymbol _, rfl, fun hfetched => ?_⟩
        rw [hat] at h
        exact absurd ⟨t', h, Or.inl rfl⟩ hfetched
  | wake t' =>
      obtain ⟨k, hk, hat⟩ := exists_task ha
      simp only [System.next, hk]
      rcases task_cases h hk with hne | ⟨rfl, hsymbol, rfl⟩
      · exact movesOn_of_syncs hpc (h.of_tasks (Function.update_of_ne (Ne.symm hne) _ _))
          (by simpa [Act.syncTask] using hne)
      · refine ⟨.checking, syncs_setTaskPc hsymbol _, rfl, fun _ => ?_⟩
        rw [hat]
        exact ⟨by decide, fun _ => by decide⟩

/-! ## Fair runs -/

/-- The sync tasks keep running, and the venue does not refuse for ever. -/
structure FairFor (symbol : String) (r : Run ((machine u).guarded Running)) : Prop where
  /-- A sync gets its turn at the pacer, its fetch ends and so does its sleep. -/
  sync : ∀ t, r.Fair (fun s => ∃ k, s.tasks t = some k ∧ k.pc.unfinished = true)
    fun a => a.syncTask = some t
  venue : (∀ n, ∃ k, n ≤ k ∧ ∃ a, r.act k = some a ∧ Fetched symbol (r.state k) a) →
    ∀ n, ∃ k, n ≤ k ∧ ∃ a, r.act k = some a ∧ Accepted symbol (r.state k) a

def Kept (r : Run ((machine u).guarded Running)) (symbol : String) (n : Nat) : Prop :=
  ∀ k, n ≤ k → ((r.state k).books symbol).state = .buffering

def System.distance (s : System) (t : Nat) : Nat :=
  ((s.tasks t).map fun k => k.pc.distance).getD 0

theorem distance_of_syncs (h : s.Syncs t symbol pc) : s.distance t = pc.distance := by
  obtain ⟨k, hk, -, rfl⟩ := h
  simp [System.distance, hk]

section Kept

variable {r : Run ((machine u).guarded Running)} {n : Nat}

theorem Kept.movesOn (h : Kept r symbol n) {k : Nat} (hk : n ≤ k) (hact : r.act k = some a)
    (hsyncs : (r.state k).Syncs t symbol pc) (hpc : pc.unfinished = true) :
    MovesOn symbol (r.state k) a t pc (r.state (k + 1)) := by
  obtain ⟨⟨henabled, hrunning⟩, hnext⟩ := r.step k a hact
  have hafter := h (k + 1) (by omega)
  rw [hnext] at hafter ⊢
  have hstaffed := staffed_reachable (r.reachable k)
  exact movesOn_next hstaffed henabled hrunning (h k hk) hafter hsyncs hpc

theorem Kept.closer (h : Kept r symbol n) {k : Nat} (hk : n ≤ k)
    (hfetched : ∀ a, r.act k = some a → ¬ Fetched symbol (r.state k) a)
    (hsyncs : (r.state k).Syncs t symbol pc) (hpc : pc.unfinished = true) :
    ∃ pc', (r.state (k + 1)).Syncs t symbol pc' ∧ pc'.unfinished = true ∧
      pc'.distance ≤ pc.distance ∧
        (∀ a, r.act k = some a → a.syncTask = some t → pc'.distance < pc.distance) := by
  cases hact : r.act k with
  | none =>
      rw [r.stays k hact]
      exact ⟨pc, hsyncs, hpc, le_rfl, fun a ha => absurd ha (by simp)⟩
  | some a =>
      obtain ⟨pc', hsyncs', hpc', hdistance⟩ := h.movesOn hk hact hsyncs hpc
      obtain ⟨hle, hlt⟩ := hdistance (hfetched a hact)
      refine ⟨pc', hsyncs', hpc', hle, fun a' ha' => ?_⟩
      obtain rfl := Option.some.inj ha'
      exact hlt

theorem Kept.fetched (h : Kept r symbol n) (hfair : FairFor symbol r) :
    ∃ k, n ≤ k ∧ ∃ a, r.act k = some a ∧ Fetched symbol (r.state k) a := by
  by_contra hnever
  push Not at hnever
  obtain ⟨t, task, htask, hsymbol, hunfinished⟩ :=
    (staffed_reachable (r.reachable n)).staffed symbol (h n le_rfl)
  have hworks : ∀ k, n ≤ k → ∃ pc, (r.state k).Syncs t symbol pc ∧ pc.unfinished = true := by
    intro k hk
    induction k, hk using Nat.le_induction with
    | base => exact ⟨task.pc, ⟨task, htask, hsymbol, rfl⟩, hunfinished⟩
    | succ k hk ih =>
        obtain ⟨pc, hsyncs, hpc⟩ := ih
        obtain ⟨pc', hsyncs', hpc', -⟩ := h.closer hk (hnever k hk) hsyncs hpc
        exact ⟨pc', hsyncs', hpc'⟩
  apply (hfair.sync t).not_forever (fun k => (r.state k).distance t) (n := n)
  · intro k hk
    obtain ⟨pc, ⟨task, htask, -, rfl⟩, hpc⟩ := hworks k hk
    exact ⟨task, htask, hpc⟩
  · intro k hk
    obtain ⟨pc, hsyncs, hpc⟩ := hworks k hk
    obtain ⟨pc', hsyncs', -, hle, -⟩ := h.closer hk (hnever k hk) hsyncs hpc
    rw [distance_of_syncs hsyncs, distance_of_syncs hsyncs']
    exact hle
  · intro k a hk hact ha
    obtain ⟨pc, hsyncs, hpc⟩ := hworks k hk
    obtain ⟨pc', hsyncs', -, -, hlt⟩ := h.closer hk (hnever k hk) hsyncs hpc
    rw [distance_of_syncs hsyncs, distance_of_syncs hsyncs']
    exact hlt a hact ha

theorem not_kept (hfair : FairFor symbol r) : ¬ Kept r symbol n := by
  intro h
  have hasked : ∀ k, ∃ j, k ≤ j ∧ ∃ a, r.act j = some a ∧ Fetched symbol (r.state j) a := by
    intro k
    have hlater : Kept r symbol (max k n) := fun j hj => h j (by omega)
    obtain ⟨j, hj, hfetched⟩ := hlater.fetched hfair
    exact ⟨j, by omega, hfetched⟩
  obtain ⟨k, hk, a, hact, t, lastUpdateId, bids, asks, ⟨task, htask, rfl, -⟩, rfl, hanswer⟩ :=
    hfair.venue hasked n
  obtain ⟨-, hnext⟩ := r.step k _ hact
  have hbook : (r.state (k + 1)).books task.symbol =
      (((r.state k).books task.symbol).onSnapshot lastUpdateId bids asks).2 := by
    rw [hnext]
    show (System.next u (r.state k) (.respond t lastUpdateId bids asks)).books task.symbol = _
    simp only [System.next, htask]
    exact Function.update_self _ _ _
  have hafter := h (k + 1) (by omega)
  rw [hbook] at hafter
  exact Book.state_onSnapshot_of_true hanswer hafter

end Kept

/-! ## The book comes live -/

/-- The connection of the book's shard is lost, or the handling of a message raises. -/
def Act.resets (u : Universe) (symbol : String) : Act → Prop
  | lost i | processingError i _ _ => symbol ∈ u.shard i
  | _ => False

theorem state_next_ne (ha : System.enabled u s a) (hbuffering : (s.books symbol).state = .buffering)
    (hreset : ¬ a.resets u symbol) :
    ((System.next u s a).books symbol).state ≠ .uninitialized := by
  have hstays : ∀ b : Book, b = s.books symbol → b.state ≠ .uninitialized := by
    intro b hb
    simp [hb, hbuffering]
  have hinit : (s.books symbol).state ≠ .uninitialized := hstays _ rfl
  cases a with
  | connect i | subscribed i | normalClose i | shutdown i | reconnect i => exact hinit
  | depth i other now e =>
      have hbooks : (System.next u s (.depth i other now e)).books =
          Function.update s.books other (((s.books other).stamped now).onDepth e).2 := by
        simp only [System.next]
        cases (((s.books other).stamped now).onDepth e).1 <;> rfl
      rw [hbooks]
      by_cases heq : symbol = other
      · subst heq
        rw [Function.update_self]
        exact Book.state_onDepth_ne _ e
      · rw [Function.update_of_ne heq]
        exact hinit
  | ticker i other bid ask =>
      show ((Function.update s.books other _) symbol).state ≠ _
      by_cases heq : symbol = other
      · subst heq
        rw [Function.update_self]
        exact hinit
      · rw [Function.update_of_ne heq]
        exact hinit
  | lost i =>
      have hnot : symbol ∉ u.shard i := hreset
      simpa [System.next, System.disconnected, System.setShard, System.cancel, System.resetBooks,
        hnot] using hinit
  | processingError i other b =>
      have hnot : symbol ∉ u.shard i := hreset
      have hne : symbol ≠ other := by
        intro heq
        exact hnot (heq ▸ ha.2)
      simpa [System.next, System.disconnected, System.setShard, System.cancel, System.resetBooks,
        System.setBook, hnot, hne] using hinit
  | sweep now =>
      have hbooks : (System.next u s (.sweep now)).books =
          (takeStaleBooks s.books u.symbols now Handler.staleThreshold).2 :=
        (foldl_createTask _ _).1
      rw [hbooks]
      apply takeStaleBooks_preserves (P := fun b => b.state ≠ .uninitialized) hinit
      intro b _
      simp [Book.markForResync, Book.stamped]
  | check t | fetchError t | wake t =>
      simp only [System.next]
      cases s.tasks t <;> exact hinit
  | respond t lastUpdateId bids asks =>
      simp only [System.next]
      cases s.tasks t with
      | none => exact hinit
      | some k =>
          show ((Function.update s.books k.symbol _) symbol).state ≠ _
          by_cases heq : symbol = k.symbol
          · rw [heq, Function.update_self]
            exact Book.state_onSnapshot_ne (heq ▸ hinit) lastUpdateId bids asks
          · rw [Function.update_of_ne heq]
            exact hinit

/-- A book that buffers, or is about to get an event, comes live at a later moment, unless
its shard loses the connection before that, or fails on a message, and resets it. -/
theorem python_book_comes_live {r : Run ((machine u).guarded Running)}
    (hfair : FairFor symbol r) (n : Nat)
    (hwaits : ((r.state n).books symbol).state = .buffering ∨
      ∃ k, n ≤ k ∧ ∃ i now e, r.act k = some (.depth i symbol now e)) :
    ∃ k, n ≤ k ∧ (((r.state k).books symbol).state = .live ∨
      ∃ a, r.act k = some a ∧ a.resets u symbol) := by
  by_contra hnever
  push Not at hnever
  have hkept : ∀ m, n ≤ m → ((r.state m).books symbol).state = .buffering → False := by
    intro m hm hbuffering
    apply not_kept (n := m) hfair
    intro k hk
    induction k, hk using Nat.le_induction with
    | base => exact hbuffering
    | succ k hk ih =>
        have hlive := (hnever (k + 1) (by omega)).1
        cases hact : r.act k with
        | none =>
            rw [r.stays k hact]
            exact ih
        | some a =>
            obtain ⟨henabled, hnext⟩ := r.step k a hact
            have hinit := state_next_ne henabled.1 ih ((hnever k (by omega)).2 a hact)
            have hnext' : r.state (k + 1) = System.next u (r.state k) a := hnext
            rw [← hnext'] at hinit
            cases hstate : ((r.state (k + 1)).books symbol).state with
            | uninitialized => exact absurd hstate hinit
            | buffering => rfl
            | live => exact absurd hstate hlive
  rcases hwaits with hbuffering | ⟨k, hk, i, now, e, hact⟩
  · exact hkept n le_rfl hbuffering
  · obtain ⟨-, hnext⟩ := r.step k _ hact
    have hbook : (r.state (k + 1)).books symbol =
        ((((r.state k).books symbol).stamped now).onDepth e).2 := by
      rw [hnext]
      show (System.next u (r.state k) (.depth i symbol now e)).books symbol = _
      simp only [System.next]
      cases ((((r.state k).books symbol).stamped now).onDepth e).1 <;>
        exact Function.update_self _ _ _
    have hinit := Book.state_onDepth_ne (((r.state k).books symbol).stamped now) e
    rw [← hbook] at hinit
    cases hstate : ((r.state (k + 1)).books symbol).state with
    | uninitialized => exact absurd hstate hinit
    | buffering => exact hkept (k + 1) (by omega) hstate
    | live => exact (hnever (k + 1) (by omega)).1 hstate

/-! ## A run in which the venue is asked for ever -/

structure Rested (s : System) : Prop where
  live : (s.books "BTCUSDT").state = .live
  named : (s.books "BTCUSDT").symbol = "BTCUSDT"
  ended : ∀ t k, s.tasks t = some k → k.pc.unfinished = false

def silent (s : System) : Rat := (s.books "BTCUSDT").lastUpdateTime + 31

/-- The stream falls silent, and the sweeper has the book synced again. -/
def resync (s : System) : List Act :=
  [.sweep (silent s), .check s.nextTask, .respond s.nextTask 0 [] []]

def marked (s : System) : Book := (s.books "BTCUSDT").markForResync.stamped (silent s)

def resyncing (s : System) (b : Book) (pc : TaskPc) : System :=
  { s with
    books := Function.update s.books "BTCUSDT" b
    tasks := Function.update s.tasks s.nextTask (some ⟨"BTCUSDT", none, pc⟩)
    nextTask := s.nextTask + 1 }

@[simp] theorem books_resyncing (s : System) (b : Book) (pc : TaskPc) :
    (resyncing s b pc).books "BTCUSDT" = b := by
  simp [resyncing]

@[simp] theorem tasks_resyncing (s : System) (b : Book) (pc : TaskPc) :
    (resyncing s b pc).tasks s.nextTask = some ⟨"BTCUSDT", none, pc⟩ := by
  simp [resyncing]

def resynced (s : System) : Book := ((marked s).onSnapshot 0 [] []).2

theorem onSnapshot_marked (s : System) : (marked s).onSnapshot 0 [] [] = (true, resynced s) := rfl

theorem sweep_eq {s : System} (h : Rested s) :
    System.next Handler.btc s (.sweep (silent s)) = resyncing s (marked s) .checking := by
  have hstale : (s.books "BTCUSDT").state = .live ∧
      Handler.staleThreshold < silent s - (s.books "BTCUSDT").lastUpdateTime := by
    refine ⟨h.live, ?_⟩
    rw [silent, add_sub_cancel_left]
    decide
  simp only [System.next, takeStaleBooks, Handler.btc, List.foldl, takeStale, if_pos hstale,
    h.named, List.nil_append]
  rfl

theorem check_eq (s : System) : System.next Handler.btc (resyncing s (marked s) .checking)
    (.check s.nextTask) = resyncing s (marked s) .fetching := by
  simp [System.next, resyncing, System.setTaskPc, marked, Book.stamped, Book.markForResync]

theorem respond_eq (s : System) : System.next Handler.btc (resyncing s (marked s) .fetching)
    (.respond s.nextTask 0 [] []) = resyncing s (resynced s) .finished := by
  simp [System.next, System.respond, resyncing, System.setTaskPc, System.setBook,
    onSnapshot_marked]

theorem exec_take_resync {s : System} (h : Rested s) :
    ((machine Handler.btc).guarded Running).exec s ((resync s).take 2) =
      resyncing s (marked s) .fetching := by
  simp only [Machine.exec, resync, List.take, List.foldl_cons, List.foldl_nil, Machine.guarded,
    machine]
  rw [sweep_eq h, check_eq]

theorem exec_resync {s : System} (h : Rested s) :
    ((machine Handler.btc).guarded Running).exec s (resync s) =
      resyncing s (resynced s) .finished := by
  rw [← List.take_append_drop 2 (resync s), Machine.exec_append, exec_take_resync h]
  exact respond_eq s

theorem admits_resync {s : System} (h : Rested s) :
    ((machine Handler.btc).guarded Running).Admits s (resync s) := by
  simp only [Machine.Admits, resync, Machine.guarded, machine]
  rw [sweep_eq h, check_eq]
  simp [System.enabled, System.TaskAt, Running]

theorem Rested.resync {s : System} (h : Rested s) :
    Rested (resyncing s (resynced s) .finished) where
  live := by
    rw [books_resyncing]
    rfl
  named := by
    rw [books_resyncing]
    exact h.named
  ended t k hk := by
    by_cases ht : t = s.nextTask
    · subst ht
      rw [tasks_resyncing] at hk
      rw [← Option.some.inj hk]
      rfl
    · exact h.ended t k ((Function.update_of_ne ht _ _).symm.trans hk)

theorem cycle_resync :
    Run.Cycle ((machine Handler.btc).guarded Running) Rested Python.resync where
  admits _ := admits_resync
  returns s h := by
    rw [exec_resync h]
    exact h.resync

def firstSync : List Act :=
  [.connect 0, .subscribed 0, .depth 0 "BTCUSDT" 1 ⟨1, 10, 0, [], []⟩, .check 0,
    .respond 0 20 [] []]

theorem admits_firstSync :
    ((machine Handler.btc).guarded Running).Admits System.start firstSync :=
  ⟨⟨by decide, trivial⟩, ⟨by decide, trivial⟩, ⟨by decide, trivial⟩, ⟨by decide, trivial⟩,
    ⟨by decide, trivial⟩, trivial⟩

theorem rested_firstSync :
    Rested (((machine Handler.btc).guarded Running).exec System.start firstSync) where
  live := by decide
  named := by decide
  ended t k hk := by
    by_cases ht : t = 0
    · subst ht
      have htask : (((machine Handler.btc).guarded Running).exec System.start firstSync).tasks 0 =
          some ⟨"BTCUSDT", some 0, .finished⟩ := by decide
      rw [← Option.some.inj (htask.symm.trans hk)]
      rfl
    · have hfresh := (staffed_reachable ((Machine.Reachable.start rfl).exec firstSync
        admits_firstSync)).fresh t (Nat.one_le_iff_ne_zero.mpr ht)
      exact absurd (hk.symm.trans hfresh) (by simp)

/-- After the first sync the stream falls silent again and again. -/
def silences : Run ((machine Handler.btc).guarded Running) :=
  .ofCycle cycle_resync firstSync rfl admits_firstSync rested_firstSync

theorem asked_again (n : Nat) :
    ∃ k, n ≤ k ∧ ∃ a, silences.act k = some a ∧ Accepted "BTCUSDT" (silences.state k) a := by
  apply Run.again_ofCycle
  intro s h
  refine ⟨2, .respond s.nextTask 0 [] [], rfl, ?_⟩
  rw [exec_take_resync h]
  refine ⟨s.nextTask, 0, [], [], ⟨_, tasks_resyncing _ _ _, rfl, rfl⟩, rfl, ?_⟩
  rw [books_resyncing]
  rfl

theorem fairFor_silences : FairFor "BTCUSDT" silences where
  sync t := Run.fair_ofCycle _ _ _ _ _ fun s h hready => by
    obtain ⟨k, hk, hpc⟩ := hready
    rw [h.ended t k hk] at hpc
    cases hpc
  venue _ := asked_again

theorem python_book_comes_live_silences :
    (∀ n, ∃ k, n ≤ k ∧ ∃ a, silences.act k = some a ∧
      Accepted "BTCUSDT" (silences.state k) a) ∧
    ∃ k, 3 ≤ k ∧ (((silences.state k).books "BTCUSDT").state = .live ∨
      ∃ a, silences.act k = some a ∧ a.resets Handler.btc "BTCUSDT") :=
  ⟨asked_again, python_book_comes_live fairFor_silences 3 (Or.inl (by decide))⟩

end FeedHandler.Python
