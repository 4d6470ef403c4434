import FeedHandler.Handler.Orphans
import FeedHandler.Lib.Fairness
/-!
# Books come live

What the handler must get done, and not only what it never does. As long as its tasks
keep running and the venue does not refuse every snapshot, a book that waits for one
comes live, unless its shard loses the connection first and clears it.
-/

namespace FeedHandler.Handler

open Lib
open Machine (Run)

/-! ## Sync tasks that move on -/

/-- How far a sync is from hearing from the venue. -/
def TaskPc.distance : TaskPc → Nat
  | .asleepLocked | .retrying => 4
  | .checking => 3
  | .requesting => 2
  | .inFlight => 1
  | .finished | .aborted | .panicked => 0

def SymbolOp.task : SymbolOp → Option Nat
  | check t | send t | fail t | respond t _ _ _ | panicTask t | wake t => some t
  | connect | deliver _ _ | ticker _ _ | requestSync _ | reset | abortHandles | sweep _
  | spawnResync _ => none

def SymbolOp.fetches : SymbolOp → Prop
  | fail _ | respond _ _ _ _ => True
  | _ => False

namespace SymbolState

variable {c : SymbolState} {op : SymbolOp}

/-- The sync was asked for, and the sweeper has nothing left to do. -/
structure Settled (c : SymbolState) : Prop where
  phase : c.phase ≠ .asking
  marked : c.marked = false

/-- A book that buffers before and after a step was not connected, reset or swept by it. -/
structure Waiting (c : SymbolState) (op : SymbolOp) : Prop where
  connect : op ≠ .connect
  reset : op ≠ .reset
  abortHandles : op ≠ .abortHandles
  sweep : ∀ now, op ≠ .sweep now
  deliver : ∀ now e, op = .deliver now e → ((c.book.stamped now).onDepth e).1 ≠ .needSnapshot
  respond : ∀ t lastUpdateId bids asks, op = .respond t lastUpdateId bids asks →
    (c.book.onSnapshot lastUpdateId bids asks).1 = false

theorem waiting (hregular : c.Regular) (hop : c.enabled op)
    (hbefore : c.book.state = .buffering) (hafter : (c.next op).book.state = .buffering) :
    c.Waiting op := by
  have hcleared : c.phase ≠ .cleared := by
    intro hphase
    exact absurd (hbefore.symm.trans (hregular.cleared hphase)) (by decide)
  constructor
  · rintro rfl
    exact hcleared hop
  · rintro rfl
    exact absurd hafter (by simp [SymbolState.next, Book.reset])
  · rintro rfl
    exact hcleared hop
  · rintro now rfl
    exact absurd (hbefore.symm.trans hop.1) (by decide)
  · intro now e _ hask
    exact ((Book.onDepth_eq_needSnapshot_iff _ e).mp hask).1 hbefore
  · rintro t lastUpdateId bids asks rfl
    by_contra hlive
    exact (Book.onSnapshot_eq_true_iff _ lastUpdateId bids asks).mp
      (Bool.not_eq_false _ ▸ hlive) hafter

theorem phase_next (hwaiting : c.Waiting op) (h : c.phase ≠ .asking) :
    (c.next op).phase ≠ .asking := by
  cases op with
  | connect => exact absurd rfl hwaiting.connect
  | deliver now e => simp [SymbolState.next, hwaiting.deliver now e rfl]
  | requestSync t => simp [SymbolState.next]
  | reset => exact absurd rfl hwaiting.reset
  | ticker bid ask | abortHandles | sweep now | spawnResync t | check t | send t | fail t
  | respond t lastUpdateId bids asks | panicTask t | wake t => exact h

theorem marked_next (hwaiting : c.Waiting op) (h : c.marked = false) :
    (c.next op).marked = false := by
  cases op with
  | sweep now => exact absurd rfl (hwaiting.sweep now)
  | spawnResync t => rfl
  | connect | deliver now e | ticker bid ask | requestSync t | reset | abortHandles | check t
  | send t | fail t | respond t lastUpdateId bids asks | panicTask t | wake t => exact h

/-- A sync at work stays at work, and it comes closer to the venue with every step of its
own that is not an answer. -/
theorem Settled.distance (h : c.Settled) (hop : c.enabled op) (hwaiting : c.Waiting op)
    (hbuffering : c.book.state = .buffering) (hparses : ∀ t, op ≠ .panicTask t) {t : Nat}
    {pc : TaskPc} (ht : c.tasks t = some pc) (hpc : pc.unfinished = true) :
    ∃ pc', (c.next op).tasks t = some pc' ∧ pc'.unfinished = true ∧
      (¬ op.fetches → pc'.distance ≤ pc.distance ∧
        (op.task = some t → pc'.distance < pc.distance)) := by
  -- a step of another task
  have hother : ∀ t' pc', t' ≠ t → (c.setTask t' pc').tasks t = some pc := by
    intro t' pc' hne
    rw [setTask_tasks, if_neg (Ne.symm hne), ht]
  have hself : ∀ pc', (c.setTask t pc').tasks t = some pc' := by simp
  cases op with
  | connect => exact absurd rfl hwaiting.connect
  | deliver now e => exact ⟨pc, ht, hpc, fun _ => ⟨le_rfl, by simp [SymbolOp.task]⟩⟩
  | ticker bid ask => exact ⟨pc, ht, hpc, fun _ => ⟨le_rfl, by simp [SymbolOp.task]⟩⟩
  | requestSync t' => exact absurd hop.1 h.phase
  | reset => exact absurd rfl hwaiting.reset
  | abortHandles => exact absurd rfl hwaiting.abortHandles
  | sweep now => exact absurd rfl (hwaiting.sweep now)
  | spawnResync t' => exact absurd (h.marked.symm.trans hop.1) (by decide)
  | panicTask t' => exact absurd rfl (hparses t')
  | check t' =>
      by_cases heq : t' = t
      · subst heq
        obtain rfl : pc = .checking := Option.some.inj (ht.symm.trans hop)
        refine ⟨.requesting, ?_, rfl, fun _ => ⟨by decide, fun _ => by decide⟩⟩
        simp only [SymbolState.next, hbuffering, if_true, hself]
      · exact ⟨pc, hother t' _ heq, hpc, fun _ => ⟨le_rfl, by simp [SymbolOp.task, heq]⟩⟩
  | send t' =>
      by_cases heq : t' = t
      · subst heq
        obtain rfl : pc = .requesting := Option.some.inj (ht.symm.trans hop)
        exact ⟨.inFlight, hself _, rfl, fun _ => ⟨by decide, fun _ => by decide⟩⟩
      · exact ⟨pc, hother t' _ heq, hpc, fun _ => ⟨le_rfl, by simp [SymbolOp.task, heq]⟩⟩
  | wake t' =>
      by_cases heq : t' = t
      · subst heq
        refine ⟨.checking, hself _, rfl, fun _ => ?_⟩
        rcases hop with hasleep | hasleep <;>
          obtain rfl := Option.some.inj (ht.symm.trans hasleep) <;>
            exact ⟨by decide, fun _ => by decide⟩
      · exact ⟨pc, hother t' _ heq, hpc, fun _ => ⟨le_rfl, by simp [SymbolOp.task, heq]⟩⟩
  | fail t' =>
      by_cases heq : t' = t
      · subst heq
        exact ⟨.retrying, hself _, rfl, fun hfetches => absurd trivial hfetches⟩
      · exact ⟨pc, hother t' _ heq, hpc, fun hfetches => absurd trivial hfetches⟩
  | respond t' lastUpdateId bids asks =>
      by_cases heq : t' = t
      · subst heq
        refine ⟨.asleepLocked, ?_, rfl, fun hfetches => absurd trivial hfetches⟩
        simp [SymbolState.next, hwaiting.respond t' lastUpdateId bids asks rfl, setTask]
      · exact ⟨pc, hother t' _ heq, hpc, fun hfetches => absurd trivial hfetches⟩

end SymbolState

/-! ## Fair runs -/

variable {u : Universe} {s : System} {symbol : String}

def Act.syncTask : Act → Option Nat
  | check t | send t | fail t | respond t _ _ _ | panicTask t | wake t => some t
  | connect _ | connectFail _ | depth _ _ _ _ | ticker _ _ _ _ | requestSync _ | emit _ | close _
  | panicShard _ | markDisconnected _ | resetBooks _ | abortHandles _ | reconnect _ | sweep _ _
  | spawnResync => none

/-- A request for the symbol fails or is answered. -/
def Fetched (symbol : String) (s : System) (a : Act) : Prop :=
  ∃ t, s.Syncs t symbol ∧
    (a = .fail t ∨ ∃ lastUpdateId bids asks, a = .respond t lastUpdateId bids asks)

/-- The answer is a snapshot that the book takes. -/
def Accepted (symbol : String) (s : System) (a : Act) : Prop :=
  ∃ t lastUpdateId bids asks, s.Syncs t symbol ∧ a = .respond t lastUpdateId bids asks ∧
    ((s.books symbol).onSnapshot lastUpdateId bids asks).1 = true

/-- The tasks of the process keep running, and the venue does not refuse for ever. -/
structure FairFor (u : Universe) (symbol : String) (r : Run (u.machine.guarded Parses)) :
    Prop where
  /-- A shard that asked for a snapshot goes on to request the sync. -/
  request : r.Fair (fun s => (s.shards (u.owner symbol)).pc = .needSnapshot symbol)
    fun a => a = .requestSync (u.owner symbol)
  /-- The sweeper spawns what it marked. -/
  spawn : r.Fair (fun s => s.stale ≠ []) fun a => a = .spawnResync
  /-- A sync is granted the lock and its turn at the pacer, its request ends and so does
  its sleep. -/
  sync : ∀ t, r.Fair (fun s => ∃ k, s.tasks t = some k ∧ k.pc.unfinished = true)
    fun a => a.syncTask = some t
  venue : (∀ n, ∃ k, n ≤ k ∧ ∃ a, r.act k = some a ∧ Fetched symbol (r.state k) a) →
    ∀ n, ∃ k, n ≤ k ∧ ∃ a, r.act k = some a ∧ Accepted symbol (r.state k) a

theorem pc_of_asking (h : (s.symbol u symbol).phase = .asking) :
    (s.shards (u.owner symbol)).pc = .needSnapshot symbol := by
  simp only [System.symbol] at h
  generalize (s.shards (u.owner symbol)).pc = pc at h
  cases pc <;> simp_all [ShardPc.phase]

theorem fetched_of_op {a : Act} {op : SymbolOp} (hop : symbolOp u s symbol a = some op)
    (hfetches : op.fetches) : Fetched symbol s a := by
  cases a <;> simp only [symbolOp, Option.ite_none_right_eq_some, Option.some.injEq,
    reduceCtorEq] at hop
  case fail t => exact ⟨t, hop.1, Or.inl rfl⟩
  case respond t lastUpdateId bids asks => exact ⟨t, hop.1, Or.inr ⟨_, _, _, rfl⟩⟩
  all_goals
    obtain ⟨-, rfl⟩ := hop
    exact absurd hfetches (by simp [SymbolOp.fetches])

theorem op_of_syncTask {t : Nat} (hsyncs : s.Syncs t symbol) {a : Act}
    (ha : a.syncTask = some t) :
    ∃ op, symbolOp u s symbol a = some op ∧ op.task = some t := by
  cases a <;> simp only [Act.syncTask, Option.some.injEq, reduceCtorEq] at ha
  all_goals
    subst ha
    exact ⟨_, if_pos hsyncs, rfl⟩

theorem stale_next {a : Act} (ha : System.enabled u s a) (hstale : s.stale ≠ []) :
    (System.next u s a).stale.length ≤ s.stale.length ∧
      (a = .spawnResync → (System.next u s a).stale.length < s.stale.length) := by
  cases a with
  | sweep now order => exact absurd ha.1 hstale
  | spawnResync =>
      obtain ⟨other, rest, heq⟩ := List.exists_cons_of_ne_nil hstale
      simp [System.next, heq]
  | requestSync i | emit i =>
      refine ⟨le_of_eq ?_, by simp⟩
      simp only [System.next]
      split <;> rfl
  | check t | send t | fail t | panicTask t | wake t =>
      refine ⟨le_of_eq ?_, by simp⟩
      simp only [System.next]
      split <;> rfl
  | respond t lastUpdateId bids asks =>
      refine ⟨le_of_eq ?_, by simp⟩
      simp only [System.next]
      split
      · unfold System.respond
        dsimp only
        split_ifs <;> rfl
      · rfl
  | connect i | connectFail i | depth i other now e | ticker i other bid ask | close i
  | panicShard i | markDisconnected i | resetBooks i | abortHandles i | reconnect i =>
      exact ⟨le_rfl, by simp⟩

/-! ## A book that is kept waiting -/

def opAt (r : Run (u.machine.guarded Parses)) (symbol : String) (k : Nat) : Option SymbolOp :=
  (r.act k).bind (symbolOp u (r.state k) symbol)

section Kept

variable {r : Run (u.machine.guarded Parses)} {n : Nat}

theorem moves_at (hsymbol : symbol ∈ u.symbols) (k : Nat) :
    ((r.state k).symbol u symbol).Moves ((r.state (k + 1)).symbol u symbol)
      (opAt r symbol k) := by
  unfold opAt
  cases hact : r.act k with
  | none => exact congrArg (fun s => System.symbol u s symbol) (r.stays k hact)
  | some a =>
      obtain ⟨henabled, hnext⟩ := r.step k a hact
      rw [hnext]
      exact symbol_next (tidy_reachable (r.reachable k).of_guarded) henabled.1 hsymbol

theorem parses_at {k : Nat} {op : SymbolOp} (hop : opAt r symbol k = some op) (t : Nat) :
    op ≠ .panicTask t := by
  obtain ⟨a, hact, hop⟩ := Option.bind_eq_some_iff.mp hop
  exact symbolOp_ne_panicTask (r.step k a hact).1.2 hop t

/-- The book buffers at every moment from `n` on. -/
def Kept (r : Run (u.machine.guarded Parses)) (symbol : String) (n : Nat) : Prop :=
  ∀ k, n ≤ k → ((r.state k).books symbol).state = .buffering

theorem Kept.waiting (h : Kept r symbol n) (hsymbol : symbol ∈ u.symbols) {k : Nat} (hk : n ≤ k)
    {op : SymbolOp} (hop : opAt r symbol k = some op) :
    ((r.state k).symbol u symbol).Waiting op := by
  have hmoves := moves_at (r := r) hsymbol k
  rw [hop] at hmoves
  apply SymbolState.waiting (regular_reachable (r.reachable k).of_guarded hsymbol) hmoves.1
    (h k hk)
  rw [← hmoves.2]
  exact h (k + 1) (by omega)

theorem Kept.preserves (h : Kept r symbol n) (hsymbol : symbol ∈ u.symbols)
    {J : SymbolState → Prop}
    (hnext : ∀ c op, c.enabled op → SymbolState.Waiting c op → J c → J (c.next op)) {k : Nat}
    (hk : n ≤ k) (hJ : J ((r.state k).symbol u symbol)) {j : Nat} (hj : k ≤ j) :
    J ((r.state j).symbol u symbol) := by
  induction j, hj using Nat.le_induction with
  | base => exact hJ
  | succ j hj ih =>
      apply (moves_at hsymbol j).preserves ih
      intro op hop henabled
      exact hnext _ op henabled (h.waiting hsymbol (hk.trans hj) hop) ih

theorem exists_not_asking (hsymbol : symbol ∈ u.symbols) (hfair : FairFor u symbol r) (n : Nat) :
    ∃ k, n ≤ k ∧ ((r.state k).symbol u symbol).phase ≠ .asking := by
  by_contra hnever
  push Not at hnever
  apply hfair.request.not_forever (fun _ => 0) (n := n)
  · exact fun k hk => pc_of_asking (hnever k hk)
  · exact fun _ _ => le_rfl
  · rintro k a hk hact rfl
    have hop : opAt r symbol k = some (.requestSync (r.state k).nextTask) := by
      simp [opAt, hact, symbolOp, pc_of_asking (hnever k hk)]
    have hmoves := moves_at (r := r) hsymbol k
    rw [hop] at hmoves
    have hasking := hnever (k + 1) (by omega)
    rw [hmoves.2] at hasking
    exact absurd hasking (by simp [SymbolState.next])

theorem exists_not_marked (hfair : FairFor u symbol r) (n : Nat) :
    ∃ k, n ≤ k ∧ ((r.state k).symbol u symbol).marked = false := by
  by_contra hnever
  push Not at hnever
  have hstale : ∀ k, n ≤ k → (r.state k).stale ≠ [] := by
    intro k hk hempty
    exact hnever k hk (by simp [System.symbol, hempty])
  apply hfair.spawn.not_forever (fun k => (r.state k).stale.length) (n := n) hstale
  · intro k hk
    cases hact : r.act k with
    | none => rw [r.stays k hact]
    | some a =>
        obtain ⟨henabled, hnext⟩ := r.step k a hact
        rw [hnext]
        exact (stale_next henabled.1 (hstale k hk)).1
  · intro k a hk hact ha
    obtain ⟨henabled, hnext⟩ := r.step k a hact
    rw [hnext]
    exact (stale_next henabled.1 (hstale k hk)).2 ha

theorem Kept.settled (h : Kept r symbol n) (hsymbol : symbol ∈ u.symbols)
    (hfair : FairFor u symbol r) :
    ∃ k, n ≤ k ∧ ∀ j, k ≤ j → ((r.state j).symbol u symbol).Settled := by
  obtain ⟨k, hk, hphase⟩ := exists_not_asking hsymbol hfair n
  obtain ⟨k', hk', hmarked⟩ := exists_not_marked hfair n
  refine ⟨max k k', by omega, fun j hj => ⟨?_, ?_⟩⟩
  · exact h.preserves hsymbol (fun _ _ _ hwaiting hJ => SymbolState.phase_next hwaiting hJ) hk
      hphase (by omega)
  · exact h.preserves hsymbol (fun _ _ _ hwaiting hJ => SymbolState.marked_next hwaiting hJ) hk'
      hmarked (by omega)

theorem Kept.closer (h : Kept r symbol n) (hsymbol : symbol ∈ u.symbols) {k : Nat} (hk : n ≤ k)
    (hsettled : ((r.state k).symbol u symbol).Settled)
    (hfetched : ∀ a, r.act k = some a → ¬ Fetched symbol (r.state k) a) {t : Nat} {pc : TaskPc}
    (ht : ((r.state k).symbol u symbol).tasks t = some pc) (hpc : pc.unfinished = true) :
    ∃ pc', ((r.state (k + 1)).symbol u symbol).tasks t = some pc' ∧ pc'.unfinished = true ∧
      pc'.distance ≤ pc.distance ∧
        (∀ a, r.act k = some a → a.syncTask = some t → pc'.distance < pc.distance) := by
  have hmoves := moves_at (r := r) hsymbol k
  have hsyncs : (r.state k).Syncs t symbol := by
    obtain ⟨task, htask, heq⟩ := Option.bind_eq_some_iff.mp ht
    split_ifs at heq with hsame
    simp [System.Syncs, htask, hsame]
  cases hop : opAt r symbol k with
  | none =>
      rw [hop] at hmoves
      refine ⟨pc, by rw [hmoves, ht], hpc, le_rfl, fun a hact ha => ?_⟩
      obtain ⟨op, hop', -⟩ := op_of_syncTask (u := u) hsyncs ha
      simp [opAt, hact, hop'] at hop
  | some op =>
      have hwaiting := h.waiting hsymbol hk hop
      rw [hop] at hmoves
      obtain ⟨a, hact, hop'⟩ := Option.bind_eq_some_iff.mp hop
      have hquiet : ¬ op.fetches := fun hfetches => hfetched a hact (fetched_of_op hop' hfetches)
      obtain ⟨pc', ht', hpc', hdistance⟩ := hsettled.distance hmoves.1 hwaiting (h k hk)
        (parses_at hop) ht hpc
      obtain ⟨hle, hlt⟩ := hdistance hquiet
      refine ⟨pc', by rw [hmoves.2, ht'], hpc', hle, fun a' hact' ha' => hlt ?_⟩
      obtain ⟨op', hop'', htask⟩ := op_of_syncTask (u := u) hsyncs ha'
      obtain rfl : a = a' := Option.some.inj (hact.symm.trans hact')
      obtain rfl : op = op' := Option.some.inj (hop'.symm.trans hop'')
      exact htask

theorem Kept.fetched (h : Kept r symbol n) (hsymbol : symbol ∈ u.symbols)
    (hfair : FairFor u symbol r)
    (hsettled : ∀ j, n ≤ j → ((r.state j).symbol u symbol).Settled) :
    ∃ k, n ≤ k ∧ ∃ a, r.act k = some a ∧ Fetched symbol (r.state k) a := by
  by_contra hnever
  push Not at hnever
  have hserved := noOrphan_reachable (r.reachable n) hsymbol (h n le_rfl)
  rcases hserved with hasking | hmarked | ⟨t, pc, ht, hpc⟩
  · exact (hsettled n le_rfl).phase hasking
  · exact absurd ((hsettled n le_rfl).marked.symm.trans hmarked) (by decide)
  have hworks : ∀ k, n ≤ k → ∃ pc, ((r.state k).symbol u symbol).tasks t = some pc ∧
      pc.unfinished = true := by
    intro k hk
    induction k, hk using Nat.le_induction with
    | base => exact ⟨pc, ht, hpc⟩
    | succ k hk ih =>
        obtain ⟨pc, ht, hpc⟩ := ih
        obtain ⟨pc', ht', hpc', -⟩ := h.closer hsymbol hk (hsettled k hk) (hnever k hk) ht hpc
        exact ⟨pc', ht', hpc'⟩
  apply (hfair.sync t).not_forever
    (fun k => ((((r.state k).symbol u symbol).tasks t).map TaskPc.distance).getD 0) (n := n)
  · intro k hk
    obtain ⟨pc, ht, hpc⟩ := hworks k hk
    obtain ⟨task, htask, heq⟩ := Option.bind_eq_some_iff.mp ht
    split_ifs at heq with hsame
    obtain rfl := Option.some.inj heq
    exact ⟨task, htask, hpc⟩
  · intro k hk
    obtain ⟨pc, ht, hpc⟩ := hworks k hk
    obtain ⟨pc', ht', -, hle, -⟩ := h.closer hsymbol hk (hsettled k hk) (hnever k hk) ht hpc
    simpa [ht, ht'] using hle
  · intro k a hk hact ha
    obtain ⟨pc, ht, hpc⟩ := hworks k hk
    obtain ⟨pc', ht', -, -, hlt⟩ := h.closer hsymbol hk (hsettled k hk) (hnever k hk) ht hpc
    simpa [ht, ht'] using hlt a hact ha

theorem not_kept (hsymbol : symbol ∈ u.symbols) (hfair : FairFor u symbol r) :
    ¬ Kept r symbol n := by
  intro h
  obtain ⟨m, hm, hsettled⟩ := h.settled hsymbol hfair
  have hasked : ∀ k, ∃ j, k ≤ j ∧ ∃ a, r.act j = some a ∧ Fetched symbol (r.state j) a := by
    intro k
    have hlater : Kept r symbol (max k m) := fun j hj => h j (by omega)
    obtain ⟨j, hj, hfetched⟩ := hlater.fetched hsymbol hfair fun i hi => hsettled i (by omega)
    exact ⟨j, by omega, hfetched⟩
  obtain ⟨k, hk, a, hact, t, lastUpdateId, bids, asks, hsyncs, rfl, hanswer⟩ :=
    hfair.venue hasked n
  have hop : opAt r symbol k = some (.respond t lastUpdateId bids asks) := by
    simp [opAt, hact, symbolOp, hsyncs]
  have hrefused := (h.waiting hsymbol hk hop).respond t lastUpdateId bids asks rfl
  exact absurd (hanswer.symm.trans hrefused) (by decide)

end Kept

/-! ## The book comes live -/

theorem state_of_buffering {r : Run (u.machine.guarded Parses)} (hsymbol : symbol ∈ u.symbols)
    {k : Nat} (hbuffering : ((r.state k).books symbol).state = .buffering)
    (hreset : r.act k ≠ some (.resetBooks (u.owner symbol))) :
    ((r.state (k + 1)).books symbol).state ≠ .uninitialized := by
  apply (moves_at (r := r) hsymbol k).preserves
    (J := fun c => c.book.state ≠ .uninitialized) (by simp [System.symbol, hbuffering])
  intro op hop henabled
  have hbook : ((r.state k).symbol u symbol).book.state = .buffering := hbuffering
  cases op with
  | deliver now e =>
      simp only [SymbolState.next]
      rcases Book.state_onDepth (Book.stamped ((r.state k).symbol u symbol).book now) e with
        hnext | ⟨-, hnext⟩ <;> simp [hnext]
  | reset =>
      obtain ⟨a, hact, hop⟩ := Option.bind_eq_some_iff.mp hop
      cases a <;> simp only [symbolOp, Option.ite_none_right_eq_some, Option.some.injEq,
        reduceCtorEq, and_false] at hop
      next i => exact absurd (hop.1 ▸ hact) hreset
  | sweep now => simp [SymbolState.next, Book.markForResync, Book.stamped]
  | respond t lastUpdateId bids asks =>
      simp only [SymbolState.next]
      have hstep := Book.onSnapshot_step ((r.state k).symbol u symbol).book lastUpdateId bids asks
      generalize (Book.onSnapshot _ lastUpdateId bids asks).1 = answer,
        (Book.onSnapshot _ lastUpdateId bids asks).2 = b' at hstep ⊢
      cases hstep <;> simp_all [Book.loadSnapshot]
  | connect | ticker bid ask | requestSync t | abortHandles | spawnResync t | check t | send t
  | fail t | panicTask t | wake t => simp [SymbolState.next, hbook, Book.setTickerBbo,
      SymbolState.setTask]

/-- A book that buffers, or is about to get an event, comes live at a later moment, unless
its shard loses the connection before that and resets it. -/
theorem book_comes_live {r : Run (u.machine.guarded Parses)} (hsymbol : symbol ∈ u.symbols)
    (hfair : FairFor u symbol r) (n : Nat)
    (hwaits : ((r.state n).books symbol).state = .buffering ∨
      ∃ k, n ≤ k ∧ ∃ i now e, r.act k = some (.depth i symbol now e)) :
    ∃ k, n ≤ k ∧ (((r.state k).books symbol).state = .live ∨
      r.act k = some (.resetBooks (u.owner symbol))) := by
  by_contra hnever
  push Not at hnever
  have hkept : ∀ m, n ≤ m → ((r.state m).books symbol).state = .buffering → False := by
    intro m hm hbuffering
    apply not_kept (n := m) hsymbol hfair
    intro k hk
    induction k, hk using Nat.le_induction with
    | base => exact hbuffering
    | succ k hk ih =>
        have hinit := state_of_buffering hsymbol ih (hnever k (by omega)).2
        have hlive := (hnever (k + 1) (by omega)).1
        cases hstate : ((r.state (k + 1)).books symbol).state with
        | uninitialized => exact absurd hstate hinit
        | buffering => rfl
        | live => exact absurd hstate hlive
  rcases hwaits with hbuffering | ⟨k, hk, i, now, e, hact⟩
  · exact hkept n le_rfl hbuffering
  · have hmoves := moves_at (r := r) hsymbol k
    have hop : opAt r symbol k = some (.deliver now e) := by simp [opAt, hact, symbolOp]
    rw [hop] at hmoves
    have hbook : (r.state (k + 1)).books symbol =
        ((((r.state k).books symbol).stamped now).onDepth e).2 := congrArg SymbolState.book hmoves.2
    rcases Book.state_onDepth (((r.state k).books symbol).stamped now) e with
      hbuffering | ⟨-, hlive⟩
    · exact hkept (k + 1) (by omega) (hbook ▸ hbuffering)
    · exact (hnever (k + 1) (by omega)).1 (hbook ▸ hlive)

/-! ## A run in which the venue is asked for ever -/

/-- The shard reads, its book is live, and every sync has ended. -/
structure Rested (s : System) : Prop where
  reading : (s.shards 0).pc = .reading
  live : (s.books "BTCUSDT").state = .live
  named : (s.books "BTCUSDT").symbol = "BTCUSDT"
  stale : s.stale = []
  lock : s.lock = none
  ended : ∀ t k, s.tasks t = some k → k.pc.unfinished = false

def silent (s : System) : Rat := (s.books "BTCUSDT").lastUpdateTime + 31

/-- The stream falls silent, and the sweeper has the book synced again. -/
def resync (s : System) : List Act :=
  [.sweep (silent s) ["BTCUSDT"], .spawnResync, .check s.nextTask, .send s.nextTask,
    .respond s.nextTask 0 [] []]

def marked (s : System) : Book := (s.books "BTCUSDT").markForResync.stamped (silent s)

def swept (s : System) : System :=
  { s with stale := ["BTCUSDT"], books := Function.update s.books "BTCUSDT" (marked s) }

def resyncing (s : System) (b : Book) (pc : TaskPc) : System :=
  { s with
    stale := []
    books := Function.update s.books "BTCUSDT" b
    tasks := Function.update s.tasks s.nextTask (some ⟨"BTCUSDT", none, pc⟩)
    nextTask := s.nextTask + 1 }

@[simp] theorem books_resyncing (s : System) (b : Book) (pc : TaskPc) :
    (resyncing s b pc).books "BTCUSDT" = b := by
  simp [resyncing]

@[simp] theorem tasks_resyncing (s : System) (b : Book) (pc : TaskPc) :
    (resyncing s b pc).tasks s.nextTask = some ⟨"BTCUSDT", none, pc⟩ := by
  simp [resyncing]

def resynced (s : System) : Book := ((marked s).onSnapshot 0 [] []).2

theorem onSnapshot_marked (s : System) : (marked s).onSnapshot 0 [] [] = (true, resynced s) := rfl

theorem sweep_eq {s : System} (h : Rested s) :
    System.next btc s (.sweep (silent s) ["BTCUSDT"]) = swept s := by
  have hstale : Stale (s.books "BTCUSDT") (silent s) staleThreshold := by
    refine ⟨h.live, ?_⟩
    rw [silent, add_sub_cancel_left]
    decide
  simp only [System.next, takeStaleBooks, List.foldl, takeStale, if_pos hstale, h.named,
    List.nil_append]
  rfl

theorem spawnResync_eq (s : System) :
    System.next btc (swept s) .spawnResync = resyncing s (marked s) .checking := rfl

theorem check_eq (s : System) : System.next btc (resyncing s (marked s) .checking)
    (.check s.nextTask) = resyncing s (marked s) .requesting := by
  simp [System.next, resyncing, System.setTaskPc, marked, Book.stamped, Book.markForResync]

theorem send_eq (s : System) : System.next btc (resyncing s (marked s) .requesting)
    (.send s.nextTask) = resyncing s (marked s) .inFlight := by
  simp [System.next, resyncing, System.setTaskPc]

theorem respond_eq (s : System) : System.next btc (resyncing s (marked s) .inFlight)
    (.respond s.nextTask 0 [] []) = resyncing s (resynced s) .finished := by
  simp [System.next, System.respond, resyncing, System.setTaskPc, System.setBook,
    onSnapshot_marked]

theorem exec_take_resync {s : System} (h : Rested s) :
    (btc.machine.guarded Parses).exec s ((resync s).take 4) =
      resyncing s (marked s) .inFlight := by
  simp only [Machine.exec, resync, List.take, List.foldl_cons, List.foldl_nil, Machine.guarded,
    Universe.machine]
  rw [sweep_eq h, spawnResync_eq, check_eq, send_eq]

theorem exec_resync {s : System} (h : Rested s) :
    (btc.machine.guarded Parses).exec s (resync s) = resyncing s (resynced s) .finished := by
  rw [← List.take_append_drop 4 (resync s), Machine.exec_append, exec_take_resync h]
  exact respond_eq s

theorem admits_resync {s : System} (h : Rested s) :
    (btc.machine.guarded Parses).Admits s (resync s) := by
  simp only [Machine.Admits, resync, Machine.guarded, Universe.machine]
  rw [sweep_eq h, spawnResync_eq, check_eq, send_eq]
  simp [System.enabled, System.TaskAt, Parses, resyncing, swept, h.stale, h.lock, btc]

theorem Rested.resync {s : System} (h : Rested s) :
    Rested (resyncing s (resynced s) .finished) where
  reading := h.reading
  live := by
    rw [books_resyncing]
    rfl
  named := by
    rw [books_resyncing]
    exact h.named
  stale := rfl
  lock := h.lock
  ended t k hk := by
    by_cases ht : t = s.nextTask
    · subst ht
      rw [tasks_resyncing] at hk
      rw [← Option.some.inj hk]
      rfl
    · exact h.ended t k ((Function.update_of_ne ht _ _).symm.trans hk)

theorem cycle_resync : Run.Cycle (btc.machine.guarded Parses) Rested Handler.resync where
  admits _ := admits_resync
  returns s h := by
    rw [exec_resync h]
    exact h.resync

def firstSync : List Act :=
  [.connect 0, .depth 0 "BTCUSDT" 1 ⟨1, 10, 0, [], []⟩, .requestSync 0, .check 0, .send 0,
    .respond 0 20 [] []]

theorem admits_firstSync : (btc.machine.guarded Parses).Admits System.start firstSync :=
  ⟨⟨rfl, by simp [Parses]⟩, ⟨by decide, by simp [Parses]⟩, ⟨by decide, by simp [Parses]⟩,
    ⟨by decide, by simp [Parses]⟩, ⟨by decide, by simp [Parses]⟩, ⟨by decide, by simp [Parses]⟩,
    trivial⟩

theorem rested_firstSync :
    Rested ((btc.machine.guarded Parses).exec System.start firstSync) where
  reading := by decide
  live := by decide
  named := by decide
  stale := by decide
  lock := by decide
  ended t k hk := by
    by_cases ht : t = 0
    · subst ht
      have htask : ((btc.machine.guarded Parses).exec System.start firstSync).tasks 0 =
          some ⟨"BTCUSDT", some 0, .finished⟩ := by decide
      obtain rfl := Option.some.inj (hk.symm.trans htask)
      rfl
    · have hfresh := (tidy_reachable ((Machine.Reachable.start rfl).exec firstSync
        admits_firstSync).of_guarded).fresh t (Nat.one_le_iff_ne_zero.mpr ht)
      exact absurd (hk.symm.trans hfresh) (by simp)

/-- After the first sync the stream falls silent again and again. -/
def silences : Run (btc.machine.guarded Parses) :=
  .ofCycle cycle_resync firstSync rfl admits_firstSync rested_firstSync

theorem asked_again (n : Nat) :
    ∃ k, n ≤ k ∧ ∃ a, silences.act k = some a ∧ Accepted "BTCUSDT" (silences.state k) a := by
  apply Run.again_ofCycle
  intro s h
  refine ⟨4, .respond s.nextTask 0 [] [], rfl, ?_⟩
  rw [exec_take_resync h]
  refine ⟨s.nextTask, 0, [], [], ?_, rfl, ?_⟩
  · rw [System.Syncs, tasks_resyncing]
    rfl
  · rw [books_resyncing]
    rfl

theorem fairFor_silences : FairFor btc "BTCUSDT" silences where
  request := Run.fair_ofCycle _ _ _ _ _ fun s h hready => by
    have := h.reading.symm.trans hready
    cases this
  spawn := Run.fair_ofCycle _ _ _ _ _ fun s h hready => hready h.stale
  sync t := Run.fair_ofCycle _ _ _ _ _ fun s h hready => by
    obtain ⟨k, hk, hpc⟩ := hready
    rw [h.ended t k hk] at hpc
    cases hpc
  venue _ := asked_again

theorem book_comes_live_silences :
    (∀ n, ∃ k, n ≤ k ∧ ∃ a, silences.act k = some a ∧
      Accepted "BTCUSDT" (silences.state k) a) ∧
    ∃ k, 2 ≤ k ∧ (((silences.state k).books "BTCUSDT").state = .live ∨
      silences.act k = some (.resetBooks 0)) :=
  ⟨asked_again, book_comes_live (by decide) fairFor_silences 2 (Or.inl (by decide))⟩

end FeedHandler.Handler
