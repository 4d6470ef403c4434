import FeedHandler.Handler.Refinement
/-!
# No orphaned book

A buffering book never asks again and the sweeper looks at live books only, so
somebody has to be at work on it: a sync that has not ended, or a task between
marking the book and spawning one. The one thing that could break this is a
response that cannot be parsed, which kills its sync task.
-/

namespace FeedHandler.Handler

open Lib

namespace SymbolState

variable {c : SymbolState}

def Served (c : SymbolState) : Prop :=
  c.phase = .asking ∨ c.marked = true ∨ ∃ t pc, c.tasks t = some pc ∧ pc.unfinished = true

def NoOrphan (c : SymbolState) : Prop := c.book.state = .buffering → c.Served

theorem Served.setTask (h : c.Served) {t : Nat} {pc : TaskPc} (hpc : pc.unfinished = true) :
    (c.setTask t pc).Served := by
  rcases h with hphase | hmarked | -
  · exact Or.inl hphase
  · exact Or.inr (Or.inl hmarked)
  · exact Or.inr (Or.inr ⟨t, pc, by simp, hpc⟩)

theorem NoOrphan.next (h : c.NoOrphan) (hregular : c.Regular) {op : SymbolOp}
    (hop : c.enabled op) (hparses : ∀ t, op ≠ .panicTask t) : (c.next op).NoOrphan := by
  intro hbuffering
  cases op with
  | connect =>
      -- the books of a shard without a connection are reset
      exact absurd (hbuffering.symm.trans (hregular.cleared hop)) (by decide)
  | deliver now e =>
      by_cases hask : ((c.book.stamped now).onDepth e).1 = .needSnapshot
      · exact Or.inl (by simp [SymbolState.next, hask])
      · have hbefore : c.book.state = .buffering := by
          by_contra hnot
          exact hask ((Book.onDepth_eq_needSnapshot_iff _ e).mpr ⟨hnot, hbuffering⟩)
        rcases h hbefore with hphase | hrest
        · exact absurd (hop.symm.trans hphase) (by decide)
        · exact Or.inr hrest
  | ticker bid ask => exact h hbuffering
  | requestSync t => exact Or.inr (Or.inr ⟨t, .checking, by simp [SymbolState.next], rfl⟩)
  | reset => simp [SymbolState.next, Book.reset] at hbuffering
  | abortHandles => exact absurd (hbuffering.symm.trans (hregular.cleared hop)) (by decide)
  | sweep now => exact Or.inr (Or.inl rfl)
  | spawnResync t => exact Or.inr (Or.inr ⟨t, .checking, by simp [SymbolState.next], rfl⟩)
  | check t =>
      have hbefore : c.book.state = .buffering := hbuffering
      exact (h hbefore).setTask (by rw [if_pos hbefore]; rfl)
  | send t => exact (h hbuffering).setTask rfl
  | fail t => exact (h hbuffering).setTask rfl
  | respond t lastUpdateId bids asks =>
      have hanswer : (c.book.onSnapshot lastUpdateId bids asks).1 = false := by
        by_contra hlive
        exact (Book.onSnapshot_eq_true_iff _ lastUpdateId bids asks).mp
          (Bool.not_eq_false _ ▸ hlive) hbuffering
      exact Or.inr (Or.inr ⟨t, .asleepLocked, by simp [SymbolState.next, hanswer], rfl⟩)
  | panicTask t => exact absurd rfl (hparses t)
  | wake t => exact (h hbuffering).setTask rfl

end SymbolState

variable {u : Universe} {s : System}

/-- Every price and quantity of a response parses. -/
def Parses (_ : System) (a : Act) : Prop := ∀ t, a ≠ .panicTask t

theorem symbolOp_ne_panicTask {symbol : String} {a : Act} (ha : Parses s a) {op : SymbolOp}
    (hop : symbolOp u s symbol a = some op) (t : Nat) : op ≠ .panicTask t := by
  rintro rfl
  cases a <;> simp only [symbolOp, Option.ite_none_right_eq_some, Option.some.injEq,
    reduceCtorEq, and_false] at hop
  next t' => exact ha t' rfl

theorem noOrphan_reachable (hs : (u.machine.guarded Parses).Reachable s) {symbol : String}
    (hsymbol : symbol ∈ u.symbols) : (s.symbol u symbol).NoOrphan := by
  refine hs.invariant_of_reachable (I := fun s => (s.symbol u symbol).NoOrphan) ?_ ?_
  · rintro _ rfl hbuffering
    simp [System.symbol, System.start, Book.new] at hbuffering
  · intro s a hreach h ha
    have hmoves := symbol_next (tidy_reachable hreach.of_guarded) ha.1 hsymbol
    exact hmoves.preserves h fun op hop henabled =>
      h.next (regular_reachable hreach.of_guarded hsymbol) henabled
        fun t => symbolOp_ne_panicTask ha.2 hop t

/-- In every interleaving, a book that buffers has a sync that has not ended, or a
shard or the sweeper about to spawn one. -/
theorem no_orphaned_book (hs : (u.machine.guarded Parses).Reachable s) {symbol : String}
    (hsymbol : symbol ∈ u.symbols) (hbuffering : (s.books symbol).state = .buffering) :
    (∃ t k, s.tasks t = some k ∧ k.symbol = symbol ∧ k.pc.unfinished = true) ∨
      (∃ i, (s.shards i).pc = .needSnapshot symbol) ∨ symbol ∈ s.stale := by
  rcases noOrphan_reachable hs hsymbol hbuffering with hasking | hmarked | ⟨t, pc, ht, hpc⟩
  · refine Or.inr (Or.inl ⟨u.owner symbol, ?_⟩)
    simp only [System.symbol] at hasking
    generalize (s.shards (u.owner symbol)).pc = pc at hasking
    cases pc <;> simp_all [ShardPc.phase]
  · exact Or.inr (Or.inr (by simpa [System.symbol] using hmarked))
  · obtain ⟨k, hk, hsyncs⟩ := Option.bind_eq_some_iff.mp ht
    split_ifs at hsyncs with hsame
    obtain rfl := Option.some.inj hsyncs
    exact Or.inl ⟨t, k, hk, hsame, hpc⟩

/-- Right after its first event the book buffers and its shard is about to ask. -/
theorem no_orphaned_book_first_event :
    (∃ t k, (btc.machine.exec System.start
      [.connect 0, .depth 0 "BTCUSDT" 1 ⟨1, 10, 0, [], []⟩]).tasks t = some k ∧
        k.symbol = "BTCUSDT" ∧ k.pc.unfinished = true) ∨
    (∃ i, ((btc.machine.exec System.start
      [.connect 0, .depth 0 "BTCUSDT" 1 ⟨1, 10, 0, [], []⟩]).shards i).pc =
        .needSnapshot "BTCUSDT") ∨
    "BTCUSDT" ∈ (btc.machine.exec System.start
      [.connect 0, .depth 0 "BTCUSDT" 1 ⟨1, 10, 0, [], []⟩]).stale := by
  have hreachable := (Machine.Reachable.start (m := btc.machine.guarded Parses)
    (s := System.start) rfl).exec [.connect 0, .depth 0 "BTCUSDT" 1 ⟨1, 10, 0, [], []⟩]
    ⟨⟨rfl, by simp [Parses]⟩, ⟨by decide, by simp [Parses]⟩, trivial⟩
  exact no_orphaned_book hreachable (by decide) (by decide)

end FeedHandler.Handler
