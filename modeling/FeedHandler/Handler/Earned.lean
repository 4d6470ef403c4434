import FeedHandler.Handler.Refinement
/-!
# What a published event shows

`run_shard` decides to publish under one lock of the books and reads what it
publishes under another. In between, the book can only change by the sweeper: no
other shard touches it, and a snapshot leaves a live book alone. The ledger records
what each decision to publish earned; a run in which no sweep takes a book that its
shard is about to publish puts exactly that on the queue.
-/

namespace FeedHandler.Handler

open Lib

variable {u : Universe} {s : System} {a : Act}

def bookEvent (symbol : String) (b : Book) : BookEvent where
  symbol := symbol
  bids := (b.topLevels 20).1
  asks := (b.topLevels 20).2
  lastUpdateId := b.lastUpdateId

/-- What the last `Publish` of each shard earned, and what those emitted since the
start had earned, oldest first. -/
structure Ledger where
  earned : Nat → Option BookEvent
  emitted : List BookEvent

def Ledger.start : Ledger := ⟨fun _ => none, []⟩

/-- An event with final id `e.u` that is published earns the levels the book has
right after it, under that id. -/
def Ledger.track (s : System) (a : Act) (g : Ledger) : Ledger :=
  match a with
  | .depth i symbol now e =>
      { g with
        earned := Function.update g.earned i
          (if (((s.books symbol).stamped now).onDepth e).1 = .publish then
            some { bookEvent symbol (((s.books symbol).stamped now).onDepth e).2 with
              lastUpdateId := e.u }
          else none) }
  | .emit i => { g with emitted := g.emitted ++ (g.earned i).toList }
  | _ => g

def Universe.ledger (u : Universe) : Machine (System × Ledger) Act :=
  u.machine.withGhost Ledger.start Ledger.track

instance (u : Universe) (sg : System × Ledger) (a : Act) : Decidable (u.ledger.enabled sg a) :=
  inferInstanceAs (Decidable (System.enabled u sg.1 a))

/-- No sweep finds a book stale that its shard is about to publish. -/
def SparesPublishing (s : System) (a : Act) : Prop :=
  ∀ now order, a = .sweep now order → ∀ i symbol, (s.shards i).pc = .publishing symbol →
    ¬ Stale (s.books symbol) now staleThreshold

/-! ## The shard that publishes -/

theorem publishing_next {i : Nat} {symbol : String} (ha : System.enabled u s a)
    (h : ((System.next u s a).shards i).pc = .publishing symbol) :
    (∃ now e, a = .depth i symbol now e ∧
      (((s.books symbol).stamped now).onDepth e).1 = .publish) ∨
    ((s.shards i).pc = .publishing symbol ∧ a ≠ .emit i) := by
  have hstep := shards_next ha i
  generalize (System.next u s a).shards i = k at hstep h
  cases hstep with
  | kept a hother =>
      refine Or.inr ⟨h, ?_⟩
      rintro rfl
      exact hother rfl
  | depth other now e hpc =>
      cases haction : (((s.books other).stamped now).onDepth e).1 with
      | publish =>
          rw [haction] at h
          obtain rfl : other = symbol := ShardPc.publishing.inj h
          exact Or.inl ⟨now, e, rfl, haction⟩
      | needSnapshot =>
          rw [haction] at h
          cases h
      | none_ =>
          rw [haction] at h
          cases h
  | _ => cases h

/-! ## The invariant -/

theorem lastUpdateId_of_publish {b : Book} {e : DepthEvent} (h : (b.onDepth e).1 = .publish) :
    (b.onDepth e).2.lastUpdateId = e.u := by
  have hstep := Book.onDepth_step b e
  rw [h] at hstep
  generalize (b.onDepth e).2 = b' at hstep
  cases hstep with
  | published => rfl

/-- A shard that is about to publish finds the book its event left, and it is live. -/
structure Earning (u : Universe) (s : System) (g : Ledger) : Prop where
  held : ∀ i symbol, (s.shards i).pc = .publishing symbol →
    symbol ∈ u.shard i ∧ (s.books symbol).state = .live ∧
      g.earned i = some (bookEvent symbol (s.books symbol))
  emitted : s.bookEvents = g.emitted

theorem books_of_publishing {i : Nat} {symbol : String} (ha : System.enabled u s a)
    (hspares : SparesPublishing s a) (hpc : (s.shards i).pc = .publishing symbol)
    (hmem : symbol ∈ u.shard i) (hlive : (s.books symbol).state = .live) :
    (System.next u s a).books symbol = s.books symbol := by
  have hreading : ∀ j, symbol ∈ u.shard j → (s.shards j).pc = .publishing symbol := by
    intro j hj
    rwa [← (Universe.mem_shard.mp hj).2, (Universe.mem_shard.mp hmem).2]
  have hstep := books_next ha symbol
  generalize (System.next u s a).books symbol = b' at hstep
  cases hstep with
  | kept => rfl
  | depth j now e hj hmem' => simp [hreading j hmem'] at hj
  | ticker j bid ask hj hmem' => simp [hreading j hmem'] at hj
  | reset j hj hmem' => simp [hreading j hmem'] at hj
  | sweep now order hmem' hstale => exact absurd hstale (hspares now order rfl i symbol hpc)
  | respond t lastUpdateId bids asks =>
      rw [Book.onSnapshot_of_not_buffering (by simp [hlive])]

theorem Earning.start : Earning u System.start Ledger.start where
  held i symbol h := by simp [System.start] at h
  emitted := rfl

theorem Ledger.earned_track (g : Ledger) {i : Nat}
    (hdepth : ∀ symbol now e, a ≠ .depth i symbol now e) :
    (g.track s a).earned i = g.earned i := by
  cases a with
  | depth j other now e =>
      have hne : i ≠ j := by
        rintro rfl
        exact hdepth other now e rfl
      exact Function.update_of_ne hne _ _
  | _ => rfl

theorem Earning.emitted_next {g : Ledger} (h : Earning u s g) (ha : System.enabled u s a) :
    (System.next u s a).bookEvents = (g.track s a).emitted := by
  have hemitted := h.emitted
  cases a with
  | emit i =>
      obtain ⟨symbol, hsymbol⟩ := Option.isSome_iff_exists.mp ha.1
      have hearned := (h.held i symbol (ShardPc.emitting_eq_some.mp hsymbol)).2.2
      simp only [System.next, hsymbol, Ledger.track, hearned, Option.toList_some, ← hemitted]
      rfl
  | respond t lastUpdateId bids asks =>
      obtain ⟨k, hk, -⟩ := exists_task ha.1
      simp only [System.next, hk, System.respond]
      split_ifs <;> exact hemitted
  | requestSync i | spawnResync =>
      simp only [System.next]
      split <;> exact hemitted
  | check t | send t | fail t | panicTask t | wake t =>
      simp only [System.next]
      split <;> exact hemitted
  | _ => exact hemitted

theorem Earning.next {g : Ledger} (h : Earning u s g) (ha : System.enabled u s a)
    (hspares : SparesPublishing s a) : Earning u (System.next u s a) (g.track s a) := by
  refine ⟨fun i symbol hpc => ?_, h.emitted_next ha⟩
  rcases publishing_next ha hpc with ⟨now, e, rfl, hpublish⟩ | ⟨hbefore, hemit⟩
  · have hbook : (System.next u s (.depth i symbol now e)).books symbol =
        (((s.books symbol).stamped now).onDepth e).2 := Function.update_self _ _ _
    refine ⟨ha.2.1, ?_, ?_⟩
    · rw [hbook]
      exact Book.live_of_publish hpublish
    · rw [hbook]
      simp only [Ledger.track, Function.update_self, if_pos hpublish,
        ← lastUpdateId_of_publish hpublish]
      rfl
  · obtain ⟨hmem, hlive, hearned⟩ := h.held i symbol hbefore
    rw [books_of_publishing ha hspares hbefore hmem hlive, Ledger.earned_track, hearned]
    · exact ⟨hmem, hlive, rfl⟩
    · rintro other now e rfl
      exact absurd (ha.1.symm.trans hbefore) (by simp)

/-- In every run in which no sweep takes a book from under its shard, every event
on the queue is the one that was earned. -/
theorem published_event_earned {sg : System × Ledger}
    (hs : (u.ledger.guarded fun sg => SparesPublishing sg.1).Reachable sg) :
    sg.1.bookEvents = sg.2.emitted := by
  have hearning : Earning u sg.1 sg.2 := by
    refine hs.invariant (I := fun sg => Earning u sg.1 sg.2) ?_ ?_
    · rintro ⟨s, g⟩ ⟨rfl, rfl⟩
      exact Earning.start
    · rintro ⟨s, g⟩ a h ⟨ha, hspares⟩
      exact h.next ha hspares
  exact hearning.emitted

/-- A sweep that does take such a book leaves nothing of it to publish. -/
theorem hollow_of_sweep {now : Rat} {order : List String} {symbol : String}
    (ha : System.enabled u s (.sweep now order)) (hmem : symbol ∈ u.symbols)
    (hstale : Stale (s.books symbol) now staleThreshold) :
    bookEvent symbol ((System.next u s (.sweep now order)).books symbol) =
      ⟨symbol, [], [], 0⟩ := by
  have hbook := (takeStaleBooks_eq s.books (ha.2.2.nodup_iff.mpr u.nodup) now
    staleThreshold).2 symbol
  rw [if_pos ⟨ha.2.2.mem_iff.mpr hmem, hstale⟩] at hbook
  show bookEvent symbol ((takeStaleBooks s.books order now staleThreshold).2 symbol) = _
  rw [hbook]
  rfl

def earnedRun : List Act :=
  [.connect 0, .depth 0 "BTCUSDT" 0 ⟨1, 10, 0, [(.whole 3, .one)], []⟩, .requestSync 0,
    .check 0, .send 0, .respond 0 10 [(.whole 3, .one)] [],
    .depth 0 "BTCUSDT" 1 ⟨11, 20, 10, [(.whole 4, .one)], []⟩]

theorem published_event_earned_first :
    (btc.ledger.exec (System.start, Ledger.start) (earnedRun ++ [.emit 0])).1.bookEvents =
      (btc.ledger.exec (System.start, Ledger.start) (earnedRun ++ [.emit 0])).2.emitted := by
  have hadmits : btc.ledger.Admits (System.start, Ledger.start) (earnedRun ++ [.emit 0]) := by
    decide +kernel
  refine published_event_earned ((Machine.Reachable.start
    (m := btc.ledger.guarded fun sg => SparesPublishing sg.1)
    (s := (System.start, Ledger.start)) ⟨rfl, rfl⟩).exec (earnedRun ++ [.emit 0])
      (Machine.admits_guarded.mpr ⟨hadmits, ?_⟩))
  simp [earnedRun, Machine.Admits, SparesPublishing]

/-- The sweep takes the book after the event was published: the shard then emits an
empty book under id 0. -/
theorem sweep_empties_event :
    ¬ ∀ (u : Universe) (sg : System × Ledger), u.ledger.Reachable sg →
      sg.1.bookEvents = sg.2.emitted := by
  intro hall
  have hreachable := (Machine.Reachable.start (m := btc.ledger)
    (s := (System.start, Ledger.start)) ⟨rfl, rfl⟩).exec
      (earnedRun ++ [.sweep 100 ["BTCUSDT"], .emit 0]) (by decide +kernel)
  exact absurd (hall btc _ hreachable) (by decide +kernel)

end FeedHandler.Handler
