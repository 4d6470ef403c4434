import FeedHandler.Handler.EndToEnd
/-!
# Without late syncs

A snapshot that finds the resync buffer empty can only be too old when its request
went out before the book began to buffer. Where the first event after a reset finds
its symbol without a sync there is no such request. Then the venue's promises are
enough for what is published, so the only way to a hole leads through a sync that
the sweeper asked for before a disconnect.
-/

namespace FeedHandler.Handler

open Lib

namespace SymbolState

variable {c : SymbolState} {lastU lastU' : Option Nat} {delivered delivered' : Nat}
  {floor floor' : Nat → Nat} {entries : Nat} {sentIn : Nat → Nat}

/-- While the buffer of a buffering book is empty, every request that is out covers
what the connection has delivered. `floor` is what had been delivered when each
request went out. -/
structure Answered (c : SymbolState) (lastU : Option Nat) (delivered : Nat)
    (floor : Nat → Nat) : Prop where
  delivered : ∀ u ∈ lastU, u ≤ delivered
  covered : c.book.state = .buffering → c.book.buffer = [] →
    ∀ t, c.tasks t = some .inFlight → ∀ u ∈ lastU, u ≤ floor t

theorem tasks_of_setTask {t t' : Nat} {pc : TaskPc} (hpc : pc ≠ .inFlight)
    (h : (c.setTask t' pc).tasks t = some .inFlight) : c.tasks t = some .inFlight := by
  rw [setTask_tasks] at h
  split_ifs at h
  · exact absurd (Option.some.inj h) hpc
  · exact h

theorem OneSync.inFlight_of_next (h : c.OneSync entries sentIn) {op : SymbolOp}
    (hop : c.enabled op) (hdeliver : ∀ now e, op ≠ .deliver now e) {t : Nat}
    (hsend : op ≠ .send t) (hstate : (c.next op).book.state = .buffering)
    (hnil : (c.next op).book.buffer = []) (ht : (c.next op).tasks t = some .inFlight) :
    c.book.state = .buffering ∧ c.book.buffer = [] ∧ c.tasks t = some .inFlight := by
  cases op with
  | connect => exact ⟨hstate, hnil, ht⟩
  | deliver now e => exact absurd rfl (hdeliver now e)
  | ticker bid ask => exact ⟨hstate, hnil, ht⟩
  | requestSync t' =>
      refine ⟨hstate, hnil, ?_⟩
      have hne : t ≠ t' := by
        rintro rfl
        simp [SymbolState.next] at ht
      simp only [SymbolState.next, Function.update_of_ne hne] at ht
      exact (abort_eq_some ht rfl).2
  | reset => simp [SymbolState.next, Book.reset] at hstate
  | abortHandles => exact ⟨hstate, hnil, (abort_eq_some ht rfl).2⟩
  | sweep now => exact ((h.live hop.1).2.2.not_unfinished ht rfl).elim
  | spawnResync t' => exact ⟨hstate, hnil, tasks_of_setTask (by simp) ht⟩
  | check t' => exact ⟨hstate, hnil, tasks_of_setTask (by split_ifs <;> simp) ht⟩
  | send t' =>
      have hne : t ≠ t' := fun heq => hsend (heq ▸ rfl)
      exact ⟨hstate, hnil, by simpa [SymbolState.next, hne] using ht⟩
  | fail t' => exact ⟨hstate, hnil, tasks_of_setTask (by simp) ht⟩
  | respond t' lastUpdateId bids asks =>
      by_cases hbefore : c.book.state = .buffering
      · -- the snapshot was the only one on its way
        have honly := ((h.of_unfinished hop rfl).2.2 hbefore).2.setTask _ t _ ht rfl
        subst honly
        simp only [SymbolState.next, setTask_tasks, if_true] at ht
        split_ifs at ht <;> simp at ht
      · have hkeep := Book.onSnapshot_of_not_buffering hbefore lastUpdateId bids asks
        exact absurd (by simpa [SymbolState.next, hkeep] using hstate) hbefore
  | panicTask t' => exact ⟨hstate, hnil, tasks_of_setTask (by simp) ht⟩
  | wake t' => exact ⟨hstate, hnil, tasks_of_setTask (by simp) ht⟩

theorem Answered.congr (h : c.Answered lastU delivered floor)
    (hkeep : ∀ t, c.tasks t ≠ none → floor' t = floor t) : c.Answered lastU delivered floor' :=
  ⟨h.delivered, fun hstate hnil t ht u hu =>
    (h.covered hstate hnil t ht u hu).trans_eq (hkeep t (by simp [ht])).symm⟩

theorem Answered.next (h : c.Answered lastU delivered floor) (hone : c.OneSync entries sentIn)
    {op : SymbolOp} (hop : c.enabled op)
    (hdeliver : ∀ now e, op = .deliver now e → ∀ u ∈ lastU', u ≤ delivered')
    (hother : (∀ now e, op ≠ .deliver now e) →
      (∀ u ∈ lastU', u ∈ lastU) ∧ delivered' = delivered)
    (hsend : ∀ t, op = .send t → floor' t = delivered)
    (hkeep : ∀ t, op ≠ .send t → c.tasks t ≠ none → floor' t = floor t) :
    (c.next op).Answered lastU' delivered' floor' := by
  by_cases hevent : ∃ now e, op = .deliver now e
  · obtain ⟨now, e, rfl⟩ := hevent
    refine ⟨hdeliver now e rfl, fun hstate hnil => ?_⟩
    exact absurd hnil (Book.buffer_onDepth_ne_nil hstate)
  · have hnot : ∀ now e, op ≠ .deliver now e := fun now e heq => hevent ⟨now, e, heq⟩
    obtain ⟨hlast, rfl⟩ := hother hnot
    refine ⟨fun u hu => h.delivered u (hlast u hu), fun hstate hnil t ht u hu => ?_⟩
    by_cases hsent : op = .send t
    · rw [hsend t hsent]
      exact h.delivered u (hlast u hu)
    · obtain ⟨hstate', hnil', ht'⟩ := hone.inFlight_of_next hop hnot hsent hstate hnil ht
      rw [hkeep t hsent (by simp [ht'])]
      exact h.covered hstate' hnil' t ht' u (hlast u hu)

end SymbolState

variable {u : Universe} {s : System} {h : String → VenueHistory}

theorem Feed.delivered_track (g : Feed) (a : Act) (symbol : String)
    (hdeliver : ∀ now e, symbolOp u s symbol a ≠ some (.deliver now e)) :
    (g.track u s a).delivered symbol = g.delivered symbol := by
  cases a with
  | depth i other now e =>
      have hne : symbol ≠ other := fun heq => hdeliver now e (if_pos heq.symm)
      exact Function.update_of_ne hne _ _
  | _ => rfl

theorem Feed.floor_track_of_ne {a : Act} {t : Nat} (hne : a ≠ .send t) (g : Feed) :
    (g.track u s a).floor t = g.floor t := by
  cases a with
  | send t' =>
      have hne' : t ≠ t' := fun heq => hne (heq ▸ rfl)
      exact Function.update_of_ne hne' _ _
  | _ => rfl

theorem Feed.floor_track_send {symbol : String} {t : Nat} (hsyncs : s.Syncs t symbol)
    (g : Feed) : (g.track u s (.send t)).floor t = g.delivered symbol := by
  obtain ⟨k, hk, rfl⟩ := Option.map_eq_some_iff.mp hsyncs
  simp [Feed.track, hk]

def Universe.soleSync (u : Universe) (h : String → VenueHistory) : Machine (System × Feed) Act :=
  (u.venueFed h).guarded fun sg => FirstEventAlone sg.1

theorem oneSync_of_soleSync {sg : System × Feed} (hs : (u.soleSync h).Reachable sg)
    {symbol : String} (hsymbol : symbol ∈ u.symbols) :
    ∃ entries sentIn, (sg.1.symbol u symbol).OneSync entries sentIn := by
  have hforget : (u.machine.guarded FirstEventAlone).Reachable sg.1 :=
    hs.map Prod.fst (fun _ h => h.1) fun _ _ _ ha => ⟨⟨ha.1.1, ha.2⟩, rfl⟩
  obtain ⟨g, hg⟩ := hforget.exists_withGhost Episodes.start (Episodes.track u)
  have hepisodes : (u.episodes.guarded fun sg => FirstEventAlone sg.1).Reachable (sg.1, g) := hg
  exact ⟨_, _, oneSync_reachable hepisodes hsymbol⟩

theorem answered_reachable {sg : System × Feed} (hs : (u.soleSync h).Reachable sg)
    {symbol : String} (hsymbol : symbol ∈ u.symbols) :
    (sg.1.symbol u symbol).Answered (sg.2.lastU symbol) (sg.2.delivered symbol) sg.2.floor := by
  refine hs.invariant_of_reachable
    (I := fun sg => (sg.1.symbol u symbol).Answered (sg.2.lastU symbol)
      (sg.2.delivered symbol) sg.2.floor) ?_ ?_
  · rintro ⟨s, g⟩ ⟨rfl, rfl⟩
    have hstate : (System.start.symbol u symbol).book.state ≠ .buffering := by
      simp [System.symbol, System.start, Book.new]
    exact ⟨by simp [Feed.start], fun hbuffering => absurd hbuffering hstate⟩
  · rintro ⟨s, g⟩ a hreach hanswered ⟨⟨ha, -⟩, -⟩
    obtain ⟨entries, sentIn, hone⟩ := oneSync_of_soleSync hreach hsymbol
    have hs := hreach.of_guarded.of_guarded.of_withGhost
    have hmoves := symbol_next (tidy_reachable hs) ha hsymbol
    have hlast := g.lastU_track (u := u) (s := s) a symbol
    have hdelivered := g.delivered_track (u := u) (s := s) a symbol
    have hkeep : ∀ t, symbolOp u s symbol a ≠ some (.send t) →
        (s.symbol u symbol).tasks t ≠ none → (g.track u s a).floor t = g.floor t :=
      fun t hop ht => Feed.floor_track_of_ne (ne_send_of_symbolOp ht hop) g
    show ((System.next u s a).symbol u symbol).Answered ((g.track u s a).lastU symbol)
      ((g.track u s a).delivered symbol) (g.track u s a).floor
    cases hop : symbolOp u s symbol a with
    | none =>
        rw [hop] at hmoves hlast hdelivered hkeep
        rw [show _ = _ from hmoves, hlast (by simp) (by simp), hdelivered (by simp)]
        exact hanswered.congr fun t ht => hkeep t (by simp) ht
    | some op =>
        rw [hop] at hmoves hlast hdelivered hkeep
        rw [hmoves.2]
        refine hanswered.next hone hmoves.1 (fun now e heq => ?_) (fun hnot => ⟨?_, ?_⟩)
          (fun t heq => ?_) fun t hne ht => hkeep t (by simpa using hne) ht
        · obtain ⟨i, rfl⟩ := depth_of_symbolOp (heq ▸ hop)
          simp [Feed.track]
        · by_cases hconnect : op = .connect
          · rcases g.lastU_connect (hconnect ▸ hop) with hkept | hnone
            · exact fun v hv => hkept ▸ hv
            · simp [hnone]
          · rw [hlast (by simpa using hnot) (by simpa using hconnect)]
            exact fun v hv => hv
        · exact hdelivered (by simpa using hnot)
        · obtain ⟨rfl, hsyncs⟩ := send_of_symbolOp (heq ▸ hop)
          exact Feed.floor_track_send hsyncs g

/-- In these runs no snapshot that finds the buffer empty is too old for it. -/
theorem freshWhenDrained_of_soleSync {sg : System × Feed} (hs : (u.soleSync h).Reachable sg)
    {a : Act} (ha : (u.soleSync h).enabled sg a) : FreshWhenDrained sg a := by
  rintro t lastUpdateId bids asks symbol rfl hsyncs hstate hnil - v hv
  obtain ⟨⟨henabled, hvenue⟩, -⟩ := ha
  by_cases hsymbol : symbol ∈ u.symbols
  · have ht := tasks_of_taskAt (u := u) henabled.1 hsyncs
    exact ((answered_reachable hs hsymbol).covered hstate hnil t ht v hv).trans
      (hvenue symbol hsyncs).2
  · have hidle := uninitialized_of_not_mem hs.of_guarded.of_guarded.of_withGhost hsymbol
    exact absurd (hstate.symm.trans hidle) (by decide)

/-- So the venue's promises are enough: what is published is the venue's book. -/
theorem published_is_venues_of_soleSync {sg : System × Feed}
    (hs : (u.soleSync h).Reachable sg) : PublishesVenue u h sg := by
  have hfresh : ((u.venueFed h).guarded FreshWhenDrained).Reachable sg :=
    hs.map id (fun _ h => h) fun _ _ hreach ha =>
      ⟨⟨ha.1, freshWhenDrained_of_soleSync hreach ha⟩, rfl⟩
  refine publishesVenue_of_follows (fun symbol hsymbol => ?_) fun symbol hsymbol => ?_
  · exact regular_reachable hs.of_guarded.of_guarded.of_withGhost hsymbol
  · exact follows_reachable hfresh hsymbol

end FeedHandler.Handler
