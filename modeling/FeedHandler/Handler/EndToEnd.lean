import FeedHandler.Handler.Episodes
import FeedHandler.Venue.InSync
/-!
# From the venue to the consumers

Every symbol has its history at the venue. A connection delivers a stretch of it
in order, and a response is the venue's book at an instant that covers what had
been delivered when its request went out. What is published is the venue's book,
provided no snapshot older than the last event of the connection finds the resync
buffer empty. A sync that outlives a disconnect can bring that about: its snapshot
is refused and empties the buffer under the request of another.
-/

namespace FeedHandler.Handler

open Lib

namespace SymbolState

variable {h : VenueHistory} {c : SymbolState} {lastU lastU' : Option Nat}

/-- `lastU` is the `u` of the last event delivered on the symbol's connection. The
book has been given the history up to there, without a hole. -/
structure Follows (h : VenueHistory) (c : SymbolState) (lastU : Option Nat) : Prop where
  silent : lastU = none → c.book.state = .uninitialized
  inSync : ∀ u, lastU = some u → ∃ k, u = h.last k ∧ c.book.InSync h k

theorem Regular.inSync (hc : c.Regular) (hstate : c.book.state = .uninitialized) (k : Nat) :
    c.book.InSync h k :=
  .of_uninitialized hstate (hc.wellFormed.uninitialized hstate).2.2.1

theorem inSync_stamped {b : Book} {k : Nat} (hb : b.InSync h k) (now : Rat) :
    (b.stamped now).InSync h k := ⟨hb.idle, hb.buffering, hb.awaiting, hb.following⟩

theorem Follows.of_book {c' : SymbolState} (hc : Follows h c lastU)
    (hstate : c.book.state = .uninitialized → c'.book.state = .uninitialized)
    (hbook : ∀ k, lastU = some (h.last k) → c.book.InSync h k → c'.book.InSync h k) :
    Follows h c' lastU where
  silent hu := hstate (hc.silent hu)
  inSync u hu := by
    obtain ⟨k, rfl, hk⟩ := hc.inSync u hu
    exact ⟨k, rfl, hbook k hu hk⟩

theorem Follows.exists_event (hc : Follows h c lastU) (hregular : c.Regular) {e : DepthEvent}
    (hevent : h.Event e) (hchain : ∀ u, lastU = some u → e.pu = u) :
    ∃ k, e = h.event (k + 1) ∧ c.book.InSync h k := by
  cases hu : lastU with
  | none =>
      obtain ⟨k, rfl⟩ := hevent
      exact ⟨k, rfl, hregular.inSync (hc.silent hu) k⟩
  | some u =>
      obtain ⟨k, rfl, hk⟩ := hc.inSync u hu
      exact ⟨k, Book.event_of_pu hevent (hchain _ hu), hk⟩

/-- What each operation does, `lastU'` being the last id delivered after it. -/
theorem Follows.next (hc : Follows h c lastU) (hregular : c.Regular) {op : SymbolOp}
    (hop : c.enabled op)
    (hdeliver : ∀ now e, op = .deliver now e →
      lastU' = some e.u ∧ h.Event e ∧ ∀ u, lastU = some u → e.pu = u)
    (hrespond : ∀ t lastUpdateId bids asks, op = .respond t lastUpdateId bids asks →
      h.Genuine lastUpdateId bids asks ∧
        (c.book.state = .buffering → c.book.buffer = [] →
          ¬ (BookView.ofLevels bids asks).Crossed → ∀ u, lastU = some u → u ≤ lastUpdateId))
    (hconnect : op = .connect → lastU' = lastU ∨ lastU' = none)
    (hother : op ≠ .connect → (∀ now e, op ≠ .deliver now e) → lastU' = lastU) :
    Follows h (c.next op) lastU' := by
  cases op with
  | connect =>
      have hstate := hregular.cleared hop
      rcases hconnect rfl with rfl | rfl
      · exact hc.of_book id fun _ _ hk => hk
      · exact ⟨fun _ => hstate, by simp⟩
  | deliver now e =>
      obtain ⟨rfl, hevent, hchain⟩ := hdeliver now e rfl
      obtain ⟨k, rfl, hk⟩ := hc.exists_event hregular hevent hchain
      refine ⟨by simp, fun u hu => ⟨k + 1, ?_, (inSync_stamped hk now).onDepth⟩⟩
      rw [← Option.some.inj hu, h.u_eq]
  | ticker bid ask =>
      obtain rfl := hother (by simp) (by simp)
      exact hc.of_book id fun _ _ hk => hk.setTickerBbo bid ask
  | reset =>
      obtain rfl := hother (by simp) (by simp)
      exact hc.of_book (fun _ => rfl) fun k _ _ => .reset c.book k
  | sweep now =>
      obtain rfl := hother (by simp) (by simp)
      refine hc.of_book (fun hstate => ?_) fun k _ _ => inSync_stamped (.markForResync c.book k) now
      exact absurd (hop.1.symm.trans hstate) (by decide)
  | respond t lastUpdateId bids asks =>
      obtain rfl := hother (by simp) (by simp)
      obtain ⟨hgenuine, hcovers⟩ := hrespond t lastUpdateId bids asks rfl
      refine hc.of_book (fun hstate => ?_) fun k hu hk =>
        hk.onSnapshot hgenuine fun hbuffering hnil hclear => hcovers hbuffering hnil hclear _ hu
      have hkeep := Book.onSnapshot_of_not_buffering (b := c.book) (by simp [hstate])
        lastUpdateId bids asks
      simpa [SymbolState.next, hkeep] using hstate
  | _ =>
      -- the book is left alone
      obtain rfl := hother (by simp) (by simp)
      exact hc.of_book id fun _ _ hk => hk

end SymbolState

variable {u : Universe} {s : System} {h : String → VenueHistory}

/-! ## The feed -/

/-- What the venue has told whom: the `u` of the last event delivered on the
symbol's present connection, the highest `u` delivered on any, and the highest one
when each request went out. -/
structure Feed where
  lastU : String → Option Nat
  delivered : String → Nat
  floor : Nat → Nat

def Feed.start : Feed := ⟨fun _ => none, fun _ => 0, fun _ => 0⟩

def Feed.track (u : Universe) (s : System) (a : Act) (g : Feed) : Feed :=
  match a with
  | .connect i =>
      { g with lastU := fun symbol => if symbol ∈ u.shard i then none else g.lastU symbol }
  | .depth _ symbol _ e =>
      { g with
        lastU := Function.update g.lastU symbol (some e.u)
        delivered := Function.update g.delivered symbol (max (g.delivered symbol) e.u) }
  | .send t =>
      { g with
        floor := Function.update g.floor t
          ((s.tasks t).elim 0 fun k => g.delivered k.symbol) }
  | _ => g

def Universe.feed (u : Universe) : Machine (System × Feed) Act :=
  u.machine.withGhost Feed.start (Feed.track u)

instance (u : Universe) (sg : System × Feed) (a : Act) : Decidable (u.feed.enabled sg a) :=
  inferInstanceAs (Decidable (System.enabled u sg.1 a))

/-- What the venue promises: a connection delivers events of the history, each the
next after the one before, and a response is genuine and covers every event
delivered before its request was sent. -/
def VenueStep (h : String → VenueHistory) (sg : System × Feed) : Act → Prop
  | .depth _ symbol _ e =>
      (h symbol).Event e ∧ ∀ u ∈ sg.2.lastU symbol, e.pu = u
  | .respond t lastUpdateId bids asks =>
      ∀ symbol, sg.1.Syncs t symbol →
        (h symbol).Genuine lastUpdateId bids asks ∧ sg.2.floor t ≤ lastUpdateId
  | _ => True

def Universe.venueFed (u : Universe) (h : String → VenueHistory) : Machine (System × Feed) Act :=
  u.feed.guarded (VenueStep h)

/-- An event that is published leaves the venue's book after it. -/
def PublishesVenue (u : Universe) (h : String → VenueHistory) (sg : System × Feed) : Prop :=
  ∀ i symbol now e, (u.venueFed h).enabled sg (.depth i symbol now e) →
    (((sg.1.books symbol).stamped now).onDepth e).1 = .publish →
      ∃ k, e = (h symbol).event (k + 1) ∧
        (((sg.1.books symbol).stamped now).onDepth e).2.view = (h symbol).version (k + 1)

/-- A snapshot that finds a buffering book with an empty resync buffer and is not crossed
is no older than the last event delivered on the symbol's connection. -/
def FreshWhenDrained (sg : System × Feed) (a : Act) : Prop :=
  ∀ t lastUpdateId bids asks symbol, a = .respond t lastUpdateId bids asks →
    sg.1.Syncs t symbol → (sg.1.books symbol).state = .buffering →
      (sg.1.books symbol).buffer = [] → ¬ (BookView.ofLevels bids asks).Crossed →
        ∀ u ∈ sg.2.lastU symbol, u ≤ lastUpdateId

theorem Feed.lastU_track (g : Feed) (a : Act) (symbol : String)
    (hdeliver : ∀ now e, symbolOp u s symbol a ≠ some (.deliver now e))
    (hconnect : symbolOp u s symbol a ≠ some .connect) :
    (g.track u s a).lastU symbol = g.lastU symbol := by
  cases a with
  | connect i =>
      refine if_neg fun hmem => hconnect (if_pos (Universe.mem_shard.mp hmem).2)
  | depth i other now e =>
      have hne : symbol ≠ other := fun heq => hdeliver now e (if_pos heq.symm)
      exact Function.update_of_ne hne _ _
  | _ => rfl

theorem connect_of_symbolOp {a : Act} {symbol : String}
    (h : symbolOp u s symbol a = some .connect) :
    ∃ i, a = .connect i ∨ a = .connectFail i := by
  cases a <;> simp only [symbolOp, Option.ite_none_right_eq_some, Option.some.injEq,
    reduceCtorEq, and_false] at h
  next i => exact ⟨i, Or.inl rfl⟩
  next i => exact ⟨i, Or.inr rfl⟩

theorem Feed.lastU_connect (g : Feed) {a : Act} {symbol : String}
    (h : symbolOp u s symbol a = some .connect) :
    (g.track u s a).lastU symbol = g.lastU symbol ∨ (g.track u s a).lastU symbol = none := by
  obtain ⟨i, rfl | rfl⟩ := connect_of_symbolOp h
  · by_cases hmem : symbol ∈ u.shard i
    · exact Or.inr (if_pos hmem)
    · exact Or.inl (if_neg hmem)
  · exact Or.inl rfl

theorem respond_of_symbolOp {a : Act} {symbol : String} {t lastUpdateId : Nat}
    {bids asks : Levels}
    (h : symbolOp u s symbol a = some (.respond t lastUpdateId bids asks)) :
    a = .respond t lastUpdateId bids asks ∧ s.Syncs t symbol := by
  cases a <;> simp only [symbolOp, Option.ite_none_right_eq_some, Option.some.injEq,
    reduceCtorEq, and_false, SymbolOp.respond.injEq] at h
  next t' lastUpdateId' bids' asks' =>
    obtain ⟨hsyncs, rfl, rfl, rfl, rfl⟩ := h
    exact ⟨rfl, hsyncs⟩

theorem follows_reachable {sg : System × Feed}
    (hs : ((u.venueFed h).guarded FreshWhenDrained).Reachable sg) {symbol : String}
    (hsymbol : symbol ∈ u.symbols) :
    (sg.1.symbol u symbol).Follows (h symbol) (sg.2.lastU symbol) := by
  refine hs.invariant_of_reachable
    (I := fun sg => (sg.1.symbol u symbol).Follows (h symbol) (sg.2.lastU symbol)) ?_ ?_
  · rintro ⟨s, g⟩ ⟨rfl, rfl⟩
    exact ⟨fun _ => rfl, by simp [Feed.start]⟩
  · rintro ⟨s, g⟩ a hreach hfollows ⟨⟨ha, hvenue⟩, hfresh⟩
    have hs := hreach.of_guarded.of_guarded.of_withGhost
    have hmoves := symbol_next (tidy_reachable hs) ha hsymbol
    have hlast := g.lastU_track (u := u) (s := s) a symbol
    show ((System.next u s a).symbol u symbol).Follows (h symbol) ((g.track u s a).lastU symbol)
    cases hop : symbolOp u s symbol a with
    | none =>
        rw [hop] at hmoves hlast
        rw [show _ = _ from hmoves, hlast (by simp) (by simp)]
        exact hfollows
    | some op =>
        rw [hop] at hmoves hlast
        rw [hmoves.2]
        refine hfollows.next (regular_reachable hs hsymbol) hmoves.1 (fun now e heq => ?_)
          (fun t lastUpdateId bids asks heq => ?_) (fun heq => ?_)
          fun hconnect hdeliver => hlast (by simpa using hdeliver) (by simpa using hconnect)
        · obtain ⟨i, rfl⟩ := depth_of_symbolOp (heq ▸ hop)
          exact ⟨Function.update_self _ _ _, hvenue⟩
        · obtain ⟨rfl, hsyncs⟩ := respond_of_symbolOp (heq ▸ hop)
          exact ⟨(hvenue symbol hsyncs).1,
            hfresh t lastUpdateId bids asks symbol rfl hsyncs⟩
        · exact g.lastU_connect (heq ▸ hop)

theorem publishesVenue_of_follows {sg : System × Feed}
    (hregular : ∀ symbol ∈ u.symbols, (sg.1.symbol u symbol).Regular)
    (hfollows : ∀ symbol ∈ u.symbols,
      (sg.1.symbol u symbol).Follows (h symbol) (sg.2.lastU symbol)) : PublishesVenue u h sg := by
  rintro i symbol now e ⟨⟨-, hmem, -⟩, hevent, hchain⟩ hpublish
  have hsymbol := (Universe.mem_shard.mp hmem).1
  obtain ⟨k, rfl, hk⟩ :=
    (hfollows symbol hsymbol).exists_event (hregular symbol hsymbol) hevent hchain
  exact ⟨k, rfl, (SymbolState.inSync_stamped hk now).view_of_publish hpublish⟩

/-- Under the venue's promises, in every interleaving without such a stale snapshot,
what is published is the venue's book. -/
theorem published_is_venues {sg : System × Feed}
    (hs : ((u.venueFed h).guarded FreshWhenDrained).Reachable sg) : PublishesVenue u h sg := by
  refine publishesVenue_of_follows (fun symbol hsymbol => ?_) fun symbol hsymbol => ?_
  · exact regular_reachable hs.of_guarded.of_guarded.of_withGhost hsymbol
  · exact follows_reachable hs hsymbol

def firstSnapshot : List Act :=
  [.connect 0, .depth 0 "BTCUSDT" 0 (stepEvent 1), .requestSync 0, .check 0, .send 0,
    .respond 0 10 (stepBids 1) []]

/-- The second event is published on a book that holds the first two. -/
theorem published_is_venues_second_event :
    ∃ k, stepEvent 2 = steps.event (k + 1) ∧
      ((((btc.feed.exec (System.start, Feed.start) firstSnapshot).1.books "BTCUSDT").stamped
        1).onDepth (stepEvent 2)).2.view = steps.version (k + 1) := by
  have hvenue : (btc.venueFed fun _ => steps).Admits (System.start, Feed.start) firstSnapshot :=
    Machine.admits_guarded.mpr ⟨by decide +kernel, trivial, ⟨⟨0, rfl⟩, by decide +kernel⟩,
      trivial, trivial, trivial, fun _ _ => ⟨genuine_stepBids 0, by decide +kernel⟩, trivial⟩
  have hfresh : FreshWhenDrained (btc.feed.exec (System.start, Feed.start)
      [.connect 0, .depth 0 "BTCUSDT" 0 (stepEvent 1), .requestSync 0, .check 0, .send 0])
      (.respond 0 10 (stepBids 1) []) := by
    rintro _ _ _ _ symbol ⟨⟩ hsyncs - hnil
    obtain rfl : "BTCUSDT" = symbol := Option.some.inj hsyncs
    exact absurd hnil (by decide +kernel)
  have hreachable := (Machine.Reachable.start
    (m := (btc.venueFed fun _ => steps).guarded FreshWhenDrained)
    (s := (System.start, Feed.start)) ⟨rfl, rfl⟩).exec firstSnapshot
    (Machine.admits_guarded.mpr ⟨hvenue, by simp [FreshWhenDrained], by simp [FreshWhenDrained],
      by simp [FreshWhenDrained], by simp [FreshWhenDrained], by simp [FreshWhenDrained], hfresh,
      trivial⟩)
  exact published_is_venues hreachable 0 "BTCUSDT" 1 (stepEvent 2)
    ⟨by decide +kernel, ⟨1, rfl⟩, by decide +kernel⟩ (by decide +kernel)

/-- The sweeper's response is refused and empties the buffer; the shard's own, asked
for before event 4 came, then puts a book without event 4 live. -/
def lateSweepHole : List Act :=
  lateSweep ++ [.check 2, .send 2, .depth 0 "BTCUSDT" 102 (stepEvent 4),
    .respond 1 20 (stepBids 2) [], .wake 1, .respond 2 30 (stepBids 3) []]

/-- And event 5 is published on it. -/
theorem late_sync_leaves_hole :
    ¬ ∀ (u : Universe) (h : String → VenueHistory) (sg : System × Feed),
      (u.venueFed h).Reachable sg → PublishesVenue u h sg := by
  intro hall
  have hvenue : (btc.venueFed fun _ => steps).Admits (System.start, Feed.start) lateSweepHole :=
    Machine.admits_guarded.mpr ⟨by decide +kernel, trivial, ⟨⟨0, rfl⟩, by decide +kernel⟩,
      trivial, trivial, trivial, fun _ _ => ⟨genuine_stepBids 0, by decide +kernel⟩,
      trivial, trivial, trivial, trivial, trivial, trivial, trivial, trivial, trivial,
      trivial, ⟨⟨2, rfl⟩, by decide +kernel⟩, trivial, trivial, trivial,
      ⟨⟨3, rfl⟩, by decide +kernel⟩, fun _ _ => ⟨genuine_stepBids 1, by decide +kernel⟩,
      trivial, fun _ _ => ⟨genuine_stepBids 2, by decide +kernel⟩, trivial⟩
  have hreachable := (Machine.Reachable.start (m := btc.venueFed fun _ => steps)
    (s := (System.start, Feed.start)) ⟨rfl, rfl⟩).exec lateSweepHole hvenue
  obtain ⟨k, hevent, hview⟩ := hall btc (fun _ => steps) _ hreachable 0 "BTCUSDT" 103
    (stepEvent 5) ⟨by decide +kernel, ⟨4, rfl⟩, by decide +kernel⟩ (by decide +kernel)
  have hu := congrArg DepthEvent.u hevent
  obtain rfl : k = 4 := by
    rw [steps.u_eq] at hu
    simp only [stepEvent, steps] at hu
    omega
  have hmissing := congrFun (congrArg BookView.bids hview) (Decimal.whole 4).units
  exact absurd hmissing (by decide +kernel)

end FeedHandler.Handler
