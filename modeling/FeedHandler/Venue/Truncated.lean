import FeedHandler.Venue.ProvenSync
import FeedHandler.Book.WellFormed
import Mathlib.Data.Set.Function
/-!
# Snapshots cut to their best levels

`fetch_snapshot` asks for `limit=500`, so a snapshot is the best part of each side
and says nothing of the prices below its worst bid or above its worst ask. A book
synced from one is right in the band the snapshot covered, for as long as it stays
live: diffs assign quantities absolutely, so what is right in the band stays right.
Outside the band nothing is promised, and the code keeps no record of where it ends.
-/

namespace FeedHandler

open Lib

/-- The prices on each side for which a book answers. -/
structure Band where
  bids : Set Int
  asks : Set Int

namespace Band

/-- What a snapshot of at most `limit` levels a side covers: every price, when the
side was shorter than that, else the prices at least as good as some level of it. -/
def covered (limit : Nat) (bids asks : Levels) : Band where
  bids := {p | bids.length < limit ∨ ∃ level ∈ bids, level.1.units ≤ p}
  asks := {p | asks.length < limit ∨ ∃ level ∈ asks, p ≤ level.1.units}

end Band

namespace BookView

def AgreeOn (band : Band) (v w : BookView) : Prop :=
  Set.EqOn v.bids w.bids band.bids ∧ Set.EqOn v.asks w.asks band.asks

/-! ## Agreement is kept by every diff -/

theorem eqOn_assign {prices : Set Int} {side side' : Int → Option Int}
    (h : Set.EqOn side side' prices) (level : Decimal × Decimal) :
    Set.EqOn (assign side level) (assign side' level) prices := by
  intro p hp
  unfold assign
  rw [Function.update_apply, Function.update_apply, h hp]

theorem eqOn_foldl_assign {prices : Set Int} {side side' : Int → Option Int}
    (h : Set.EqOn side side' prices) (levels : Levels) :
    Set.EqOn (levels.foldl assign side) (levels.foldl assign side') prices := by
  induction levels generalizing side side' with
  | nil => exact h
  | cons level levels ih => exact ih (eqOn_assign h level)

theorem AgreeOn.apply {band : Band} {v w : BookView} (h : AgreeOn band v w) (e : DepthEvent) :
    AgreeOn band (v.apply e) (w.apply e) :=
  ⟨eqOn_foldl_assign h.1 e.bids, eqOn_foldl_assign h.2 e.asks⟩

/-! ## Cutting a side -/

theorem foldl_assign_take {side : Int → Option Int} {levels : Levels} {limit : Nat} {p : Int}
    (h : ∀ level ∈ levels.drop limit, level.1.units ≠ p) :
    (levels.take limit).foldl assign side p = levels.foldl assign side p := by
  conv_rhs => rw [← List.take_append_drop limit levels, List.foldl_append]
  rw [foldl_assign_of_not_mem h]

theorem drop_of_take {better : Decimal × Decimal → Decimal × Decimal → Prop} {levels : Levels}
    {limit : Nat} (hsorted : levels.Pairwise better) {kept cut : Decimal × Decimal}
    (hkept : kept ∈ levels.take limit) (hcut : cut ∈ levels.drop limit) : better kept cut := by
  rw [← List.take_append_drop limit levels] at hsorted
  exact (List.pairwise_append.mp hsorted).2.2 kept hkept cut hcut

theorem drop_eq_nil_of_short {levels : Levels} {limit : Nat}
    (h : (levels.take limit).length < limit) : levels.drop limit = [] := by
  rw [List.length_take] at h
  apply List.drop_eq_nil_of_le
  omega

theorem agreeOn_take {bids asks : Levels} (limit : Nat)
    (hbids : bids.Pairwise fun x y => y.1 < x.1) (hasks : asks.Pairwise fun x y => x.1 < y.1) :
    AgreeOn (Band.covered limit (bids.take limit) (asks.take limit))
      (ofLevels (bids.take limit) (asks.take limit)) (ofLevels bids asks) := by
  constructor
  · intro p hp
    apply foldl_assign_take
    intro cut hcut
    rcases hp with hshort | ⟨kept, hkept, hworst⟩
    · simp [drop_eq_nil_of_short hshort] at hcut
    · have hbetter : cut.1 < kept.1 := drop_of_take hbids hkept hcut
      rw [Decimal.lt_iff_units] at hbetter
      omega
  · intro p hp
    apply foldl_assign_take
    intro cut hcut
    rcases hp with hshort | ⟨kept, hkept, hworst⟩
    · simp [drop_eq_nil_of_short hshort] at hcut
    · have hbetter : kept.1 < cut.1 := drop_of_take hasks hkept hcut
      rw [Decimal.lt_iff_units] at hbetter
      omega

end BookView

/-- The venue serves at most `limit` levels a side, the best ones, best first. -/
def VenueHistory.Served (h : VenueHistory) (limit lastUpdateId : Nat) (bids asks : Levels) :
    Prop :=
  ∃ allBids allAsks : Levels, h.Genuine lastUpdateId allBids allAsks ∧
    (allBids.Pairwise fun x y => y.1 < x.1) ∧ (allAsks.Pairwise fun x y => x.1 < y.1) ∧
    bids = allBids.take limit ∧ asks = allAsks.take limit

namespace Book

variable {h : VenueHistory}

/-- In the band, the book is the venue's book after event `k`. -/
def AtOn (h : VenueHistory) (band : Band) (b : Book) (k : Nat) : Prop :=
  b.lastUpdateId = h.last k ∧ BookView.AgreeOn band b.view (h.version k)

/-! ## Applying events of the history -/

theorem AtOn.of_apply {band : Band} {b : Book} {k : Nat}
    (hview : BookView.AgreeOn band (b.view.apply (h.event (k + 1))) (h.version (k + 1))) :
    AtOn h band (b.applyEvent (h.event (k + 1))) (k + 1) := by
  refine ⟨h.u_eq k, ?_⟩
  rw [view_applyEvent]
  exact hview

theorem AtOn.apply_chained {band : Band} {b : Book} {k : Nat} (hb : AtOn h band b k)
    {e : DepthEvent} (he : h.Event e) (hpu : e.pu = b.lastUpdateId) :
    AtOn h band (b.applyEvent e) (k + 1) := by
  obtain rfl := event_of_pu he (hpu.trans hb.1)
  apply AtOn.of_apply
  rw [h.version_succ]
  exact hb.2.apply _

theorem AtOn.foldl_chained {band : Band} {b : Book} {k : Nat} (hb : AtOn h band b k)
    {es : List DepthEvent} (hes : ∀ e ∈ es, h.Event e) (hchain : Chained b.lastUpdateId es) :
    ∃ m, AtOn h band (es.foldl applyEvent b) m := by
  induction es generalizing b k with
  | nil => exact ⟨k, hb⟩
  | cons e es ih =>
      obtain ⟨hpu, hrest⟩ := hchain
      have hnext := hb.apply_chained (hes e List.mem_cons_self) hpu
      exact ih hnext (fun d hd => hes d (List.mem_cons_of_mem e hd)) hrest

/-! ## Replaying the buffer over a served snapshot -/

theorem AtOn.of_straddle {limit lastUpdateId : Nat} {bids asks : Levels} {b : Book}
    {e : DepthEvent} (hserved : h.Served limit lastUpdateId bids asks)
    (hview : b.view = BookView.ofLevels bids asks) (he : h.Event e) (hU : e.U ≤ lastUpdateId)
    (hu : lastUpdateId ≤ e.u) :
    ∃ m, AtOn h (Band.covered limit bids asks) (b.applyEvent e) m := by
  obtain ⟨allBids, allAsks, hgenuine, hbids, hasks, rfl, rfl⟩ := hserved
  obtain ⟨i, rfl⟩ := he
  rw [h.U_eq i] at hU
  rw [h.u_eq i] at hu
  refine ⟨i + 1, AtOn.of_apply ?_⟩
  have hfull := hgenuine.2.straddled (i := i) (by omega) hu
  rw [hview, ← hfull]
  exact (BookView.agreeOn_take limit hbids hasks).apply _

theorem pos_of_served {limit lastUpdateId : Nat} {bids asks : Levels}
    (hserved : h.Served limit lastUpdateId bids asks) :
    ∀ level ∈ bids ++ asks, Decimal.zero < level.2 := by
  obtain ⟨allBids, allAsks, hgenuine, -, -, rfl, rfl⟩ := hserved
  intro level hlevel
  apply hgenuine.1
  rcases List.mem_append.mp hlevel with hbid | hask
  · exact List.mem_append_left _ (List.mem_of_mem_take hbid)
  · exact List.mem_append_right _ (List.mem_of_mem_take hask)

theorem AtOn.of_synced {limit lastUpdateId : Nat} {bids asks : Levels} {b : Book}
    (hserved : h.Served limit lastUpdateId bids asks) (hbuffer : ∀ e ∈ b.buffer, h.Event e)
    (hbridge : Bridged lastUpdateId (pending lastUpdateId b.buffer))
    (hne : pending lastUpdateId b.buffer ≠ []) :
    ∃ m, AtOn h (Band.covered limit bids asks) (b.synced lastUpdateId bids asks) m := by
  have hmem : ∀ e ∈ pending lastUpdateId b.buffer, h.Event e ∧ lastUpdateId ≤ e.u := by
    intro e he
    exact ⟨hbuffer e (List.mem_of_mem_filter he), by simpa using (List.mem_filter.mp he).2⟩
  unfold synced
  generalize pending lastUpdateId b.buffer = es at hbridge hne hmem
  cases es with
  | nil => exact absurd rfl hne
  | cons e es =>
      obtain ⟨he, hu⟩ := hmem e List.mem_cons_self
      obtain ⟨hU, hchain⟩ := hbridge
      have hview := view_loadSnapshot b lastUpdateId (pos_of_served hserved)
      obtain ⟨i, hi⟩ := AtOn.of_straddle hserved hview he hU hu
      exact hi.foldl_chained (fun d hd => (hmem d (List.mem_cons_of_mem e hd)).1) hchain

/-! ## Hostile runs with cut snapshots -/

/-- How a book last went live: whether an event was replayed, and over what. -/
structure Provenance where
  proven : Bool
  bids : Levels
  asks : Levels

namespace Provenance

def none_ : Provenance := ⟨false, [], []⟩

def track (b : Book) (op : BookOp) (g : Provenance) : Provenance :=
  match op with
  | .onSnapshot lastUpdateId bids asks =>
      if b.state ≠ .live ∧ (b.onSnapshot lastUpdateId bids asks).2.state = .live then
        ⟨!(pending lastUpdateId b.buffer).isEmpty, bids, asks⟩
      else g
  | _ => g

def band (limit : Nat) (g : Provenance) : Band := Band.covered limit g.bids g.asks

end Provenance

/-- Events are of the history and snapshots are served by the venue; nothing is said
of order, loss or repetition. -/
def OfVenueCut (h : VenueHistory) (limit : Nat) : BookOp → Prop
  | .onDepth e => h.Event e
  | .onSnapshot lastUpdateId bids asks => h.Served limit lastUpdateId bids asks
  | _ => True

def truncatedRuns (h : VenueHistory) (limit : Nat) (symbol : String) :
    Machine (Book × Provenance) BookOp :=
  ((machine symbol).withGhost Provenance.none_ Provenance.track).guarded fun _ op =>
    OfVenueCut h limit op

structure SoundOn (h : VenueHistory) (limit : Nat) (b : Book) (g : Provenance) : Prop where
  buffered : ∀ e ∈ b.buffer, h.Event e
  live : b.state = .live → g.proven = true →
    b.needFirstEvent = false ∧ ∃ k, AtOn h (g.band limit) b k

theorem SoundOn.of_not_live {limit : Nat} {b : Book} {g : Provenance} (hstate : b.state ≠ .live)
    (hbuffer : ∀ e ∈ b.buffer, h.Event e) : SoundOn h limit b g :=
  ⟨hbuffer, fun hlive => absurd hlive hstate⟩

theorem SoundOn.onDepth {limit : Nat} {b : Book} {g : Provenance} (hb : SoundOn h limit b g)
    {e : DepthEvent} (he : h.Event e) : SoundOn h limit (b.onDepth e).2 g := by
  have hpush : ∀ d ∈ pushed b.buffer e, h.Event d := by
    intro d hd
    rcases mem_pushed hd with hd | rfl
    · exact hb.buffered d hd
    · exact he
  have hone : ∀ d ∈ [e], h.Event d := by simpa using he
  have hstep := onDepth_step b e
  generalize (b.onDepth e).1 = action, (b.onDepth e).2 = b' at hstep
  cases hstep with
  | first hstate => exact .of_not_live (by simp) (by simpa using hpush)
  | buffered hstate => exact .of_not_live (by simp [hstate]) (by simpa using hpush)
  | stale hstate hu => exact hb
  | gap hstate hu hfirst hpu => exact .of_not_live (by simp) (by simpa using hone)
  | rejected hstate hu hchain crossed mismatch =>
      exact .of_not_live (by simp) (by simpa using hone)
  | published hstate hu hchain crossed mismatch huncrossed hmismatch =>
      refine ⟨hb.buffered, fun _ hproven => ⟨rfl, ?_⟩⟩
      obtain ⟨hfirst, k, hk⟩ := hb.live hstate hproven
      have hpu : e.pu = b.lastUpdateId := hchain.resolve_left (by simp [hfirst])
      exact ⟨k + 1, hk.apply_chained he hpu⟩

theorem SoundOn.onSnapshot {limit : Nat} {b : Book} {g : Provenance} (hb : SoundOn h limit b g)
    {lastUpdateId : Nat} {bids asks : Levels} (hserved : h.Served limit lastUpdateId bids asks) :
    SoundOn h limit (b.onSnapshot lastUpdateId bids asks).2
      (Provenance.track b (.onSnapshot lastUpdateId bids asks) g) := by
  have hbuffer : ∀ e ∈ (b.synced lastUpdateId bids asks).buffer, h.Event e := by simp
  have hstep := onSnapshot_step b lastUpdateId bids asks
  unfold Provenance.track
  simp only
  generalize (b.onSnapshot lastUpdateId bids asks).1 = answer,
    (b.onSnapshot lastUpdateId bids asks).2 = b' at hstep
  cases hstep with
  | ignored hstate =>
      rw [if_neg fun hnew => hnew.1 hnew.2]
      exact hb
  | refused hstate hbridge bids' asks' last =>
      exact .of_not_live (by simp [loadSnapshot, hstate]) (by simp [loadSnapshot])
  | rejected hstate hbridge crossed mismatch => exact .of_not_live (by simp) hbuffer
  | accepted hstate hbridge crossed mismatch huncrossed hmismatch =>
      rw [if_pos ⟨by simp [hstate], rfl⟩]
      refine ⟨hbuffer, fun _ hproven => ?_⟩
      have hne : pending lastUpdateId b.buffer ≠ [] := by simpa using hproven
      exact ⟨needFirstEvent_synced bids asks hne, AtOn.of_synced hserved hb.buffered hbridge hne⟩

theorem SoundOn.call {limit : Nat} {b : Book} {g : Provenance} (hb : SoundOn h limit b g)
    {op : BookOp} (hop : OfVenueCut h limit op) :
    SoundOn h limit (b.call op).2 (Provenance.track b op g) := by
  cases op with
  | onDepth e => exact hb.onDepth hop
  | onSnapshot lastUpdateId bids asks => exact hb.onSnapshot hop
  | setTickerBbo bid ask => exact ⟨hb.buffered, hb.live⟩
  | markForResync => exact .of_not_live (by simp [Book.call, markForResync]) (by
      simp [Book.call, markForResync, reset])
  | reset => exact .of_not_live (by simp [Book.call, reset]) (by simp [Book.call, reset])

theorem soundOn_reachable {limit : Nat} {symbol : String} {s : Book × Provenance}
    (hs : (truncatedRuns h limit symbol).Reachable s) : SoundOn h limit s.1 s.2 := by
  refine hs.invariant (I := fun s => SoundOn h limit s.1 s.2) ?_ fun s op hsound henabled => ?_
  · rintro ⟨b, g⟩ ⟨rfl, -⟩
    exact .of_not_live (by simp [new]) (by simp [new])
  · exact hsound.call henabled.2

/-! ## A cut snapshot of the fixture -/

def stepLevel (i : Nat) : Decimal × Decimal :=
  (.whole (i % 1000) (mod_lt_coefficient i), .whole 1 Decimal.one_lt_coefficient)

theorem served_stepLevel : steps.Served 1 20 [stepLevel 2] [] := by
  refine ⟨[stepLevel 2, stepLevel 1], [], ?_, by decide, List.Pairwise.nil, rfl, rfl⟩
  apply steps.genuine_of_version (k := 1)
  · decide
  · rw [← ofLevels_stepBids 2]
    apply BookView.ext
    · exact Function.update_comm (by decide) _ _ _
    · rfl

/-- A snapshot cut to one level, taken while the second event was buffered, and the
event after it. -/
def cutRun : List BookOp :=
  [.onDepth (steps.event 2), .onSnapshot 20 [stepLevel 2] [], .onDepth (steps.event 3)]

theorem cutRun_reachable : (truncatedRuns steps 1 "BTCUSDT").Reachable
    ((truncatedRuns steps 1 "BTCUSDT").exec (new "BTCUSDT", Provenance.none_) cutRun) := by
  apply Machine.Reachable.exec
  · exact Machine.Reachable.start ⟨rfl, rfl⟩
  · exact ⟨⟨trivial, 1, rfl⟩, ⟨trivial, served_stepLevel⟩, ⟨trivial, 2, rfl⟩, trivial⟩

/-- A live book whose sync was proven is right wherever the snapshot it came from
reached, and still is after any number of diffs. -/
theorem truncated_sync_sound {limit : Nat} {symbol : String} {s : Book × Provenance}
    (hs : (truncatedRuns h limit symbol).Reachable s) (hlive : s.1.state = .live)
    (hproven : s.2.proven = true) :
    ∃ k, h.last k = s.1.lastUpdateId ∧
      BookView.AgreeOn (s.2.band limit) s.1.view (h.version k) := by
  obtain ⟨-, k, hid, hview⟩ := (soundOn_reachable hs).live hlive hproven
  exact ⟨k, hid.symm, hview⟩

theorem truncated_sync_sound_cut : ∃ k,
    steps.last k = ((truncatedRuns steps 1 "BTCUSDT").exec (new "BTCUSDT", Provenance.none_)
      cutRun).1.lastUpdateId ∧
    BookView.AgreeOn (Band.covered 1 [stepLevel 2] [])
      ((truncatedRuns steps 1 "BTCUSDT").exec (new "BTCUSDT", Provenance.none_) cutRun).1.view
      (steps.version k) :=
  truncated_sync_sound cutRun_reachable (by decide) (by decide)

/-! ## What a consumer is shown -/

/-- `top` answers for the best `n` prices of a side, as far as `prices` reach: what
it shows there is right, and what it does not show is worse than all it shows. -/
structure ShowsBest (better : Int → Int → Prop) (prices : Set Int) (n : Nat)
    (side : Int → Option Int) (top : Levels) : Prop where
  right : ∀ level ∈ top, level.1.units ∈ prices → side level.1.units = some level.2.units
  complete : ∀ p ∈ prices, ∀ qty, side p = some qty →
    (∃ level ∈ top, level.1.units = p ∧ level.2.units = qty) ∨
      (top.length = n ∧ ∀ level ∈ top, better level.1.units p)

theorem showsBest_of_topOf {better : Int → Int → Prop} [Std.Irrefl better] {prices : Set Int}
    {n : Nat} {held : Side} {side : Int → Option Int} {top : Levels}
    (htop : TopOf (fun x y : Decimal × Decimal => better x.1.units y.1.units) n held.entries top)
    (hview : Set.EqOn held.view side prices) : ShowsBest better prices n side top where
  right level hlevel hprice := by
    have hheld := (OrderedMap.mem_entries_iff held level).mp (htop.subset hlevel)
    rw [← hview hprice, Side.view, hheld]
    rfl
  complete p hp qty hqty := by
    rw [← hview hp] at hqty
    obtain ⟨level, hat, hlevel⟩ := Option.map_eq_some_iff.mp hqty
    have hmem : level ∈ held.entries := mem_of_entryAt hat
    have hprice : level.1.units = p := rank_of_entryAt hat
    by_cases hshown : level ∈ top
    · exact Or.inl ⟨level, hshown, hprice, hlevel⟩
    · have : Std.Irrefl fun x y : Decimal × Decimal => better x.1.units y.1.units :=
        ⟨fun x => Std.Irrefl.irrefl x.1.units⟩
      rw [← hprice]
      exact Or.inr ⟨htop.length_of_missing hmem hshown, htop.rest level hmem hshown⟩

/-- Whatever is shown of a proven live book inside its band is the venue's, and no
better price of the venue's is hidden. -/
theorem shown_top_is_the_venues {limit : Nat} {symbol : String} {s : Book × Provenance}
    (hs : (truncatedRuns h limit symbol).Reachable s) (hlive : s.1.state = .live)
    (hproven : s.2.proven = true) (n : Nat) :
    ∃ k, h.last k = s.1.lastUpdateId ∧
      ShowsBest (fun p q => q < p) (s.2.band limit).bids n (h.version k).bids
        (s.1.topLevels n).1 ∧
      ShowsBest (fun p q => p < q) (s.2.band limit).asks n (h.version k).asks
        (s.1.topLevels n).2 := by
  obtain ⟨-, k, hid, hbids, hasks⟩ := (soundOn_reachable hs).live hlive hproven
  have htopBids := s.1.topLevels_bids n
  have htopAsks := s.1.topLevels_asks n
  simp only [Decimal.lt_iff_units] at htopBids htopAsks
  exact ⟨k, hid.symm, showsBest_of_topOf htopBids hbids, showsBest_of_topOf htopAsks hasks⟩

theorem shown_top_is_the_venues_cut : ∃ k,
    steps.last k = ((truncatedRuns steps 1 "BTCUSDT").exec (new "BTCUSDT", Provenance.none_)
      cutRun).1.lastUpdateId ∧
    ShowsBest (fun p q => q < p) (Band.covered 1 [stepLevel 2] []).bids 1 (steps.version k).bids
      [stepLevel 3] ∧
    ShowsBest (fun p q => p < q) (Band.covered 1 [stepLevel 2] []).asks 1 (steps.version k).asks
      [] :=
  shown_top_is_the_venues cutRun_reachable (by decide) (by decide) 1

end Book

end FeedHandler
