import FeedHandler.Handler.Tidy
import Mathlib.Algebra.Order.Field.Rat
import Mathlib.Tactic.Linarith
/-!
# The stale sweep

`take_stale_books` on its own, with any threshold, and in runs of what else writes to
the books. A sweep that takes a book stamps it with its own time, and from then on the
stamp only grows; so the sweep that takes it next is more than a threshold later, however
often the symbol was live in between.
-/

namespace FeedHandler.Handler

open Lib

structure Tracked where
  books : String → Book
  clock : Rat

inductive TrackedAct
  | sweep (now : Rat) (order : List String)
  /-- A depth update delivered at clock reading `now`. -/
  | depth (symbol : String) (now : Rat) (e : DepthEvent)
  | ticker (symbol : String) (bid ask : Decimal)
  | snapshot (symbol : String) (lastUpdateId : Nat) (bids asks : Levels)
  | reset (symbol : String)

namespace Tracked

def setBook (s : Tracked) (symbol : String) (b : Book) : Tracked :=
  { s with books := Function.update s.books symbol b }

/-- The clock does not go back, and a sweep comes by every book of the map once. -/
def enabled (u : Universe) (s : Tracked) : TrackedAct → Prop
  | .sweep now order => s.clock ≤ now ∧ order.Perm u.symbols
  | .depth _ now _ => s.clock ≤ now
  | _ => True

def next (threshold : Rat) (s : Tracked) : TrackedAct → Tracked
  | .sweep now order => ⟨(takeStaleBooks s.books order now threshold).2, now⟩
  | .depth symbol now e =>
      { s.setBook symbol (((s.books symbol).stamped now).onDepth e).2 with clock := now }
  | .ticker symbol bid ask => s.setBook symbol ((s.books symbol).setTickerBbo bid ask)
  | .snapshot symbol lastUpdateId bids asks =>
      s.setBook symbol ((s.books symbol).onSnapshot lastUpdateId bids asks).2
  | .reset symbol => s.setBook symbol (s.books symbol).reset

end Tracked

/-- The sweeps so far, oldest first, each with its time and the symbols it returned. -/
abbrev SweepLog := List (Rat × List String)

def SweepLog.track (threshold : Rat) (s : Tracked) (a : TrackedAct) (log : SweepLog) : SweepLog :=
  match a with
  | .sweep now order => log ++ [(now, (takeStaleBooks s.books order now threshold).1)]
  | _ => log

def Universe.sweeping (u : Universe) (threshold : Rat) : Machine (Tracked × SweepLog) TrackedAct :=
  Machine.withGhost
    { initial := fun s => ∀ symbol, (s.books symbol).symbol = symbol
      enabled := Tracked.enabled u
      next := Tracked.next threshold }
    [] (SweepLog.track threshold)

/-! ## The stamps -/

variable {u : Universe} {threshold : Rat} {s : Tracked} {log : SweepLog}

/-- A symbol once returned has been stamped since, and no sweep that returned it came too
soon after another. -/
structure Calm (threshold : Rat) (s : Tracked) (log : SweepLog) : Prop where
  keyed : ∀ symbol, (s.books symbol).symbol = symbol
  past : ∀ entry ∈ log, entry.1 ≤ s.clock
  stamped : ∀ entry ∈ log, ∀ symbol ∈ entry.2, entry.1 ≤ (s.books symbol).lastUpdateTime
  apart : log.Pairwise fun earlier later =>
    ∀ symbol ∈ earlier.2, symbol ∈ later.2 → threshold < later.1 - earlier.1

namespace Calm

theorem of_stamps (h : Calm threshold s log) {s' : Tracked}
    (hkeyed : ∀ symbol, (s'.books symbol).symbol = symbol) (hclock : s.clock ≤ s'.clock)
    (hstamps : ∀ symbol, (s'.books symbol).lastUpdateTime = (s.books symbol).lastUpdateTime ∨
      (s'.books symbol).lastUpdateTime = s'.clock) : Calm threshold s' log where
  keyed := hkeyed
  past entry hentry := (h.past entry hentry).trans hclock
  stamped entry hentry symbol hsymbol := by
    rcases hstamps symbol with hkept | hnow
    · rw [hkept]
      exact h.stamped entry hentry symbol hsymbol
    · rw [hnow]
      exact (h.past entry hentry).trans hclock
  apart := h.apart

theorem setBook (h : Calm threshold s log) {symbol : String} {b : Book} {clock : Rat}
    (hkeyed : b.symbol = symbol) (hclock : s.clock ≤ clock)
    (hstamp : b.lastUpdateTime = (s.books symbol).lastUpdateTime ∨ b.lastUpdateTime = clock) :
    Calm threshold { s.setBook symbol b with clock := clock } log := by
  refine h.of_stamps (fun other => ?_) hclock fun other => ?_
  · simp only [Tracked.setBook, Function.update_apply]
    split_ifs with hother
    · rw [hkeyed, hother]
    · exact h.keyed other
  · simp only [Tracked.setBook, Function.update_apply]
    split_ifs with hother
    · rw [hother]
      exact hstamp
    · exact Or.inl rfl

theorem stale_of_returned (h : Calm threshold s log) {order : List String}
    (horder : order.Nodup) {now : Rat} {symbol : String}
    (hmem : symbol ∈ (takeStaleBooks s.books order now threshold).1) :
    symbol ∈ order ∧ Stale (s.books symbol) now threshold := by
  rw [(takeStaleBooks_eq s.books horder now threshold).1, List.mem_map] at hmem
  obtain ⟨key, hkey, hsymbol⟩ := hmem
  rw [h.keyed key] at hsymbol
  subst hsymbol
  simpa using List.mem_filter.mp hkey

theorem sweep (h : Calm threshold s log) {now : Rat} {order : List String}
    (hclock : s.clock ≤ now) (horder : order.Nodup) :
    Calm threshold ⟨(takeStaleBooks s.books order now threshold).2, now⟩
      (log ++ [(now, (takeStaleBooks s.books order now threshold).1)]) := by
  have hbooks := (takeStaleBooks_eq s.books horder now threshold).2
  have hold : Calm threshold ⟨(takeStaleBooks s.books order now threshold).2, now⟩ log := by
    refine h.of_stamps (fun symbol => ?_) hclock fun symbol => ?_
    · dsimp only
      rw [hbooks]
      split_ifs
      · exact h.keyed symbol
      · exact h.keyed symbol
    · dsimp only
      rw [hbooks]
      split_ifs
      · exact Or.inr rfl
      · exact Or.inl rfl
  constructor
  · exact hold.keyed
  · intro entry hentry
    rcases List.mem_append.mp hentry with hentry | hentry
    · exact hold.past entry hentry
    · rw [List.mem_singleton.mp hentry]
  · intro entry hentry symbol hsymbol
    rcases List.mem_append.mp hentry with hentry | hentry
    · exact hold.stamped entry hentry symbol hsymbol
    · rw [List.mem_singleton.mp hentry] at hsymbol ⊢
      dsimp only at hsymbol ⊢
      rw [hbooks, if_pos (h.stale_of_returned horder hsymbol)]
      exact le_rfl
  · refine List.pairwise_append.mpr ⟨h.apart, List.pairwise_singleton _ _, ?_⟩
    intro earlier hearlier later hlater symbol hsymbol hreturned
    rw [List.mem_singleton.mp hlater] at hreturned ⊢
    have hsilent := (h.stale_of_returned horder hreturned).2.2
    have hstamped := h.stamped earlier hearlier symbol hsymbol
    show threshold < now - earlier.1
    linarith

theorem next (h : Calm threshold s log) {a : TrackedAct} (ha : Tracked.enabled u s a) :
    Calm threshold (Tracked.next threshold s a) (SweepLog.track threshold s a log) := by
  cases a with
  | sweep now order => exact h.sweep ha.1 (ha.2.nodup_iff.mpr u.nodup)
  | depth symbol now e =>
      exact h.setBook (by rw [Book.symbol_onDepth]; exact h.keyed symbol) ha
        (Or.inr (Book.lastUpdateTime_onDepth _ e))
  | ticker symbol bid ask => exact h.setBook (h.keyed symbol) le_rfl (Or.inl rfl)
  | snapshot symbol lastUpdateId bids asks =>
      exact h.setBook (by rw [Book.symbol_onSnapshot]; exact h.keyed symbol) le_rfl
        (Or.inl (Book.lastUpdateTime_onSnapshot _ lastUpdateId bids asks))
  | reset symbol => exact h.setBook (h.keyed symbol) le_rfl (Or.inl rfl)

end Calm

theorem calm_reachable {sl : Tracked × SweepLog} (hs : (u.sweeping threshold).Reachable sl) :
    Calm threshold sl.1 sl.2 := by
  refine hs.invariant (I := fun sl => Calm threshold sl.1 sl.2) ?_ fun sl a h ha => h.next ha
  rintro ⟨s, log⟩ ⟨hkeyed, rfl⟩
  exact ⟨hkeyed, by simp, by simp, List.Pairwise.nil⟩

/-- A sweep takes the live books that have been silent for more than the threshold, each
once, and no other, and two sweeps that take the same symbol are further apart than that. -/
theorem stale_sweep_exact (u : Universe) (threshold : Rat) :
    (∀ books order now, order.Perm u.symbols →
      (takeStaleBooks books order now threshold).1 =
        (order.filter fun key => decide (Stale (books key) now threshold)).map
          (fun key => (books key).symbol) ∧
      ((∀ key ∈ order, (books key).symbol = key) →
        (takeStaleBooks books order now threshold).1.Nodup) ∧
      ∀ key, (key ∈ u.symbols ∧ Stale (books key) now threshold →
          ((takeStaleBooks books order now threshold).2 key).state = .buffering ∧
          ((takeStaleBooks books order now threshold).2 key).bids = OrderedMap.empty ∧
          ((takeStaleBooks books order now threshold).2 key).asks = OrderedMap.empty ∧
          ((takeStaleBooks books order now threshold).2 key).buffer = [] ∧
          ((takeStaleBooks books order now threshold).2 key).lastUpdateTime = now) ∧
        (¬ (key ∈ u.symbols ∧ Stale (books key) now threshold) →
          (takeStaleBooks books order now threshold).2 key = books key)) ∧
    ∀ sl, (u.sweeping threshold).Reachable sl → sl.2.Pairwise fun earlier later =>
      ∀ symbol ∈ earlier.2, symbol ∈ later.2 → threshold < later.1 - earlier.1 := by
  refine ⟨fun books order now horder => ?_, fun sl hs => (calm_reachable hs).apart⟩
  have hnodup : order.Nodup := horder.nodup_iff.mpr u.nodup
  obtain ⟨hlist, hbooks⟩ := takeStaleBooks_eq books hnodup now threshold
  refine ⟨hlist, fun hkeyed => ?_, fun key => ?_⟩
  · have hsymbols : ∀ key ∈ order.filter fun key => decide (Stale (books key) now threshold),
        (books key).symbol = key := fun key hkey => hkeyed key (List.mem_of_mem_filter hkey)
    rw [hlist, List.map_congr_left hsymbols, List.map_id']
    exact hnodup.filter _
  · rw [hbooks, ← horder.mem_iff]
    constructor
    · intro hstale
      rw [if_pos hstale]
      exact ⟨rfl, rfl, rfl, rfl, rfl⟩
    · intro hnot
      rw [if_neg hnot]

def sweptTwice : List TrackedAct :=
  [.depth "BTCUSDT" 1 ⟨1, 10, 0, [], []⟩, .snapshot "BTCUSDT" 10 [] [],
    .sweep 100 ["BTCUSDT"], .depth "BTCUSDT" 101 ⟨11, 20, 10, [], []⟩,
    .snapshot "BTCUSDT" 20 [] [], .sweep 140 ["BTCUSDT"]]

theorem stale_sweep_exact_twice :
    ((btc.sweeping 30).exec (⟨Book.new, 0⟩, []) sweptTwice).2 =
        [(100, ["BTCUSDT"]), (140, ["BTCUSDT"])] ∧
      ∀ symbol ∈ ["BTCUSDT"], symbol ∈ ["BTCUSDT"] → (30 : Rat) < 140 - 100 := by
  have hlog : ((btc.sweeping 30).exec (⟨Book.new, 0⟩, []) sweptTwice).2 =
      [(100, ["BTCUSDT"]), (140, ["BTCUSDT"])] := by decide +kernel
  have hstart : (btc.sweeping 30).Reachable (⟨Book.new, 0⟩, []) := .start ⟨fun _ => rfl, rfl⟩
  have hadmits : (btc.sweeping 30).Admits (⟨Book.new, 0⟩, []) sweptTwice := by
    refine ⟨?_, trivial, ?_, ?_, trivial, ?_, trivial⟩
    · show (0 : Rat) ≤ 1
      decide +kernel
    · exact ⟨by decide +kernel, List.Perm.refl _⟩
    · show (100 : Rat) ≤ 101
      decide +kernel
    · exact ⟨by decide +kernel, List.Perm.refl _⟩
  have h := (stale_sweep_exact btc 30).2 _ (hstart.exec sweptTwice hadmits)
  rw [hlog] at h
  exact ⟨hlog, (List.pairwise_cons.mp h).1 (140, ["BTCUSDT"]) (by simp)⟩

end FeedHandler.Handler
