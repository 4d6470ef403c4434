import FeedHandler.Venue.Acceptance
/-!
# Two counters and what they are said to count

`snapshot_count` and `unverified_bridge_count` are exported under help texts that
speak of snapshots applied and of snapshots that went live. Both are raised before
`on_snapshot` has made its last check. A ghost counts what the texts speak of, and
a counter agrees with it in exactly the runs without a refusal of its kind.
-/

namespace FeedHandler

open Lib

namespace Book

def Acceptable (b : Book) (lastUpdateId : Nat) (bids asks : Levels) : Prop :=
  Bridged lastUpdateId (pending lastUpdateId b.buffer) ∧
    (b.resynced lastUpdateId bids asks).Uncrossed

def GoesLive (b : Book) : BookOp → Prop
  | .onSnapshot lastUpdateId bids asks =>
      b.state = .buffering ∧ (b.onSnapshot lastUpdateId bids asks).2.state = .live
  | _ => False

def GoesLiveUnproven (b : Book) : BookOp → Prop
  | .onSnapshot lastUpdateId bids asks =>
      b.GoesLive (.onSnapshot lastUpdateId bids asks) ∧ pending lastUpdateId b.buffer = []
  | _ => False

instance (b : Book) (op : BookOp) : Decidable (b.GoesLive op) := by
  cases op <;> unfold GoesLive <;> infer_instance

instance (b : Book) (op : BookOp) : Decidable (b.GoesLiveUnproven op) := by
  cases op <;> unfold GoesLiveUnproven <;> infer_instance

/-- No snapshot is offered to a buffering book that it has to refuse. -/
def OffersAcceptable (b : Book) (op : BookOp) : Prop :=
  ∀ lastUpdateId bids asks, op = .onSnapshot lastUpdateId bids asks → b.state = .buffering →
    b.Acceptable lastUpdateId bids asks

/-- No crossed snapshot is offered to a buffering book with nothing to replay. -/
def OffersUncrossed (b : Book) (op : BookOp) : Prop :=
  ∀ lastUpdateId bids asks, op = .onSnapshot lastUpdateId bids asks → b.state = .buffering →
    pending lastUpdateId b.buffer = [] →
      (BookView.ofPositiveLevels bids asks).Uncrossed

/-! ## One call -/

theorem goesLive_iff {b : Book} (hstate : b.state = .buffering) (lastUpdateId : Nat)
    (bids asks : Levels) :
    b.GoesLive (.onSnapshot lastUpdateId bids asks) ↔ b.Acceptable lastUpdateId bids asks := by
  have hanswer := onSnapshot_eq_true_iff_bridged hstate lastUpdateId bids asks
  have hstep := onSnapshot_step b lastUpdateId bids asks
  simp only [GoesLive, Acceptable, ← hanswer]
  generalize (b.onSnapshot lastUpdateId bids asks).1 = answer,
    (b.onSnapshot lastUpdateId bids asks).2 = b' at hstep ⊢
  cases hstep with
  | ignored hnot => exact absurd hstate hnot
  | refused _ hbridge bids' asks' last => simp [loadSnapshot, hstate]
  | rejected _ hbridge crossed mismatch => simp
  | accepted _ hbridge crossed mismatch => simp [hstate]

theorem counts_onSnapshot {b : Book} (hstate : b.state = .buffering) (lastUpdateId : Nat)
    (bids asks : Levels) :
    (b.onSnapshot lastUpdateId bids asks).2.snapshotCount = b.snapshotCount + 1 ∧
      (b.onSnapshot lastUpdateId bids asks).2.unverifiedBridgeCount =
        if pending lastUpdateId b.buffer = [] then b.unverifiedBridgeCount + 1
        else b.unverifiedBridgeCount := by
  obtain ⟨bids', asks', last, hsynced⟩ := synced_eq b lastUpdateId bids asks
  have hstep := onSnapshot_step b lastUpdateId bids asks
  generalize (b.onSnapshot lastUpdateId bids asks).1 = answer,
    (b.onSnapshot lastUpdateId bids asks).2 = b' at hstep ⊢
  cases hstep with
  | ignored hnot => exact absurd hstate hnot
  | refused _ hbridge bids' asks' last =>
      have hne : pending lastUpdateId b.buffer ≠ [] := by
        intro hnil
        rw [hnil] at hbridge
        exact hbridge trivial
      simp [loadSnapshot, hne]
  | rejected => simp [hsynced, goLive, loadSnapshot]
  | accepted => simp [hsynced, goLive, loadSnapshot]

theorem snapshotCount_call (b : Book) (op : BookOp) :
    (b.OffersAcceptable op → (b.call op).2.snapshotCount =
      if b.GoesLive op then b.snapshotCount + 1 else b.snapshotCount) ∧
    (¬ b.OffersAcceptable op →
      (b.call op).2.snapshotCount = b.snapshotCount + 1 ∧ ¬ b.GoesLive op) := by
  cases op with
  | onDepth e => simp [OffersAcceptable, GoesLive, call, untouched_onDepth]
  | onSnapshot lastUpdateId bids asks =>
      by_cases hstate : b.state = .buffering
      · have hlive := goesLive_iff hstate lastUpdateId bids asks
        have hcount := (counts_onSnapshot hstate lastUpdateId bids asks).1
        have hoffers : b.OffersAcceptable (.onSnapshot lastUpdateId bids asks) ↔
            b.Acceptable lastUpdateId bids asks := by simp [OffersAcceptable, hstate]
        constructor
        · intro h
          rw [if_pos (hlive.mpr (hoffers.mp h))]
          exact hcount
        · intro h
          exact ⟨hcount, fun hgoes => h (hoffers.mpr (hlive.mp hgoes))⟩
      · have hunchanged := onSnapshot_of_not_buffering hstate lastUpdateId bids asks
        simp [OffersAcceptable, GoesLive, call, hstate, hunchanged]
  | _ => simp [OffersAcceptable, GoesLive, call, Book.setTickerBbo, Book.markForResync, Book.reset]

theorem unverifiedBridgeCount_call (b : Book) (op : BookOp) :
    (b.OffersUncrossed op → (b.call op).2.unverifiedBridgeCount =
      if b.GoesLiveUnproven op then b.unverifiedBridgeCount + 1 else b.unverifiedBridgeCount) ∧
    (¬ b.OffersUncrossed op →
      (b.call op).2.unverifiedBridgeCount = b.unverifiedBridgeCount + 1 ∧
        ¬ b.GoesLiveUnproven op) := by
  cases op with
  | onDepth e => simp [OffersUncrossed, GoesLiveUnproven, call, untouched_onDepth]
  | onSnapshot lastUpdateId bids asks =>
      by_cases hstate : b.state = .buffering
      · have hlive := goesLive_iff hstate lastUpdateId bids asks
        have hcount := (counts_onSnapshot hstate lastUpdateId bids asks).2
        by_cases hpending : pending lastUpdateId b.buffer = []
        · have hacceptable : b.Acceptable lastUpdateId bids asks ↔
              (BookView.ofPositiveLevels bids asks).Uncrossed := by
            simp [Acceptable, resynced, hpending, Bridged]
          have hoffers : b.OffersUncrossed (.onSnapshot lastUpdateId bids asks) ↔
              (BookView.ofPositiveLevels bids asks).Uncrossed := by
            simp [OffersUncrossed, hstate, hpending]
          rw [if_pos hpending] at hcount
          rw [← hacceptable, ← hlive] at hoffers
          constructor
          · intro h
            rw [if_pos ⟨hoffers.mp h, hpending⟩]
            exact hcount
          · intro h
            exact ⟨hcount, fun hgoes => h (hoffers.mpr hgoes.1)⟩
        · rw [if_neg hpending] at hcount
          simp [OffersUncrossed, GoesLiveUnproven, call, hpending, hcount]
      · have hunchanged := onSnapshot_of_not_buffering hstate lastUpdateId bids asks
        simp [OffersUncrossed, GoesLiveUnproven, GoesLive, call, hstate, hunchanged]
  | _ =>
      simp [OffersUncrossed, GoesLiveUnproven, call, Book.setTickerBbo, Book.markForResync,
        Book.reset]

/-! ## Runs -/

def CountsTruly (symbol : String) (counter : Book → Nat) (p : Book → BookOp → Prop)
    [∀ b op, Decidable (p b op)] (ops : List BookOp) : Prop :=
  ∀ before after, before ++ after = ops →
    counter (((machine symbol).counting p).exec (new symbol, 0) before).1 =
      (((machine symbol).counting p).exec (new symbol, 0) before).2

theorem countsTruly_iff {symbol : String} {counter : Book → Nat} {p g : Book → BookOp → Prop}
    [∀ b op, Decidable (p b op)] (hzero : counter (new symbol) = 0)
    (hright : ∀ b op, g b op →
      counter (b.call op).2 = if p b op then counter b + 1 else counter b)
    (hwrong : ∀ b op, ¬ g b op → counter (b.call op).2 = counter b + 1 ∧ ¬ p b op)
    (ops : List BookOp) :
    CountsTruly symbol counter p ops ↔ ((machine symbol).guarded g).Admits (new symbol) ops := by
  have hpoint := Machine.counter_eq_iff (m := machine symbol) (fun _ _ => trivial) hright hwrong
    (s := new symbol) (n := 0) (Nat.zero_le _)
  constructor
  · intro h
    exact ((hpoint ops).mp (h ops [] (List.append_nil ops))).2
  · intro h before after hsplit
    rw [← hsplit, Machine.admits_append] at h
    exact (hpoint before).mpr ⟨hzero, h.1⟩

/-- `bfh_book_snapshots_total` is the number of snapshots applied in exactly the runs in
which no snapshot is refused: a refusal is counted like a success. -/
theorem snapshots_total_true_iff (symbol : String) (ops : List BookOp) :
    (CountsTruly symbol snapshotCount GoesLive ops ↔
      ((machine symbol).guarded OffersAcceptable).Admits (new symbol) ops) ∧
    ∀ (b : Book) lastUpdateId bids asks, ¬ b.GoesLive (.onSnapshot lastUpdateId bids asks) →
      ((b.onSnapshot lastUpdateId bids asks).2.snapshotCount = b.snapshotCount ↔
        b.state ≠ .buffering) := by
  constructor
  · exact countsTruly_iff rfl (fun b op => (snapshotCount_call b op).1)
      (fun b op => (snapshotCount_call b op).2) ops
  · intro b lastUpdateId bids asks hnot
    by_cases hstate : b.state = .buffering
    · rw [(counts_onSnapshot hstate lastUpdateId bids asks).1]
      exact iff_of_false (by omega) (not_not_intro hstate)
    · rw [onSnapshot_of_not_buffering hstate]
      exact iff_of_true rfl hstate

/-- A snapshot that is refused, because the buffered event starts past it. -/
def refusedRun : List BookOp := [.onDepth ⟨11, 20, 10, [], []⟩, .onSnapshot 5 [] []]

theorem refusal_counted_as_applied :
    ¬ CountsTruly "BTCUSDT" snapshotCount GoesLive refusedRun := by
  intro h
  exact absurd (h _ [] (List.append_nil _)) (by decide +kernel)

/-- `bfh_unverified_bridges_total` is the number of snapshots that went live with nothing
replayed in exactly the runs in which no crossed snapshot finds nothing to replay. -/
theorem unverified_bridges_true_iff (symbol : String) (ops : List BookOp) :
    CountsTruly symbol unverifiedBridgeCount GoesLiveUnproven ops ↔
      ((machine symbol).guarded OffersUncrossed).Admits (new symbol) ops :=
  countsTruly_iff rfl (fun b op => (unverifiedBridgeCount_call b op).1)
    (fun b op => (unverifiedBridgeCount_call b op).2) ops

/-- A crossed snapshot with nothing to replay: counted, and the book is not live. -/
theorem crossed_snapshot_counted_as_live :
    ¬ CountsTruly "BTCUSDT" unverifiedBridgeCount GoesLiveUnproven
      [.onDepth ⟨1, 3, 0, [], []⟩, .onSnapshot 5 [(.one, .one)] [(.one, .one)]] := by
  intro h
  exact absurd (h _ [] (List.append_nil _)) (by decide +kernel)

end Book

end FeedHandler
