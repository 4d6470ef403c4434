import FeedHandler.Book.Counters
import FeedHandler.Book.Unproven
/-!
# Divergence from the ticker

The integrity check is called after every applied diff and when a book goes live. Where
both sides are there, the book is uncrossed and a ticker is stored, it compares the best
levels with the ticker. The comparisons since the book last went live are the history;
the mismatch counter is the length of the run of mismatches at its recent end.
-/

namespace FeedHandler

open Lib

namespace Book

/-! ## One comparison -/

/-- The comparison an integrity check of the book makes, if any, and whether it is a
mismatch. -/
def compared (b : Book) : Option Bool :=
  match b.bids.maxKey?, b.asks.minKey? with
  | some bookBid, some bookAsk =>
      if bookAsk ≤ bookBid then none
      else if b.tickerBid.isZero || b.tickerAsk.isZero then none
      else some (decide (bookBid.units ≠ b.tickerBid.units ∨ bookAsk.units ≠ b.tickerAsk.units))
  | _, _ => none

def recount (count : Nat) : Option Bool → Nat
  | none => count
  | some false => 0
  | some true => count + 1

theorem checkIntegrity_of_uncrossed {b : Book} (h : ¬ b.Crossed)
    (hcount : b.bboMismatchCount < bboMismatchThreshold) :
    b.checkIntegrity =
      (decide (recount b.bboMismatchCount b.compared < bboMismatchThreshold),
        { b with bboMismatchCount := recount b.bboMismatchCount b.compared }) := by
  have hpos : 0 < bboMismatchThreshold := by decide
  cases hbid : b.bids.maxKey? with
  | none =>
      have hcompared : b.compared = none := by simp [compared, hbid]
      simp [checkIntegrity, hbid, hcompared, recount, hcount]
  | some bid =>
      cases hask : b.asks.minKey? with
      | none =>
          have hcompared : b.compared = none := by simp [compared, hbid, hask]
          simp [checkIntegrity, hbid, hask, hcompared, recount, hcount]
      | some ask =>
          have hlt : ¬ ask ≤ bid := fun hle => h ⟨bid, ask, hbid, hask, hle⟩
          by_cases hmissing : (b.tickerBid.isZero || b.tickerAsk.isZero) = true
          · have hcompared : b.compared = none := by simp [compared, hbid, hask, hmissing]
            have hticker : (!b.tickerBid.isZero && !b.tickerAsk.isZero) = false := by
              rw [← Bool.not_or, hmissing]
              rfl
            simp only [checkIntegrity, hbid, hask, hlt, hticker, hcompared]
            simp [recount, hcount]
          · have hticker : (!b.tickerBid.isZero && !b.tickerAsk.isZero) = true := by
              rw [← Bool.not_or, Bool.not_eq_true' _]
              simpa using hmissing
            by_cases hdiffers : bid.units ≠ b.tickerBid.units ∨ ask.units ≠ b.tickerAsk.units
            · have hcompared : b.compared = some true := by
                simp only [compared, hbid, hask, if_neg hlt, if_neg hmissing,
                  decide_eq_true hdiffers]
              simp only [checkIntegrity, hbid, hask, if_neg hlt, if_pos hticker, if_pos hdiffers,
                hcompared]
              rfl
            · have hcompared : b.compared = some false := by
                simp only [compared, hbid, hask, if_neg hlt, if_neg hmissing,
                  decide_eq_false hdiffers]
              simp only [checkIntegrity, hbid, hask, if_neg hlt, if_pos hticker, if_neg hdiffers,
                hcompared]
              simp [recount, hpos]

theorem not_recount_lt_iff {count : Nat} (hcount : count < bboMismatchThreshold)
    (comparison : Option Bool) :
    ¬ recount count comparison < bboMismatchThreshold ↔
      comparison = some true ∧ bboMismatchThreshold ≤ count + 1 := by
  have hpos : 0 < bboMismatchThreshold := by decide
  rcases comparison with _ | (_ | _) <;> simp [recount] <;> omega

/-! ## The history of comparisons -/

/-- The comparisons since the book last went live, the latest first. -/
def noteComparison (b : Book) (op : BookOp) (history : List Bool) : List Bool :=
  match op with
  | .onDepth e => if b.Applies e then (b.applied e).compared.toList ++ history else history
  | .onSnapshot lastUpdateId bids asks =>
      if b.GoesLive (.onSnapshot lastUpdateId bids asks) then
        (b.onSnapshot lastUpdateId bids asks).2.compared.toList
      else history
  | _ => history

def comparing (symbol : String) : Machine (Book × List Bool) BookOp :=
  (machine symbol).withGhost [] noteComparison

def streak (history : List Bool) : Nat := (history.takeWhile id).length

theorem streak_append (comparison : Option Bool) (history : List Bool) :
    streak (comparison.toList ++ history) = recount (streak history) comparison := by
  rcases comparison with _ | (_ | _) <;> simp [streak, recount]

theorem le_streak_iff {n : Nat} {history : List Bool} :
    n ≤ streak history ↔ List.replicate n true <+: history := by
  induction n generalizing history with
  | zero => simp
  | succ n ih =>
      rcases history with _ | ⟨_ | _, history⟩
      · simp [streak]
      · simp [streak, List.replicate_succ]
      · rw [List.replicate_succ, List.cons_prefix_cons, ← ih]
        simp [streak]

/-! ## The counter is the streak -/

theorem onDepth_of_uncrossed {b : Book} {e : DepthEvent} (happlies : b.Applies e)
    (hcount : b.bboMismatchCount < bboMismatchThreshold) (huncrossed : ¬ (b.applied e).Crossed) :
    b.onDepth e =
      if recount b.bboMismatchCount (b.applied e).compared < bboMismatchThreshold then
        (.publish, { b.applied e with
          bboMismatchCount := recount b.bboMismatchCount (b.applied e).compared })
      else
        (.needSnapshot, { b.applied e with
          bboMismatchCount := recount b.bboMismatchCount (b.applied e).compared
         }.fallBackToBuffering e) := by
  have hchecked : (b.applied e).checkIntegrity =
      (decide (recount b.bboMismatchCount (b.applied e).compared < bboMismatchThreshold),
        { b.applied e with
          bboMismatchCount := recount b.bboMismatchCount (b.applied e).compared }) :=
    checkIntegrity_of_uncrossed huncrossed hcount
  rw [onDepth_of_applies happlies, onSequenced, hchecked]
  split_ifs with hbelow
  · rw [decide_eq_true hbelow]
  · rw [decide_eq_false hbelow]

theorem needSnapshot_iff {b : Book} {e : DepthEvent} (happlies : b.Applies e)
    (hcount : b.bboMismatchCount < bboMismatchThreshold) (huncrossed : ¬ (b.applied e).Crossed) :
    (b.onDepth e).1 = .needSnapshot ↔
      (b.applied e).compared = some true ∧ bboMismatchThreshold ≤ b.bboMismatchCount + 1 := by
  rw [← not_recount_lt_iff hcount, onDepth_of_uncrossed happlies hcount huncrossed]
  split_ifs with hbelow
  · exact iff_of_false (by simp) (not_not_intro hbelow)
  · exact iff_of_true rfl hbelow

theorem uncrossed_of_live {b : Book} {e : DepthEvent} (happlies : b.Applies e)
    (hlive : (b.onDepth e).2.state = .live) : ¬ (b.applied e).Crossed := by
  have hstep := onDepth_step b e
  generalize (b.onDepth e).1 = action, (b.onDepth e).2 = b' at hstep hlive
  cases hstep with
  | first hstate => simp at hlive
  | buffered hstate => simp [hstate] at hlive
  | stale hstate hu => exact absurd happlies.2.1 (Nat.not_lt.mpr hu)
  | gap hstate hu hfirst hpu => simp at hlive
  | rejected hstate hu hchain crossed mismatch => simp at hlive
  | published hstate hu hchain crossed mismatch huncrossed hmismatch => exact huncrossed

theorem bboMismatchCount_onDepth {b : Book} {e : DepthEvent} (happlies : b.Applies e)
    (hcount : b.bboMismatchCount < bboMismatchThreshold)
    (hlive : (b.onDepth e).2.state = .live) :
    (b.onDepth e).2.bboMismatchCount = recount b.bboMismatchCount (b.applied e).compared := by
  have huncrossed := uncrossed_of_live happlies hlive
  rw [onDepth_of_uncrossed happlies hcount huncrossed] at hlive ⊢
  split_ifs at hlive ⊢ with hbelow
  · rfl
  · simp at hlive

theorem onDepth_of_not_applies {b : Book} {e : DepthEvent} (hnot : ¬ b.Applies e)
    (hlive : (b.onDepth e).2.state = .live) : (b.onDepth e).2 = b := by
  have hstep := onDepth_step b e
  generalize (b.onDepth e).1 = action, (b.onDepth e).2 = b' at hstep hlive ⊢
  cases hstep with
  | first hstate => simp at hlive
  | buffered hstate => simp [hstate] at hlive
  | stale hstate hu => rfl
  | gap hstate hu hfirst hpu => simp at hlive
  | rejected hstate hu hchain crossed mismatch => exact absurd ⟨hstate, hu, hchain⟩ hnot
  | published hstate hu hchain crossed mismatch huncrossed hmismatch =>
      exact absurd ⟨hstate, hu, hchain⟩ hnot

theorem bboMismatchCount_onSnapshot {b : Book} {lastUpdateId : Nat} {bids asks : Levels}
    (h : b.GoesLive (.onSnapshot lastUpdateId bids asks)) :
    (b.onSnapshot lastUpdateId bids asks).2.bboMismatchCount =
      recount 0 (b.onSnapshot lastUpdateId bids asks).2.compared := by
  obtain ⟨hbridge, huncrossed⟩ := (goesLive_iff h.1 lastUpdateId bids asks).mp h
  rw [← view_synced, uncrossed_view_iff] at huncrossed
  have hcount : (b.synced lastUpdateId bids asks).bboMismatchCount = 0 := rfl
  have hchecked := checkIntegrity_of_uncrossed huncrossed (by rw [hcount]; decide)
  have hpasses : recount 0 (b.synced lastUpdateId bids asks).compared < bboMismatchThreshold := by
    rcases (b.synced lastUpdateId bids asks).compared with _ | (_ | _) <;> decide
  rw [onSnapshot_of_bridged h.1 hbridge, hchecked, hcount, decide_eq_true hpasses, if_pos rfl]
  rfl

def CountsStreak (b : Book) (history : List Bool) : Prop :=
  b.state = .live → b.bboMismatchCount = streak history

theorem countsStreak_call {b : Book} {history : List Bool} (hwf : b.WellFormed)
    (h : b.CountsStreak history) (op : BookOp) :
    (b.call op).2.CountsStreak (b.noteComparison op history) := by
  intro hlive
  cases op with
  | onDepth e =>
      simp only [call] at hlive ⊢
      by_cases happlies : b.Applies e
      · rw [bboMismatchCount_onDepth happlies (hwf.live happlies.1).2.2.1 hlive, h happlies.1,
          ← streak_append, noteComparison, if_pos happlies]
      · have hkept := onDepth_of_not_applies happlies hlive
        rw [hkept] at hlive ⊢
        rw [noteComparison, if_neg happlies]
        exact h hlive
  | onSnapshot lastUpdateId bids asks =>
      simp only [call] at hlive ⊢
      by_cases hgoes : b.GoesLive (.onSnapshot lastUpdateId bids asks)
      · have hfirst := streak_append (b.onSnapshot lastUpdateId bids asks).2.compared []
        rw [List.append_nil] at hfirst
        rw [bboMismatchCount_onSnapshot hgoes, noteComparison, if_pos hgoes, hfirst]
        rfl
      · have hnot : b.state ≠ .buffering := fun hstate => hgoes ⟨hstate, hlive⟩
        rw [onSnapshot_of_not_buffering hnot] at hlive ⊢
        rw [noteComparison, if_neg hgoes]
        exact h hlive
  | setTickerBbo bid ask => exact h hlive
  | markForResync => simp [call, Book.markForResync] at hlive
  | reset => simp [call, Book.reset] at hlive

theorem countsStreak_reachable {symbol : String} {s : Book × List Bool}
    (hs : (comparing symbol).Reachable s) : s.1.CountsStreak s.2 := by
  refine hs.invariant_of_reachable (I := fun s => s.1.CountsStreak s.2) ?_ fun s op hr h _ =>
    countsStreak_call (wellFormed_reachable hr.of_withGhost) h op
  rintro ⟨b, history⟩ ⟨rfl, rfl⟩
  intro hlive
  simp [new] at hlive

/-- An applied diff that leaves the book uncrossed asks for a snapshot exactly when it makes
the tenth mismatch in a row since the book last went live. -/
theorem diverges_at_ten {symbol : String} {s : Book × List Bool}
    (hs : (comparing symbol).Reachable s) :
    (s.1.state = .live → s.1.bboMismatchCount = (s.2.takeWhile id).length) ∧
    ∀ e, s.1.Applies e → ¬ (s.1.applied e).Crossed →
      ((s.1.onDepth e).1 = .needSnapshot ↔
        (s.1.applied e).compared = some true ∧ List.replicate 9 true <+: s.2) := by
  have hcounts := countsStreak_reachable hs
  have hwf := wellFormed_reachable hs.of_withGhost
  refine ⟨hcounts, fun e happlies huncrossed => ?_⟩
  rw [needSnapshot_iff happlies (hwf.live happlies.1).2.2.1 huncrossed, hcounts happlies.1,
    ← le_streak_iff]
  unfold bboMismatchThreshold
  exact and_congr_right' (by omega)

instance (b : Book) : Decidable b.Crossed :=
  decidable_of_iff
    ((b.bids.maxKey?.any fun bid => b.asks.minKey?.any fun ask => decide (ask ≤ bid)) = true)
    (by simp [Crossed, Option.any_eq_true])

/-- A book that goes live one off the ticker, and eight events that leave it there. -/
def divergingRun : List BookOp :=
  [.onDepth ⟨1, 1, 0, [], []⟩, .setTickerBbo (.whole 75) (.whole 80),
    .onSnapshot 1 [(.whole 70, .one)] [(.whole 80, .one)]] ++
  (List.range 8).map fun i => .onDepth ⟨i + 2, i + 2, i + 1, [], []⟩

/-- The ninth event makes the tenth comparison. -/
theorem diverges_at_ten_ninth_event :
    (((comparing "BTCUSDT").exec (new "BTCUSDT", []) divergingRun).1.onDepth
      ⟨10, 10, 9, [], []⟩).1 = .needSnapshot := by
  have hreachable := Machine.reachable_of_enabled (m := comparing "BTCUSDT")
    (s := (new "BTCUSDT", [])) (fun _ _ => trivial) ⟨rfl, rfl⟩ divergingRun
  exact ((diverges_at_ten hreachable).2 ⟨10, 10, 9, [], []⟩ (by decide +kernel)
    (by decide +kernel)).mpr ⟨by decide +kernel, by decide +kernel⟩

end Book

end FeedHandler
