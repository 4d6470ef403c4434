import FeedHandler.Book.Steps
/-!
# Where the levels of a book come from

A book never makes up a number. A price it keeps is spelt as some level handed in spells
it, its quantity is one that came with that price and is not zero, and both came after the
book was last cleared: no level outlives a reset. A diff may bring a negative quantity, and
the book keeps it.
-/

namespace FeedHandler

open Lib

/-- The level is put together from levels that were handed in. -/
structure Given (fed : Levels) (level : Decimal × Decimal) : Prop where
  price : ∃ qty, (level.1, qty) ∈ fed
  qty : ∃ price, price.units = level.1.units ∧ (price, level.2) ∈ fed
  nonzero : level.2.isZero = false

theorem Given.mono {fed fed' : Levels} {level : Decimal × Decimal} (h : Given fed level)
    (hsub : fed ⊆ fed') : Given fed' level where
  price := h.price.imp fun _ hmem => hsub hmem
  qty := h.qty.imp fun _ hmem => ⟨hmem.1, hsub hmem.2⟩
  nonzero := h.nonzero

namespace Side

/-- Every level kept was handed in. -/
def Given (fed : Levels) (side : Side) : Prop :=
  ∀ level ∈ side.entries, FeedHandler.Given fed level

theorem given_empty (fed : Levels) : Given fed OrderedMap.empty := by
  intro level hlevel
  simp at hlevel

theorem given_insert {fed : Levels} {side : Side} (h : side.Given fed)
    {level : Decimal × Decimal} (hlevel : level ∈ fed) (hnonzero : level.2.isZero = false) :
    Given fed (side.insert level.1 level.2) := by
  intro kept hkept
  rcases OrderedMap.mem_insert hkept with hold | ⟨hrank, hqty, hkey⟩
  · exact h kept hold
  · constructor
    · rcases hkey with hnew | ⟨qty, hold⟩
      · exact ⟨level.2, hnew ▸ hlevel⟩
      · exact (h _ hold).price
    · exact ⟨level.1, hrank.symm, hqty ▸ hlevel⟩
    · exact hqty ▸ hnonzero

theorem given_applyLevel {fed : Levels} {side : Side} (h : side.Given fed)
    {level : Decimal × Decimal} (hlevel : level ∈ fed) : (side.applyLevel level).Given fed := by
  unfold applyLevel
  split_ifs with hzero
  · intro kept hkept
    exact h kept (List.mem_of_mem_filter hkept)
  · exact given_insert h hlevel (Bool.not_eq_true _ ▸ hzero)

theorem given_applyLevels {fed : Levels} {side : Side} (h : side.Given fed) {levels : Levels}
    (hlevels : levels ⊆ fed) : (side.applyLevels levels).Given fed := by
  induction levels generalizing side with
  | nil => exact h
  | cons level levels ih =>
      obtain ⟨hlevel, hrest⟩ := List.cons_subset.mp hlevels
      exact ih (given_applyLevel h hlevel) hrest

theorem given_load {fed levels : Levels} (hlevels : levels ⊆ fed) : (load levels).Given fed := by
  have hfold : ∀ side : Side, side.Given fed → (levels.foldl loadLevel side).Given fed := by
    induction levels with
    | nil => exact fun _ h => h
    | cons level levels ih =>
        intro side h
        obtain ⟨hlevel, hrest⟩ := List.cons_subset.mp hlevels
        apply ih hrest
        unfold loadLevel
        split_ifs with hpositive
        · apply given_insert h hlevel
          have hunits : Decimal.zero.units < level.2.units := hpositive
          rw [Decimal.units_zero] at hunits
          rw [Decimal.isZero_eq_false]
          omega
        · exact h
  exact hfold _ (given_empty fed)

end Side

namespace BookOp

def bids : BookOp → Levels
  | onDepth e => e.bids
  | onSnapshot _ bids _ => bids
  | setTickerBbo _ _ | markForResync | reset => []

def asks : BookOp → Levels
  | onDepth e => e.asks
  | onSnapshot _ _ asks => asks
  | setTickerBbo _ _ | markForResync | reset => []

def clears : BookOp → Bool
  | markForResync | reset => true
  | onDepth _ | onSnapshot _ _ _ | setTickerBbo _ _ => false

def fed (side : BookOp → Levels) (sofar : Levels) (op : BookOp) : Levels :=
  if op.clears then [] else sofar ++ side op

end BookOp

namespace Book

structure Sourced (fedBids fedAsks : Levels) (b : Book) : Prop where
  bids : b.bids.Given fedBids
  asks : b.asks.Given fedAsks
  buffer : ∀ e ∈ b.buffer, e.bids ⊆ fedBids ∧ e.asks ⊆ fedAsks

namespace Sourced

variable {fedBids fedAsks : Levels} {b : Book}

theorem append (h : b.Sourced fedBids fedAsks) (bids asks : Levels) :
    b.Sourced (fedBids ++ bids) (fedAsks ++ asks) where
  bids level hlevel := (h.bids level hlevel).mono (List.subset_append_left _ _)
  asks level hlevel := (h.asks level hlevel).mono (List.subset_append_left _ _)
  buffer e he :=
    ⟨List.subset_append_of_subset_left _ (h.buffer e he).1,
      List.subset_append_of_subset_left _ (h.buffer e he).2⟩

theorem cleared (b : Book) : b.reset.Sourced [] [] where
  bids := Side.given_empty []
  asks := Side.given_empty []
  buffer e he := by simp [reset] at he

theorem pushed (h : b.Sourced fedBids fedAsks) {e : DepthEvent} (hbids : e.bids ⊆ fedBids)
    (hasks : e.asks ⊆ fedAsks) :
    ∀ d ∈ Book.pushed b.buffer e, d.bids ⊆ fedBids ∧ d.asks ⊆ fedAsks := by
  intro d hd
  rcases mem_pushed hd with hold | rfl
  · exact h.buffer d hold
  · exact ⟨hbids, hasks⟩

theorem applyEvent (h : b.Sourced fedBids fedAsks) {e : DepthEvent} (hbids : e.bids ⊆ fedBids)
    (hasks : e.asks ⊆ fedAsks) : (b.applyEvent e).Sourced fedBids fedAsks where
  bids := Side.given_applyLevels h.bids hbids
  asks := Side.given_applyLevels h.asks hasks
  buffer := h.buffer

theorem onDepth (h : b.Sourced fedBids fedAsks) {e : DepthEvent} (hbids : e.bids ⊆ fedBids)
    (hasks : e.asks ⊆ fedAsks) : (b.onDepth e).2.Sourced fedBids fedAsks := by
  have hpushed := h.pushed hbids hasks
  have hone : ∀ d ∈ [e], d.bids ⊆ fedBids ∧ d.asks ⊆ fedAsks := by
    intro d hd
    rw [List.mem_singleton.mp hd]
    exact ⟨hbids, hasks⟩
  have happlied := h.applyEvent hbids hasks
  have hstep := onDepth_step b e
  generalize (b.onDepth e).1 = action, (b.onDepth e).2 = b' at hstep
  cases hstep with
  | first hstate => exact ⟨by simpa using h.bids, by simpa using h.asks, by simpa using hpushed⟩
  | buffered hstate =>
      exact ⟨by simpa using h.bids, by simpa using h.asks, by simpa using hpushed⟩
  | stale hstate hu => exact h
  | gap hstate hu hfirst hpu =>
      exact ⟨by simpa using h.bids, by simpa using h.asks, by simpa using hone⟩
  | rejected hstate hu hchain crossed mismatch =>
      rw [fallBackToBuffering_eq]
      exact ⟨happlied.bids, happlied.asks, hone⟩
  | published hstate hu hchain crossed mismatch huncrossed hmismatch =>
      exact ⟨happlied.bids, happlied.asks, happlied.buffer⟩

theorem replay (h : b.Sourced fedBids fedAsks) (lastUpdateId : Nat) {buffer : List DepthEvent}
    (hbuffer : ∀ e ∈ buffer, e.bids ⊆ fedBids ∧ e.asks ⊆ fedAsks) (appliedAny : Bool) :
    match Book.replay lastUpdateId buffer appliedAny b with
    | .refused b' => b'.Sourced fedBids fedAsks
    | .done _ b' => b'.Sourced fedBids fedAsks := by
  induction buffer generalizing b appliedAny with
  | nil => exact h
  | cons e buffer ih =>
      obtain ⟨⟨hbids, hasks⟩, hrest⟩ := List.forall_mem_cons.mp hbuffer
      unfold Book.replay
      split_ifs
      · exact ih h hrest appliedAny
      · exact h
      · exact h
      · exact ih (h.applyEvent hbids hasks) hrest true

theorem onSnapshot (h : b.Sourced fedBids fedAsks) (lastUpdateId : Nat) {bids asks : Levels}
    (hbids : bids ⊆ fedBids) (hasks : asks ⊆ fedAsks) :
    (b.onSnapshot lastUpdateId bids asks).2.Sourced fedBids fedAsks := by
  have hloaded : (b.loadSnapshot lastUpdateId bids asks).Sourced fedBids fedAsks :=
    ⟨Side.given_load hbids, Side.given_load hasks, by simp [loadSnapshot]⟩
  have hreplay := hloaded.replay lastUpdateId h.buffer false
  unfold Book.onSnapshot
  split_ifs
  · exact h
  · generalize Book.replay lastUpdateId b.buffer false
      (b.loadSnapshot lastUpdateId bids asks) = outcome at hreplay ⊢
    cases outcome with
    | refused b' => exact hreplay
    | done appliedAny b' =>
        obtain ⟨crossed, mismatch, hbook, -⟩ := checkIntegrity_spec (b'.goLive appliedAny)
        dsimp only at hreplay ⊢
        generalize (b'.goLive appliedAny).checkIntegrity = result at hbook ⊢
        obtain ⟨ok, checked⟩ := result
        dsimp only at hbook
        subst hbook
        cases ok <;> exact ⟨hreplay.bids, hreplay.asks, hreplay.buffer⟩

theorem call (h : b.Sourced fedBids fedAsks) (op : BookOp) :
    (b.call op).2.Sourced (BookOp.fed BookOp.bids fedBids op)
      (BookOp.fed BookOp.asks fedAsks op) := by
  have hmore := h.append op.bids op.asks
  have hbids : op.bids ⊆ fedBids ++ op.bids := List.subset_append_right _ _
  have hasks : op.asks ⊆ fedAsks ++ op.asks := List.subset_append_right _ _
  cases op with
  | onDepth e => exact hmore.onDepth hbids hasks
  | onSnapshot lastUpdateId bids asks => exact hmore.onSnapshot lastUpdateId hbids hasks
  | setTickerBbo bid ask => exact ⟨hmore.bids, hmore.asks, hmore.buffer⟩
  | markForResync => exact ⟨(cleared b).bids, (cleared b).asks, (cleared b).buffer⟩
  | reset => exact cleared b

theorem final (h : b.Sourced fedBids fedAsks) (ops : List BookOp) :
    (Lib.final Book.call b ops).Sourced (ops.foldl (BookOp.fed BookOp.bids) fedBids)
      (ops.foldl (BookOp.fed BookOp.asks) fedAsks) := by
  induction ops generalizing b fedBids fedAsks with
  | nil => exact h
  | cons op ops ih => exact ih (h.call op)

end Sourced

theorem sourced_new (symbol : String) : (new symbol).Sourced [] [] where
  bids := Side.given_empty []
  asks := Side.given_empty []
  buffer e he := by simp [new] at he

/-- Whatever is called, in whatever order, a level that is shown was handed in to that
side since the book was last cleared: its price digit for digit, its quantity, which is not
zero, with a price of that value. -/
theorem shown_levels_were_given (symbol : String) (ops : List BookOp) (n : Nat) :
    let b := final call (new symbol) ops
    (∀ level ∈ (b.topLevels n).1, Given (ops.foldl (BookOp.fed BookOp.bids) []) level) ∧
      ∀ level ∈ (b.topLevels n).2, Given (ops.foldl (BookOp.fed BookOp.asks) []) level := by
  intro b
  have hsourced := (sourced_new symbol).final ops
  constructor
  · intro level hlevel
    exact hsourced.bids level (List.mem_reverse.mp (List.mem_of_mem_take hlevel))
  · intro level hlevel
    exact hsourced.asks level (List.mem_of_mem_take hlevel)

end Book

end FeedHandler
