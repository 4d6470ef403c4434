import FeedHandler.Book.Basic
/-!
# What each book operation can do

One lemma per operation of `Book`, listing its outcomes with the guards under
which they happen. Everything proved about runs goes through these lists and
never unfolds an operation again. `pending`, `Bridged` and `synced` say in one
piece what the replay loop of `onSnapshot` computes event by event.
-/

namespace FeedHandler

open Lib

namespace Book

/-! ## The resync buffer -/

def pushed (buffer : List DepthEvent) (e : DepthEvent) : List DepthEvent :=
  if buffer.length ≥ bufferMax then buffer.tail ++ [e] else buffer ++ [e]

@[simp] theorem bufferPush_eq (b : Book) (e : DepthEvent) :
    b.bufferPush e = { b with
      buffer := pushed b.buffer e
      bufferDropped :=
        if b.buffer.length ≥ bufferMax then b.bufferDropped + 1 else b.bufferDropped } := by
  unfold bufferPush pushed
  split_ifs <;> rfl

@[simp] theorem pushed_nil (e : DepthEvent) : pushed [] e = [e] := by
  simp [pushed, bufferMax]

theorem pushed_of_lt {buffer : List DepthEvent} (e : DepthEvent)
    (h : buffer.length < bufferMax) : pushed buffer e = buffer ++ [e] := by
  rw [pushed, if_neg (by omega)]

theorem length_pushed_le {buffer : List DepthEvent} (e : DepthEvent)
    (h : buffer.length ≤ bufferMax) : (pushed buffer e).length ≤ bufferMax := by
  unfold pushed
  split_ifs with hfull
  · have hmax : 0 < bufferMax := by decide
    simp only [List.length_append, List.length_tail, List.length_singleton]
    omega
  · simp only [List.length_append, List.length_singleton]
    omega

theorem pushed_suffix (buffer : List DepthEvent) (e : DepthEvent) :
    ∃ kept, kept <:+ buffer ∧ pushed buffer e = kept ++ [e] := by
  unfold pushed
  split_ifs
  · exact ⟨buffer.tail, List.tail_suffix buffer, rfl⟩
  · exact ⟨buffer, List.suffix_refl buffer, rfl⟩

theorem mem_pushed {buffer : List DepthEvent} {e d : DepthEvent} (h : d ∈ pushed buffer e) :
    d ∈ buffer ∨ d = e := by
  obtain ⟨kept, hkept, heq⟩ := pushed_suffix buffer e
  rw [heq, List.mem_append, List.mem_singleton] at h
  exact h.imp_left fun hd => hkept.subset hd

@[simp] theorem fallBackToBuffering_eq (b : Book) (e : DepthEvent) :
    b.fallBackToBuffering e =
      { b with state := .buffering, buffer := [e], bboMismatchCount := 0 } := by
  simp [fallBackToBuffering, bufferMax]

/-! ## Applying diffs -/

def applyEvent (b : Book) (e : DepthEvent) : Book := b.applyDiff e.bids e.asks e.u

theorem applyEvent_eq (b : Book) (e : DepthEvent) :
    b.applyEvent e = { b with
      bids := b.bids.applyLevels e.bids
      asks := b.asks.applyLevels e.asks
      lastUpdateId := e.u } := rfl

theorem foldl_applyEvent_eq (b : Book) (es : List DepthEvent) :
    ∃ bids asks last, es.foldl applyEvent b =
      { b with bids := bids, asks := asks, lastUpdateId := last } := by
  induction es generalizing b with
  | nil => exact ⟨b.bids, b.asks, b.lastUpdateId, rfl⟩
  | cons e es ih =>
      obtain ⟨bids, asks, last, h⟩ := ih (b.applyEvent e)
      exact ⟨bids, asks, last, by rw [List.foldl_cons, h, applyEvent_eq]⟩

/-! ## The integrity check -/

/-- Both sides are there and the best bid reaches the best ask. -/
def Crossed (b : Book) : Prop :=
  ∃ bid ask, b.bids.maxKey? = some bid ∧ b.asks.minKey? = some ask ∧ ask ≤ bid

/-- The check writes two counters only. When it passes, the book is uncrossed
and the mismatch counter is still below the threshold. -/
theorem checkIntegrity_spec (b : Book) : ∃ crossed mismatch,
    b.checkIntegrity.2 = { b with crossedCount := crossed, bboMismatchCount := mismatch } ∧
    (b.checkIntegrity.1 = true → ¬ b.Crossed ∧
      (b.bboMismatchCount < bboMismatchThreshold → mismatch < bboMismatchThreshold)) := by
  have hpos : 0 < bboMismatchThreshold := by decide
  unfold checkIntegrity Crossed
  cases hbid : b.bids.maxKey? with
  | none => exact ⟨b.crossedCount, b.bboMismatchCount, rfl, by simp⟩
  | some bid =>
      cases hask : b.asks.minKey? with
      | none => exact ⟨b.crossedCount, b.bboMismatchCount, rfl, by simp⟩
      | some ask =>
          dsimp only
          split_ifs with hcrossed hticker hdiffers
          · exact ⟨b.crossedCount + 1, b.bboMismatchCount, rfl, by simp⟩
          · refine ⟨b.crossedCount, b.bboMismatchCount + 1, rfl, fun hlt => ?_⟩
            exact ⟨by simpa using hcrossed, fun _ => by simpa using hlt⟩
          · exact ⟨b.crossedCount, 0, rfl, by simpa [hpos] using hcrossed⟩
          · exact ⟨b.crossedCount, b.bboMismatchCount, rfl, by simpa using hcrossed⟩

theorem checkIntegrity_of_no_ticker {b : Book} (hticker : b.tickerBid.isZero = true)
    (hb : ¬ b.Crossed) : b.checkIntegrity = (true, b) := by
  unfold checkIntegrity
  cases hbid : b.bids.maxKey? with
  | none => rfl
  | some bid =>
      cases hask : b.asks.minKey? with
      | none => rfl
      | some ask =>
          have hlt : ¬ ask ≤ bid := fun hle => hb ⟨bid, ask, hbid, hask, hle⟩
          simp [hlt, hticker]

/-! ## `onDepth` -/

inductive DepthStep (b : Book) (e : DepthEvent) : Action → Book → Prop
  | first (hstate : b.state = .uninitialized) :
      DepthStep b e .needSnapshot ({ b with state := .buffering }.bufferPush e)
  | buffered (hstate : b.state = .buffering) : DepthStep b e .none_ (b.bufferPush e)
  | stale (hstate : b.state = .live) (hu : e.u ≤ b.lastUpdateId) : DepthStep b e .none_ b
  | gap (hstate : b.state = .live) (hu : b.lastUpdateId < e.u)
      (hfirst : b.needFirstEvent = false) (hpu : e.pu ≠ b.lastUpdateId) :
      DepthStep b e .needSnapshot
        ({ b with gapCount := b.gapCount + 1 }.fallBackToBuffering e)
  | rejected (hstate : b.state = .live) (hu : b.lastUpdateId < e.u)
      (hchain : b.needFirstEvent = true ∨ e.pu = b.lastUpdateId) (crossed mismatch : Nat) :
      DepthStep b e .needSnapshot
        ({ b.applied e with crossedCount := crossed, bboMismatchCount := mismatch
         }.fallBackToBuffering e)
  | published (hstate : b.state = .live) (hu : b.lastUpdateId < e.u)
      (hchain : b.needFirstEvent = true ∨ e.pu = b.lastUpdateId) (crossed mismatch : Nat)
      (huncrossed : ¬ (b.applied e).Crossed)
      (hmismatch : b.bboMismatchCount < bboMismatchThreshold →
        mismatch < bboMismatchThreshold) :
      DepthStep b e .publish
        { b.applied e with crossedCount := crossed, bboMismatchCount := mismatch }

theorem onLiveDepth_step {b : Book} (e : DepthEvent) (hstate : b.state = .live) :
    DepthStep b e (b.onLiveDepth e).1 (b.onLiveDepth e).2 := by
  obtain ⟨crossed, mismatch, hbook, hok⟩ := checkIntegrity_spec (b.applied e)
  unfold onLiveDepth onSequenced
  split_ifs with hu hgap
  · exact .stale hstate hu
  · simp only [Bool.and_eq_true, Bool.not_eq_true', bne_iff_ne] at hgap
    exact .gap hstate (by omega) hgap.1 hgap.2
  · have hchain : b.needFirstEvent = true ∨ e.pu = b.lastUpdateId := by
      cases hfirst : b.needFirstEvent <;> simp_all
    generalize (b.applied e).checkIntegrity = result at hbook hok ⊢
    obtain ⟨ok, checked⟩ := result
    dsimp only at hbook hok ⊢
    subst hbook
    cases ok with
    | true =>
        obtain ⟨huncrossed, hmismatch⟩ := hok rfl
        exact .published hstate (by omega) hchain crossed mismatch huncrossed hmismatch
    | false => exact .rejected hstate (by omega) hchain crossed mismatch

theorem onDepth_step (b : Book) (e : DepthEvent) :
    DepthStep b e (b.onDepth e).1 (b.onDepth e).2 := by
  unfold onDepth
  split
  next hstate => exact .first hstate
  next hstate => exact .buffered hstate
  next hstate => exact onLiveDepth_step e hstate

theorem onDepth_of_stale {b : Book} {e : DepthEvent} (hstate : b.state = .live)
    (hu : e.u ≤ b.lastUpdateId) : b.onDepth e = (.none_, b) := by
  simp only [onDepth, hstate, onLiveDepth, if_pos hu]

theorem onDepth_of_no_ticker {b : Book} {e : DepthEvent} (hstate : b.state = .live)
    (hu : b.lastUpdateId < e.u) (hchain : b.needFirstEvent = true ∨ e.pu = b.lastUpdateId)
    (hticker : b.tickerBid.isZero = true) (huncrossed : ¬ (b.applied e).Crossed) :
    b.onDepth e = (.publish, b.applied e) := by
  have hgap : (!b.needFirstEvent && e.pu != b.lastUpdateId) = false := by
    rcases hchain with hfirst | hpu <;> simp [*]
  have hchecked := checkIntegrity_of_no_ticker (b := b.applied e) hticker huncrossed
  simp only [onDepth, hstate, onLiveDepth, onSequenced, if_neg (Nat.not_le.mpr hu), hgap, hchecked]
  rfl

/-! ## `onSnapshot` -/

/-- The buffered events a snapshot at `lastUpdateId` does not cover in full. -/
def pending (lastUpdateId : Nat) (buffer : List DepthEvent) : List DepthEvent :=
  buffer.filter fun e => lastUpdateId ≤ e.u

/-- Each event's `pu` is the `u` of the one before, starting from `u`. -/
def Chained : Nat → List DepthEvent → Prop
  | _, [] => True
  | u, e :: es => e.pu = u ∧ Chained e.u es

/-- The first event straddles the snapshot and the others chain from it. -/
def Bridged (lastUpdateId : Nat) : List DepthEvent → Prop
  | [] => True
  | e :: es => e.U ≤ lastUpdateId ∧ Chained e.u es

/-- The book an accepted snapshot leaves to the integrity check. -/
def synced (b : Book) (lastUpdateId : Nat) (bids asks : Levels) : Book :=
  ((pending lastUpdateId b.buffer).foldl applyEvent
    (b.loadSnapshot lastUpdateId bids asks)).goLive !(pending lastUpdateId b.buffer).isEmpty

@[simp] theorem pending_nil (lastUpdateId : Nat) : pending lastUpdateId [] = [] := rfl

theorem pending_cons (lastUpdateId : Nat) (e : DepthEvent) (es : List DepthEvent) :
    pending lastUpdateId (e :: es) =
      if lastUpdateId ≤ e.u then e :: pending lastUpdateId es else pending lastUpdateId es := by
  simp [pending, List.filter_cons]

theorem replay_true (lastUpdateId : Nat) (buffer : List DepthEvent) (b : Book) :
    (Chained b.lastUpdateId (pending lastUpdateId buffer) ∧
      replay lastUpdateId buffer true b =
        .done true ((pending lastUpdateId buffer).foldl applyEvent b)) ∨
    (¬ Chained b.lastUpdateId (pending lastUpdateId buffer) ∧
      ∃ bids asks last, replay lastUpdateId buffer true b =
        .refused { b with bids := bids, asks := asks, lastUpdateId := last }) := by
  induction buffer generalizing b with
  | nil => exact Or.inl ⟨trivial, rfl⟩
  | cons e buffer ih =>
      by_cases hold : e.u < lastUpdateId
      · have hpending : pending lastUpdateId (e :: buffer) = pending lastUpdateId buffer := by
          rw [pending_cons, if_neg (by omega)]
        have hreplay : replay lastUpdateId (e :: buffer) true b =
            replay lastUpdateId buffer true b := by simp [replay, hold]
        rw [hpending, hreplay]
        exact ih b
      · have hpending : pending lastUpdateId (e :: buffer) =
            e :: pending lastUpdateId buffer := by rw [pending_cons, if_pos (by omega)]
        rw [hpending]
        by_cases hpu : e.pu = b.lastUpdateId
        · have hreplay : replay lastUpdateId (e :: buffer) true b =
              replay lastUpdateId buffer true (b.applyEvent e) := by
            simp [replay, hold, hpu, applyEvent]
          rw [hreplay]
          rcases ih (b.applyEvent e) with ⟨hchain, hdone⟩ | ⟨hchain, bids, asks, last, hrefused⟩
          · exact Or.inl ⟨⟨hpu, hchain⟩, by rw [hdone, List.foldl_cons]⟩
          · exact Or.inr ⟨fun h => hchain h.2, bids, asks, last, by
              rw [hrefused, applyEvent_eq]⟩
        · refine Or.inr ⟨fun h => hpu h.1, b.bids, b.asks, b.lastUpdateId, ?_⟩
          simp [replay, hold, hpu]

/-- The whole replay loop: it goes through exactly on a bridged buffer. -/
theorem replay_false (lastUpdateId : Nat) (buffer : List DepthEvent) (b : Book) :
    (Bridged lastUpdateId (pending lastUpdateId buffer) ∧
      replay lastUpdateId buffer false b =
        .done (!(pending lastUpdateId buffer).isEmpty)
          ((pending lastUpdateId buffer).foldl applyEvent b)) ∨
    (¬ Bridged lastUpdateId (pending lastUpdateId buffer) ∧
      ∃ bids asks last, replay lastUpdateId buffer false b =
        .refused { b with bids := bids, asks := asks, lastUpdateId := last }) := by
  induction buffer with
  | nil => exact Or.inl ⟨trivial, rfl⟩
  | cons e buffer ih =>
      by_cases hold : e.u < lastUpdateId
      · have hpending : pending lastUpdateId (e :: buffer) = pending lastUpdateId buffer := by
          rw [pending_cons, if_neg (by omega)]
        have hreplay : replay lastUpdateId (e :: buffer) false b =
            replay lastUpdateId buffer false b := by simp [replay, hold]
        rw [hpending, hreplay]
        exact ih
      · have hpending : pending lastUpdateId (e :: buffer) =
            e :: pending lastUpdateId buffer := by rw [pending_cons, if_pos (by omega)]
        rw [hpending]
        by_cases hU : e.U ≤ lastUpdateId
        · have hreplay : replay lastUpdateId (e :: buffer) false b =
              replay lastUpdateId buffer true (b.applyEvent e) := by
            simp [replay, hold, hU, applyEvent]
          rw [hreplay]
          rcases replay_true lastUpdateId buffer (b.applyEvent e) with
            ⟨hchain, hdone⟩ | ⟨hchain, bids, asks, last, hrefused⟩
          · exact Or.inl ⟨⟨hU, hchain⟩, by rw [hdone, List.foldl_cons]; rfl⟩
          · exact Or.inr ⟨fun h => hchain h.2, bids, asks, last, by
              rw [hrefused, applyEvent_eq]⟩
        · refine Or.inr ⟨fun h => hU h.1, b.bids, b.asks, b.lastUpdateId, ?_⟩
          simp [replay, hold, hU]

theorem synced_eq (b : Book) (lastUpdateId : Nat) (bids asks : Levels) :
    ∃ bids' asks' last, b.synced lastUpdateId bids asks =
      { (b.loadSnapshot lastUpdateId bids asks).goLive
          (!(pending lastUpdateId b.buffer).isEmpty) with
        bids := bids', asks := asks', lastUpdateId := last } := by
  obtain ⟨bids', asks', last, hfold⟩ := foldl_applyEvent_eq
    (b.loadSnapshot lastUpdateId bids asks) (pending lastUpdateId b.buffer)
  exact ⟨bids', asks', last, by rw [synced, hfold]; rfl⟩

@[simp] theorem state_synced (b : Book) (lastUpdateId : Nat) (bids asks : Levels) :
    (b.synced lastUpdateId bids asks).state = .live := rfl

@[simp] theorem buffer_synced (b : Book) (lastUpdateId : Nat) (bids asks : Levels) :
    (b.synced lastUpdateId bids asks).buffer = [] := by
  obtain ⟨bids', asks', last, heq⟩ := synced_eq b lastUpdateId bids asks
  rw [heq]
  rfl

@[simp] theorem gapCount_synced (b : Book) (lastUpdateId : Nat) (bids asks : Levels) :
    (b.synced lastUpdateId bids asks).gapCount = b.gapCount := by
  obtain ⟨bids', asks', last, heq⟩ := synced_eq b lastUpdateId bids asks
  rw [heq]
  rfl

inductive SnapshotStep (b : Book) (lastUpdateId : Nat) (bids asks : Levels) :
    Bool → Book → Prop
  | ignored (hstate : b.state ≠ .buffering) : SnapshotStep b lastUpdateId bids asks true b
  | refused (hstate : b.state = .buffering)
      (hbridge : ¬ Bridged lastUpdateId (pending lastUpdateId b.buffer))
      (bids' asks' : Side) (last : Nat) :
      SnapshotStep b lastUpdateId bids asks false
        { b.loadSnapshot lastUpdateId bids asks with
          bids := bids', asks := asks', lastUpdateId := last }
  | rejected (hstate : b.state = .buffering)
      (hbridge : Bridged lastUpdateId (pending lastUpdateId b.buffer))
      (crossed mismatch : Nat) :
      SnapshotStep b lastUpdateId bids asks false
        { b.synced lastUpdateId bids asks with
          state := .buffering, crossedCount := crossed, bboMismatchCount := mismatch }
  | accepted (hstate : b.state = .buffering)
      (hbridge : Bridged lastUpdateId (pending lastUpdateId b.buffer))
      (crossed mismatch : Nat)
      (huncrossed : ¬ (b.synced lastUpdateId bids asks).Crossed)
      (hmismatch : mismatch < bboMismatchThreshold) :
      SnapshotStep b lastUpdateId bids asks true
        { b.synced lastUpdateId bids asks with
          crossedCount := crossed, bboMismatchCount := mismatch }

theorem onSnapshot_of_bridged {b : Book} {lastUpdateId : Nat} {bids asks : Levels}
    (hstate : b.state = .buffering)
    (hbridge : Bridged lastUpdateId (pending lastUpdateId b.buffer)) :
    b.onSnapshot lastUpdateId bids asks =
      ((b.synced lastUpdateId bids asks).checkIntegrity.1,
        if (b.synced lastUpdateId bids asks).checkIntegrity.1 then
          (b.synced lastUpdateId bids asks).checkIntegrity.2
        else { (b.synced lastUpdateId bids asks).checkIntegrity.2 with state := .buffering }) := by
  rcases replay_false lastUpdateId b.buffer (b.loadSnapshot lastUpdateId bids asks) with
    ⟨_, hdone⟩ | ⟨hnot, _⟩
  · have hbuffering : ¬ b.state ≠ .buffering := not_not_intro hstate
    rcases hchecked : (b.synced lastUpdateId bids asks).checkIntegrity with ⟨ok, checked⟩
    have hreplayed : (((pending lastUpdateId b.buffer).foldl applyEvent
        (b.loadSnapshot lastUpdateId bids asks)).goLive
          !(pending lastUpdateId b.buffer).isEmpty).checkIntegrity = (ok, checked) := hchecked
    simp only [onSnapshot, if_neg hbuffering, hdone, hreplayed]
    cases ok with
    | true => rfl
    | false => rfl
  · exact absurd hbridge hnot

theorem onSnapshot_step (b : Book) (lastUpdateId : Nat) (bids asks : Levels) :
    SnapshotStep b lastUpdateId bids asks (b.onSnapshot lastUpdateId bids asks).1
      (b.onSnapshot lastUpdateId bids asks).2 := by
  by_cases hstate : b.state = .buffering
  · by_cases hbridge : Bridged lastUpdateId (pending lastUpdateId b.buffer)
    · obtain ⟨crossed, mismatch, hbook, hok⟩ :=
        checkIntegrity_spec (b.synced lastUpdateId bids asks)
      rw [onSnapshot_of_bridged hstate hbridge]
      generalize (b.synced lastUpdateId bids asks).checkIntegrity = result at hbook hok ⊢
      obtain ⟨ok, checked⟩ := result
      dsimp only at hbook hok ⊢
      subst hbook
      cases ok with
      | true =>
          obtain ⟨huncrossed, hmismatch⟩ := hok rfl
          exact .accepted hstate hbridge crossed mismatch huncrossed
            (hmismatch (show 0 < bboMismatchThreshold by decide))
      | false => exact .rejected hstate hbridge crossed mismatch
    · rcases replay_false lastUpdateId b.buffer (b.loadSnapshot lastUpdateId bids asks) with
        ⟨hyes, _⟩ | ⟨_, bids', asks', last, hrefused⟩
      · exact absurd hyes hbridge
      · have hresult : b.onSnapshot lastUpdateId bids asks =
            (false, { b.loadSnapshot lastUpdateId bids asks with
              bids := bids', asks := asks', lastUpdateId := last }) := by
          unfold onSnapshot
          rw [if_neg (by simp [hstate]), hrefused]
        rw [hresult]
        exact .refused hstate hbridge bids' asks' last
  · have hresult : b.onSnapshot lastUpdateId bids asks = (true, b) := by
      unfold onSnapshot
      rw [if_pos hstate]
    rw [hresult]
    exact .ignored hstate

/-! ## States -/

theorem onDepth_eq_needSnapshot_iff (b : Book) (e : DepthEvent) :
    (b.onDepth e).1 = .needSnapshot ↔
      b.state ≠ .buffering ∧ (b.onDepth e).2.state = .buffering := by
  have hstep := onDepth_step b e
  generalize (b.onDepth e).1 = action, (b.onDepth e).2 = b' at hstep
  cases hstep <;> simp_all [applied, applyDiff]

inductive BufferStep (b : Book) (e : DepthEvent) (b' : Book) : Prop
  | pushed (hlive : b.state ≠ .live) (hstate : b'.state = .buffering)
      (hbuffer : b'.buffer = pushed b.buffer e)
      (hdropped : b'.bufferDropped =
        if b.buffer.length ≥ bufferMax then b.bufferDropped + 1 else b.bufferDropped)
  | fellBack (hlive : b.state = .live) (hstate : b'.state = .buffering)
      (hbuffer : b'.buffer = [e]) (hdropped : b'.bufferDropped = b.bufferDropped)
  | kept (hlive : b.state = .live) (hstate : b'.state = .live) (hbuffer : b'.buffer = b.buffer)
      (hdropped : b'.bufferDropped = b.bufferDropped)

theorem buffer_onDepth (b : Book) (e : DepthEvent) : BufferStep b e (b.onDepth e).2 := by
  have hstep := onDepth_step b e
  generalize (b.onDepth e).1 = action, (b.onDepth e).2 = b' at hstep ⊢
  cases hstep with
  | first hstate => exact .pushed (by simp [hstate]) (by simp) (by simp) (by simp)
  | buffered hstate => exact .pushed (by simp [hstate]) (by simpa using hstate) (by simp) (by simp)
  | stale hstate hu => exact .kept hstate hstate rfl rfl
  | gap hstate hu hfirst hpu => exact .fellBack hstate (by simp) (by simp) (by simp)
  | rejected hstate hu hchain crossed mismatch =>
      exact .fellBack hstate (by simp) (by simp) (by simp [applied, applyDiff])
  | published hstate hu hchain crossed mismatch huncrossed hmismatch =>
      exact .kept hstate hstate rfl rfl

theorem state_onDepth (b : Book) (e : DepthEvent) :
    (b.onDepth e).2.state = .buffering ∨ b.state = .live ∧ (b.onDepth e).2.state = .live := by
  cases buffer_onDepth b e with
  | pushed _ hstate => exact Or.inl hstate
  | fellBack _ hstate => exact Or.inl hstate
  | kept hlive hstate => exact Or.inr ⟨hlive, hstate⟩

theorem buffer_onDepth_ne_nil {b : Book} {e : DepthEvent}
    (hstate : (b.onDepth e).2.state = .buffering) : (b.onDepth e).2.buffer ≠ [] := by
  cases buffer_onDepth b e with
  | pushed hlive _ hbuffer =>
      obtain ⟨kept, -, heq⟩ := pushed_suffix b.buffer e
      simp [hbuffer, heq]
  | fellBack hlive _ hbuffer => simp [hbuffer]
  | kept hlive hkept => simp [hkept] at hstate

theorem onSnapshot_eq_true_iff (b : Book) (lastUpdateId : Nat) (bids asks : Levels) :
    (b.onSnapshot lastUpdateId bids asks).1 = true ↔
      (b.onSnapshot lastUpdateId bids asks).2.state ≠ .buffering := by
  have hstep := onSnapshot_step b lastUpdateId bids asks
  generalize (b.onSnapshot lastUpdateId bids asks).1 = answer,
    (b.onSnapshot lastUpdateId bids asks).2 = b' at hstep
  cases hstep <;> simp_all [loadSnapshot]

theorem onSnapshot_of_not_buffering {b : Book} (hstate : b.state ≠ .buffering)
    (lastUpdateId : Nat) (bids asks : Levels) :
    b.onSnapshot lastUpdateId bids asks = (true, b) := if_pos hstate

/-- A snapshot offered to a buffering book empties the buffer, refused or not. -/
theorem buffer_onSnapshot {b : Book} (hstate : b.state = .buffering) (lastUpdateId : Nat)
    (bids asks : Levels) :
    (b.onSnapshot lastUpdateId bids asks).2.buffer = [] ∧
      (b.onSnapshot lastUpdateId bids asks).2.bufferDropped = b.bufferDropped := by
  obtain ⟨bids', asks', last, hsynced⟩ := synced_eq b lastUpdateId bids asks
  have hstep := onSnapshot_step b lastUpdateId bids asks
  generalize (b.onSnapshot lastUpdateId bids asks).1 = answer,
    (b.onSnapshot lastUpdateId bids asks).2 = b' at hstep ⊢
  cases hstep with
  | ignored hnot => exact absurd hstate hnot
  | refused => exact ⟨rfl, rfl⟩
  | rejected => simp [hsynced, goLive, loadSnapshot]
  | accepted => simp [hsynced, goLive, loadSnapshot]

/-! ## What an operation does not touch -/

theorem untouched_onDepth (b : Book) (e : DepthEvent) :
    (b.onDepth e).2.symbol = b.symbol ∧ (b.onDepth e).2.lastUpdateTime = b.lastUpdateTime ∧
      (b.onDepth e).2.snapshotCount = b.snapshotCount ∧
      (b.onDepth e).2.unverifiedBridgeCount = b.unverifiedBridgeCount := by
  have hstep := onDepth_step b e
  generalize (b.onDepth e).1 = action, (b.onDepth e).2 = b' at hstep
  cases hstep <;> simp [applied, applyDiff]

theorem untouched_onSnapshot (b : Book) (lastUpdateId : Nat) (bids asks : Levels) :
    (b.onSnapshot lastUpdateId bids asks).2.symbol = b.symbol ∧
      (b.onSnapshot lastUpdateId bids asks).2.lastUpdateTime = b.lastUpdateTime := by
  obtain ⟨bids', asks', last, hsynced⟩ := synced_eq b lastUpdateId bids asks
  have hstep := onSnapshot_step b lastUpdateId bids asks
  generalize (b.onSnapshot lastUpdateId bids asks).1 = answer,
    (b.onSnapshot lastUpdateId bids asks).2 = b' at hstep
  cases hstep <;> simp [loadSnapshot, goLive, hsynced]

@[simp] theorem symbol_onDepth (b : Book) (e : DepthEvent) : (b.onDepth e).2.symbol = b.symbol :=
  (untouched_onDepth b e).1

@[simp] theorem symbol_onSnapshot (b : Book) (lastUpdateId : Nat) (bids asks : Levels) :
    (b.onSnapshot lastUpdateId bids asks).2.symbol = b.symbol :=
  (untouched_onSnapshot b lastUpdateId bids asks).1

@[simp] theorem lastUpdateTime_onDepth (b : Book) (e : DepthEvent) :
    (b.onDepth e).2.lastUpdateTime = b.lastUpdateTime := (untouched_onDepth b e).2.1

@[simp] theorem lastUpdateTime_onSnapshot (b : Book) (lastUpdateId : Nat) (bids asks : Levels) :
    (b.onSnapshot lastUpdateId bids asks).2.lastUpdateTime = b.lastUpdateTime :=
  (untouched_onSnapshot b lastUpdateId bids asks).2

end Book

end FeedHandler
