import FeedHandler.Book.WellFormed
import Mathlib.Data.List.Chain
/-!
# Sequence gaps

A stream that loses nothing is never reported as gapped. The runs here give the
book a contiguous chain of events between one reset and the next; snapshots,
resyncs and tickers come at any time. `Unbroken` is what they keep: the buffer
is a piece of the chain that ends at the last delivered event, and a live book
either waits for its first event or stands at that event.
-/

namespace FeedHandler

open Lib

namespace Book

/-! ## Ascending buffers -/

theorem lastUpdateId_foldl_applyEvent (b : Book) (es : List DepthEvent) :
    (es.foldl applyEvent b).lastUpdateId = (es.getLast?.map DepthEvent.u).getD b.lastUpdateId := by
  induction es using List.reverseRecOn with
  | nil => rfl
  | append_singleton es e => simp [applyEvent_eq]

theorem pending_suffix (lastUpdateId : Nat) {buffer : List DepthEvent}
    (h : buffer.Pairwise fun d e => d.u < e.u) : pending lastUpdateId buffer <:+ buffer := by
  induction buffer with
  | nil => exact List.suffix_refl []
  | cons e buffer ih =>
      obtain ⟨he, hrest⟩ := List.pairwise_cons.mp h
      rw [pending_cons]
      split_ifs with hkept
      · -- the buffer ascends, so everything after a kept event is kept
        have hall : pending lastUpdateId buffer = buffer := by
          refine List.filter_eq_self.mpr fun d hd => ?_
          have hlt := he d hd
          exact decide_eq_true (by omega)
        rw [hall]
      · exact (ih hrest).trans (List.suffix_cons e buffer)

theorem getLast?_pending {lastUpdateId : Nat} {buffer : List DepthEvent}
    (h : buffer.Pairwise fun d e => d.u < e.u) (hne : pending lastUpdateId buffer ≠ []) :
    (pending lastUpdateId buffer).getLast? = buffer.getLast? := by
  obtain ⟨old, hsplit⟩ := pending_suffix lastUpdateId h
  obtain ⟨e, he⟩ := Option.ne_none_iff_exists'.mp (mt List.getLast?_eq_none_iff.mp hne)
  conv_rhs => rw [← hsplit, List.getLast?_append, he]
  rw [he]
  rfl

theorem lastUpdateId_synced {b : Book} {lastUpdateId : Nat} (bids asks : Levels)
    (h : b.buffer.Pairwise fun d e => d.u < e.u)
    (hne : pending lastUpdateId b.buffer ≠ []) {e : DepthEvent}
    (he : b.buffer.getLast? = some e) :
    (b.synced lastUpdateId bids asks).lastUpdateId = e.u := by
  simp only [synced, goLive]
  rw [lastUpdateId_foldl_applyEvent, getLast?_pending h hne, he]
  rfl

/-! ## Runs without loss -/

def lastDelivered (_ : Book) (op : BookOp) (last : Option Nat) : Option Nat :=
  match op with
  | .onDepth e => some e.u
  | .reset => none
  | _ => last

def Follows (last : Option Nat) (e : DepthEvent) : Prop :=
  ∀ u, last = some u → e.pu = u ∧ u < e.u

def FollowsUp (s : Book × Option Nat) (op : BookOp) : Prop :=
  ∀ e, op = .onDepth e → Follows s.2 e

/-- Runs in which the events between two resets form a contiguous chain. -/
def contiguousRuns (symbol : String) : Machine (Book × Option Nat) BookOp :=
  ((machine symbol).withGhost none lastDelivered).guarded FollowsUp

/-- What a run without loss keeps, with `last` the id of its last event. -/
structure Unbroken (b : Book) (last : Option Nat) : Prop where
  chain : b.buffer.IsChain fun d e => e.pu = d.u ∧ d.u < e.u
  ends : ∀ e, b.buffer.getLast? = some e → last = some e.u
  uninitialized : b.state = .uninitialized → b.buffer = []
  live : b.state = .live → b.needFirstEvent = true ∨ last = some b.lastUpdateId
  noGap : b.gapCount = 0

namespace Unbroken

variable {b : Book} {last : Option Nat}

theorem ascending (h : Unbroken b last) : b.buffer.Pairwise fun d e => d.u < e.u := by
  have hlt : b.buffer.IsChain fun d e => d.u < e.u := h.chain.imp fun _ _ hde => hde.2
  have : IsTrans DepthEvent fun d e => d.u < e.u := ⟨fun _ _ _ => Nat.lt_trans⟩
  exact List.isChain_iff_pairwise.mp hlt

theorem chain_pushed (h : Unbroken b last) {e : DepthEvent} (he : Follows last e) :
    (pushed b.buffer e).IsChain fun d e => e.pu = d.u ∧ d.u < e.u := by
  obtain ⟨kept, hkept, heq⟩ := pushed_suffix b.buffer e
  rw [heq, List.isChain_append]
  refine ⟨h.chain.suffix hkept, List.isChain_singleton e, fun d hd c hc => ?_⟩
  obtain rfl : e = c := by simpa using hc
  obtain ⟨old, hold⟩ := hkept
  have hlast : b.buffer.getLast? = some d := by
    rw [← hold, List.getLast?_append, Option.mem_def.mp hd]
    rfl
  exact he d.u (h.ends d hlast)

theorem getLast?_pushed (buffer : List DepthEvent) (e : DepthEvent) :
    (pushed buffer e).getLast? = some e := by
  obtain ⟨kept, -, heq⟩ := pushed_suffix buffer e
  rw [heq, List.getLast?_append]
  rfl

theorem of_buffering (hstate : b.state = .buffering)
    (hchain : b.buffer.IsChain fun d e => e.pu = d.u ∧ d.u < e.u)
    (hends : ∀ e, b.buffer.getLast? = some e → last = some e.u) (hgap : b.gapCount = 0) :
    Unbroken b last where
  chain := hchain
  ends := hends
  uninitialized h := by simp [hstate] at h
  live h := by simp [hstate] at h
  noGap := hgap

theorem of_buffering_one {e : DepthEvent} (hstate : b.state = .buffering)
    (hbuffer : b.buffer = [e]) (hgap : b.gapCount = 0) : Unbroken b (some e.u) := by
  refine .of_buffering hstate ?_ ?_ hgap
  · rw [hbuffer]
    exact List.isChain_singleton e
  · intro d hd
    obtain rfl : e = d := by simpa [hbuffer] using hd
    rfl

theorem of_empty_buffer (hbuffer : b.buffer = []) (hgap : b.gapCount = 0)
    (hlive : b.state = .live → b.needFirstEvent = true ∨ last = some b.lastUpdateId) :
    Unbroken b last where
  chain := by
    rw [hbuffer]
    exact List.isChain_nil
  ends e he := by simp [hbuffer] at he
  uninitialized _ := hbuffer
  live := hlive
  noGap := hgap

theorem onDepth (h : Unbroken b last) (hwf : b.WellFormed) {e : DepthEvent}
    (he : Follows last e) : Unbroken (b.onDepth e).2 (some e.u) := by
  have hends : ∀ d, (pushed b.buffer e).getLast? = some d → some e.u = some d.u := by
    intro d hd
    rw [getLast?_pushed] at hd
    rw [Option.some.inj hd]
  have hstep := onDepth_step b e
  generalize (b.onDepth e).1 = action, (b.onDepth e).2 = b' at hstep
  cases hstep with
  | first hstate =>
      exact .of_buffering (by simp) (by simpa using h.chain_pushed he) (by simpa using hends)
        (by simpa using h.noGap)
  | buffered hstate =>
      exact .of_buffering (by simpa using hstate) (by simpa using h.chain_pushed he)
        (by simpa using hends) (by simpa using h.noGap)
  | stale hstate hu =>
      refine .of_empty_buffer (hwf.live hstate).1 h.noGap fun _ => Or.inl ?_
      rcases h.live hstate with hfirst | hlast
      · exact hfirst
      · -- a chained book never sees an old event
        have hlt := (he _ hlast).2
        omega
  | gap hstate hu hfirst hpu =>
      have hlast : last = some b.lastUpdateId := (h.live hstate).resolve_left (by simp [hfirst])
      exact absurd (he _ hlast).1 hpu
  | rejected hstate hu hchain crossed mismatch =>
      exact .of_buffering_one (by simp) (by simp) (by simpa [applied, applyDiff] using h.noGap)
  | published hstate hu hchain crossed mismatch huncrossed hmismatch =>
      exact .of_empty_buffer (hwf.live hstate).1 h.noGap fun _ => Or.inr rfl

theorem live_synced (h : Unbroken b last) (lastUpdateId : Nat) (bids asks : Levels) :
    (b.synced lastUpdateId bids asks).needFirstEvent = true ∨
      last = some (b.synced lastUpdateId bids asks).lastUpdateId := by
  by_cases hne : pending lastUpdateId b.buffer = []
  · exact Or.inl (by simp [synced, goLive, hne])
  · right
    have hbuffer : b.buffer ≠ [] := fun hnil => hne (by rw [hnil]; rfl)
    obtain ⟨e, he⟩ := Option.ne_none_iff_exists'.mp (mt List.getLast?_eq_none_iff.mp hbuffer)
    rw [lastUpdateId_synced bids asks h.ascending hne he]
    exact h.ends e he

theorem onSnapshot (h : Unbroken b last) (lastUpdateId : Nat) (bids asks : Levels) :
    Unbroken (b.onSnapshot lastUpdateId bids asks).2 last := by
  have hbuffer := buffer_synced b lastUpdateId bids asks
  have hgap := (gapCount_synced b lastUpdateId bids asks).trans h.noGap
  have hstep := onSnapshot_step b lastUpdateId bids asks
  generalize (b.onSnapshot lastUpdateId bids asks).1 = answer,
    (b.onSnapshot lastUpdateId bids asks).2 = b' at hstep
  cases hstep with
  | ignored hstate => exact h
  | refused hstate hbridge bids' asks' id =>
      refine .of_empty_buffer rfl h.noGap fun hlive => ?_
      exact absurd (hstate.symm.trans hlive) (by decide)
  | rejected hstate hbridge crossed mismatch =>
      exact .of_empty_buffer hbuffer hgap (by simp)
  | accepted hstate hbridge crossed mismatch huncrossed hmismatch =>
      exact .of_empty_buffer hbuffer hgap fun _ => h.live_synced lastUpdateId bids asks

theorem call (h : Unbroken b last) (hwf : b.WellFormed) {op : BookOp}
    (hop : FollowsUp (b, last) op) : Unbroken (b.call op).2 (lastDelivered b op last) := by
  cases op with
  | onDepth e => exact h.onDepth hwf (hop e rfl)
  | onSnapshot lastUpdateId bids asks => exact h.onSnapshot lastUpdateId bids asks
  | setTickerBbo bid ask => exact ⟨h.chain, h.ends, h.uninitialized, h.live, h.noGap⟩
  | markForResync => exact .of_empty_buffer rfl h.noGap (by simp [Book.call, Book.markForResync])
  | reset => exact .of_empty_buffer rfl h.noGap (by simp [Book.call, Book.reset])

end Unbroken

theorem wellFormed_contiguousRuns {symbol : String} {s : Book × Option Nat}
    (hs : (contiguousRuns symbol).Reachable s) : s.1.WellFormed :=
  wellFormed_reachable hs.of_guarded.of_withGhost

theorem unbroken_reachable {symbol : String} {s : Book × Option Nat}
    (hs : (contiguousRuns symbol).Reachable s) : Unbroken s.1 s.2 := by
  refine hs.invariant_of_reachable (I := fun s => Unbroken s.1 s.2) ?_ ?_
  · rintro ⟨b, last⟩ ⟨rfl, -⟩
    exact .of_empty_buffer rfl rfl (by simp [new])
  · intro s op hreach h henabled
    exact h.call (wellFormed_contiguousRuns hreach) henabled.2

/-- A stream without loss is never counted as gapped: in every run the counter
is still at zero, and no admitted call raises it. -/
theorem no_false_gap {symbol : String} {s : Book × Option Nat}
    (hs : (contiguousRuns symbol).Reachable s) :
    s.1.gapCount = 0 ∧
    ∀ op, (contiguousRuns symbol).enabled s op →
      ((contiguousRuns symbol).next s op).1.gapCount = s.1.gapCount := by
  have hzero := (unbroken_reachable hs).noGap
  refine ⟨hzero, fun op henabled => ?_⟩
  rw [hzero]
  exact (unbroken_reachable (hs.step henabled)).noGap

/-- Two overlapping connections with a snapshot that is refused in between. -/
theorem no_false_gap_reconnect : ((contiguousRuns "BTCUSDT").exec (new "BTCUSDT", none)
    [.onDepth ⟨11, 20, 10, [], []⟩, .onSnapshot 5 [] [], .onDepth ⟨21, 30, 20, [], []⟩,
      .onSnapshot 25 [] [], .reset, .onDepth ⟨15, 24, 14, [], []⟩]).1.gapCount = 0 := by
  have hreachable := (Machine.Reachable.start (m := contiguousRuns "BTCUSDT")
    (s := (new "BTCUSDT", none)) ⟨rfl, rfl⟩).exec
    [.onDepth ⟨11, 20, 10, [], []⟩, .onSnapshot 5 [] [], .onDepth ⟨21, 30, 20, [], []⟩,
      .onSnapshot 25 [] [], .reset, .onDepth ⟨15, 24, 14, [], []⟩]
    (by simp [contiguousRuns, Machine.guarded, Machine.withGhost, machine, FollowsUp, Follows,
      lastDelivered])
  exact (no_false_gap hreachable).1

end Book

end FeedHandler
