import FeedHandler.Book.WellFormed
import FeedHandler.Lib.Window
/-!
# The resync buffer as a window

An episode is what the buffer is fed between two times it is emptied. The buffer is
the last `BUFFER_MAX` events of the episode that is going on, and `buffer_dropped` is
what all episodes had above that. Over a contiguous stream that is harmless: where an
event is missing that a snapshot needs, all that is left starts past the snapshot.
-/

namespace FeedHandler

open Lib

namespace Book

/-- The events delivered so far, and those buffered, episode by episode. -/
structure Episodes where
  delivered : List DepthEvent
  closed : List (List DepthEvent)
  current : List DepthEvent

namespace Episodes

def start : Episodes := ⟨[], [], []⟩

def close (g : Episodes) : Episodes := { g with closed := g.closed ++ [g.current], current := [] }

def push (g : Episodes) (e : DepthEvent) : Episodes := { g with current := g.current ++ [e] }

/-- An event that takes a live book back to buffering is the first of an episode. -/
def onDepth (g : Episodes) (b : Book) (e : DepthEvent) : Episodes :=
  if (b.onDepth e).2.state = .buffering then
    if b.state = .live then g.close.push e else g.push e
  else g

def track (b : Book) (op : BookOp) (g : Episodes) : Episodes :=
  match op with
  | .onDepth e => { g.onDepth b e with delivered := g.delivered ++ [e] }
  | .onSnapshot _ _ _ => if b.state = .buffering then g.close else g
  | .setTickerBbo _ _ => g
  | .markForResync | .reset => g.close

def overflow (g : Episodes) : Nat := excess bufferMax (g.closed ++ [g.current])

theorem overflow_start : start.overflow = 0 := by
  unfold overflow start
  rw [excess_concat, List.length_nil, Nat.zero_sub]
  rfl

theorem overflow_close (g : Episodes) : g.close.overflow = g.overflow := by
  unfold overflow close
  rw [excess_concat, List.length_nil, Nat.zero_sub, Nat.add_zero]

theorem overflow_push (g : Episodes) (e : DepthEvent) :
    (g.push e).overflow =
      if bufferMax ≤ g.current.length then g.overflow + 1 else g.overflow :=
  excess_push bufferMax g.closed g.current e

end Episodes

def episodic (symbol : String) : Machine (Book × Episodes) BookOp :=
  (machine symbol).withGhost Episodes.start Episodes.track

/-- The buffer is the latest window of the episode, and every drop is an overflow. -/
structure Windowed (b : Book) (g : Episodes) : Prop where
  buffer : b.buffer = g.current.rtake bufferMax
  dropped : b.bufferDropped = g.overflow
  live : b.state = .live → g.current = []
  delivered : g.current <:+ g.delivered

namespace Windowed

variable {b b' : Book} {g : Episodes}

theorem new (symbol : String) : Windowed (Book.new symbol) Episodes.start where
  buffer := rfl
  dropped := Episodes.overflow_start.symm
  live _ := rfl
  delivered := List.nil_suffix

theorem of_eq (h : Windowed b g) (hbuffer : b'.buffer = b.buffer)
    (hdropped : b'.bufferDropped = b.bufferDropped) (hlive : b'.state = .live → b.state = .live) :
    Windowed b' g where
  buffer := hbuffer.trans h.buffer
  dropped := hdropped.trans h.dropped
  live hb' := h.live (hlive hb')
  delivered := h.delivered

theorem close (h : Windowed b g) (hbuffer : b'.buffer = [])
    (hdropped : b'.bufferDropped = b.bufferDropped) : Windowed b' g.close where
  buffer := by simp [hbuffer, Episodes.close]
  dropped := by rw [hdropped, h.dropped, Episodes.overflow_close]
  live _ := rfl
  delivered := List.nil_suffix

theorem pushed_eq_slide (buffer : List DepthEvent) (e : DepthEvent) :
    pushed buffer e = slide bufferMax buffer e := rfl

theorem push (h : Windowed b g) {e : DepthEvent} (hbuffer : b'.buffer = pushed b.buffer e)
    (hdropped : b'.bufferDropped =
      if b.buffer.length ≥ bufferMax then b.bufferDropped + 1 else b.bufferDropped)
    (hstate : b'.state = .buffering) :
    Windowed b' { g.push e with delivered := g.delivered ++ [e] } where
  buffer := by
    rw [hbuffer, h.buffer, pushed_eq_slide, slide_rtake (by decide)]
    rfl
  dropped := by
    have hfull : bufferMax ≤ b.buffer.length ↔ bufferMax ≤ g.current.length := by
      rw [h.buffer, length_rtake]
      omega
    show b'.bufferDropped = (g.push e).overflow
    simp only [hdropped, Episodes.overflow_push, h.dropped, ge_iff_le, hfull]
  live hlive := by simp [hstate] at hlive
  delivered := List.suffix_append_self_iff.mpr h.delivered

theorem deliver (h : Windowed b g) {e : DepthEvent} (hlive : b.state = .live)
    (hbuffer : b'.buffer = b.buffer) (hdropped : b'.bufferDropped = b.bufferDropped) :
    Windowed b' { g with delivered := g.delivered ++ [e] } where
  buffer := hbuffer.trans h.buffer
  dropped := hdropped.trans h.dropped
  live _ := h.live hlive
  delivered := by
    rw [h.live hlive]
    exact List.nil_suffix

theorem fallBack (h : Windowed b g) {e : DepthEvent} (hbuffer : b'.buffer = [e])
    (hdropped : b'.bufferDropped = b.bufferDropped) (hstate : b'.state = .buffering) :
    Windowed b' { g.close.push e with delivered := g.delivered ++ [e] } := by
  have hclosed : Windowed { b with buffer := [] } g.close := h.close rfl rfl
  exact hclosed.push (by rw [hbuffer, pushed_nil]) (by simp [hdropped, bufferMax]) hstate

theorem onDepth (h : Windowed b g) (e : DepthEvent) :
    Windowed (b.onDepth e).2 (Episodes.track b (.onDepth e) g) := by
  unfold Episodes.track Episodes.onDepth
  dsimp only
  cases buffer_onDepth b e with
  | pushed hlive hstate hbuffer hdropped =>
      rw [if_pos hstate, if_neg hlive]
      exact h.push hbuffer hdropped hstate
  | fellBack hlive hstate hbuffer hdropped =>
      rw [if_pos hstate, if_pos hlive]
      exact h.fallBack hbuffer hdropped hstate
  | kept hlive hstate hbuffer hdropped =>
      rw [if_neg (by simp [hstate])]
      exact h.deliver hlive hbuffer hdropped

theorem call (h : Windowed b g) (op : BookOp) :
    Windowed (b.call op).2 (Episodes.track b op g) := by
  cases op with
  | onDepth e => exact h.onDepth e
  | onSnapshot lastUpdateId bids asks =>
      simp only [Book.call, Episodes.track]
      by_cases hstate : b.state = .buffering
      · obtain ⟨hbuffer, hdropped⟩ := buffer_onSnapshot hstate lastUpdateId bids asks
        rw [if_pos hstate]
        exact h.close hbuffer hdropped
      · rw [if_neg hstate, onSnapshot_of_not_buffering hstate]
        exact h
  | setTickerBbo bid ask => exact h.of_eq rfl rfl id
  | markForResync => exact h.close rfl rfl
  | reset => exact h.close rfl rfl

end Windowed

/-- Every event starts right after the end of the one before. -/
structure Contiguous (stream : List DepthEvent) : Prop where
  spans : ∀ e ∈ stream, e.U = e.pu + 1 ∧ e.U ≤ e.u
  chained : stream.IsChain fun d e => e.pu = d.u

namespace Contiguous

variable {stream : List DepthEvent}

theorem ascending (h : Contiguous stream) :
    stream.Pairwise fun d e => d.u < e.U ∧ e.U ≤ e.u := by
  have htrans : IsTrans DepthEvent fun d e => d.u < e.U ∧ e.U ≤ e.u :=
    ⟨fun _ _ _ hde hef => ⟨by omega, hef.2⟩⟩
  refine List.isChain_iff_pairwise.mp (h.chained.imp_of_mem_imp fun d e _ he hpu => ?_)
  obtain ⟨hU, hspan⟩ := h.spans e he
  exact ⟨by omega, hspan⟩

end Contiguous

def buffered (es : List DepthEvent) : Book × Episodes :=
  (episodic "BTCUSDT").exec (new "BTCUSDT", Episodes.start) (es.map BookOp.onDepth)

end Book

end FeedHandler
