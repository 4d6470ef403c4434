import FeedHandler.Book.Gaps
import FeedHandler.Venue.ProvenSync
/-!
# Books fed without loss

`InSync` relates a book to the last event it was given, when the events come in
order and none is missing: a buffering book holds a run of events that ends
there, a live book is the venue's book there, or waits for the first event past
its snapshot. Every operation keeps it, with one thing to check: a snapshot that
finds the buffer empty must not be older than the last event given, unless it is
crossed and so refused.
-/

namespace FeedHandler

open Lib

namespace VenueHistory

theorem ascending_segment (h : VenueHistory) (first upto : Nat) :
    (h.segment first upto).Pairwise fun d e => d.u < e.u := by
  unfold TiledLog.segment
  refine List.pairwise_map.mpr ((List.pairwise_lt_range' (s := first + 1)).imp_of_mem ?_)
  intro i j hi hj hij
  have hi' := List.mem_range'_1.mp hi
  obtain ⟨i, rfl⟩ : ∃ k, i = k + 1 := ⟨i - 1, by omega⟩
  obtain ⟨j, rfl⟩ : ∃ k, j = k + 1 := ⟨j - 1, by omega⟩
  rw [h.u_eq i, h.u_eq j]
  exact h.last_strictMono hij

theorem getLast?_segment (h : VenueHistory) {first upto : Nat} (hlt : first < upto) :
    (h.segment first upto).getLast? = some (h.event upto) := by
  obtain ⟨k, rfl⟩ : ∃ k, upto = k + 1 := ⟨upto - 1, by omega⟩
  rw [h.segment_succ (by omega), List.getLast?_append]
  rfl

theorem chained_segment (h : VenueHistory) {first upto : Nat} (hle : first ≤ upto) :
    Book.Chained (h.last first) (h.segment first upto) := by
  induction hn : upto - first generalizing first with
  | zero =>
      obtain rfl : first = upto := by omega
      rw [h.segment_self]
      trivial
  | succ n ih =>
      rw [h.segment_cons (by omega)]
      refine ⟨h.pu_eq first, ?_⟩
      rw [h.u_eq first]
      exact ih (by omega) (by omega)

/-- What a snapshot leaves of a segment is a segment, and its first event
straddles the snapshot unless the segment starts past it. -/
theorem bridged_segment (h : VenueHistory) {first upto lastUpdateId : Nat} (hle : first ≤ upto)
    (hL : h.last first < lastUpdateId) :
    Book.Bridged lastUpdateId (Book.pending lastUpdateId (h.segment first upto)) := by
  obtain ⟨second, hsecond, hupto, heq⟩ := h.eq_segment_of_suffix hle
    (Book.pending_suffix lastUpdateId (h.ascending_segment first upto))
  rw [heq]
  rcases hupto.eq_or_lt with rfl | hlt
  · rw [h.segment_self]
    trivial
  · rw [h.segment_cons hlt]
    refine ⟨?_, by rw [h.u_eq]; exact h.chained_segment hlt⟩
    rw [h.U_eq]
    rcases hsecond.eq_or_lt with rfl | hgt
    · omega
    · -- the event before `second` was dropped, so the snapshot is past it
      by_contra hpast
      obtain ⟨k, rfl⟩ : ∃ k, second = k + 1 := ⟨second - 1, by omega⟩
      have hmem : h.event (k + 1) ∈ h.segment first upto :=
        h.mem_segment.mpr ⟨k, by omega, by omega, rfl⟩
      have hkept : h.event (k + 1) ∈ Book.pending lastUpdateId (h.segment first upto) := by
        refine List.mem_filter.mpr ⟨hmem, decide_eq_true ?_⟩
        rw [h.u_eq]
        omega
      rw [heq] at hkept
      obtain ⟨i, hi, -, hevent⟩ := h.mem_segment.mp hkept
      have hu := congrArg DepthEvent.u hevent
      rw [h.u_eq, h.u_eq] at hu
      have := h.last_injective hu
      omega

end VenueHistory

namespace Book

variable {h : VenueHistory}

/-- The book has been given the events of the history up to `seen`, without a
hole since it started buffering. -/
structure InSync (h : VenueHistory) (b : Book) (seen : Nat) : Prop where
  idle : b.state = .uninitialized → b.buffer = []
  buffering : b.state = .buffering → ∃ first, first ≤ seen ∧ b.buffer = h.segment first seen
  awaiting : b.state = .live → b.needFirstEvent = true →
    h.Checkpoint b.lastUpdateId b.view ∧ h.last seen ≤ b.lastUpdateId
  following : b.state = .live → b.needFirstEvent = false → At h b seen

namespace InSync

variable {b : Book} {seen : Nat}

theorem of_uninitialized (hstate : b.state = .uninitialized) (hbuffer : b.buffer = []) :
    InSync h b seen where
  idle _ := hbuffer
  buffering hb := by simp [hstate] at hb
  awaiting hb := by simp [hstate] at hb
  following hb := by simp [hstate] at hb

theorem of_buffering (first : Nat) (hstate : b.state = .buffering) (hfirst : first ≤ seen)
    (hbuffer : b.buffer = h.segment first seen) : InSync h b seen where
  idle hb := by simp [hstate] at hb
  buffering _ := ⟨first, hfirst, hbuffer⟩
  awaiting hb := by simp [hstate] at hb
  following hb := by simp [hstate] at hb

theorem of_drained (hstate : b.state = .buffering) (hbuffer : b.buffer = []) :
    InSync h b seen :=
  .of_buffering seen hstate le_rfl (by rw [hbuffer, h.segment_self])

theorem of_at (hstate : b.state = .live) (hb : At h b seen) (hfirst : b.needFirstEvent = false) :
    InSync h b seen where
  idle hb := by simp [hstate] at hb
  buffering hb := by simp [hstate] at hb
  awaiting _ hb := by simp [hfirst] at hb
  following _ _ := hb

theorem of_awaiting (hstate : b.state = .live) (hfirst : b.needFirstEvent = true)
    (hcheck : h.Checkpoint b.lastUpdateId b.view) (hlast : h.last seen ≤ b.lastUpdateId) :
    InSync h b seen where
  idle hb := by simp [hstate] at hb
  buffering hb := by simp [hstate] at hb
  awaiting _ _ := ⟨hcheck, hlast⟩
  following _ hb := by simp [hfirst] at hb

/-! ## Events -/

theorem exists_pushed_segment {first : Nat} (hfirst : first ≤ seen) :
    ∃ second, second ≤ seen + 1 ∧
      pushed (h.segment first seen) (h.event (seen + 1)) = h.segment second (seen + 1) := by
  obtain ⟨kept, hkept, heq⟩ := pushed_suffix (h.segment first seen) (h.event (seen + 1))
  obtain ⟨second, -, hsecond, rfl⟩ := h.eq_segment_of_suffix hfirst hkept
  exact ⟨second, by omega, by rw [heq, h.segment_succ hsecond]⟩

theorem segment_one (h : VenueHistory) (seen : Nat) :
    [h.event (seen + 1)] = h.segment seen (seen + 1) := by
  rw [h.segment_succ le_rfl, h.segment_self]
  rfl

theorem at_applied (hb : InSync h b seen) (hstate : b.state = .live)
    (hu : b.lastUpdateId < (h.event (seen + 1)).u) :
    At h (b.applied (h.event (seen + 1))) (seen + 1) := by
  have hview : b.view.apply (h.event (seen + 1)) = h.version (seen + 1) := by
    rw [h.u_eq] at hu
    cases hfirst : b.needFirstEvent with
    | true =>
        obtain ⟨hcheck, hlast⟩ := hb.awaiting hstate hfirst
        exact hcheck.advanced hlast hu
    | false => rw [(hb.following hstate hfirst).2, h.version_succ]
  exact At.of_apply (b := { b with needFirstEvent := false }) hview

theorem U_le_of_awaiting (hb : InSync h b seen) (hstate : b.state = .live)
    (hfirst : b.needFirstEvent = true) : (h.event (seen + 1)).U ≤ b.lastUpdateId + 1 := by
  obtain ⟨-, hlast⟩ := hb.awaiting hstate hfirst
  rw [h.U_eq]
  omega

theorem onDepth (hb : InSync h b seen) :
    InSync h (b.onDepth (h.event (seen + 1))).2 (seen + 1) := by
  have hstep := onDepth_step b (h.event (seen + 1))
  generalize (b.onDepth (h.event (seen + 1))).1 = action,
    (b.onDepth (h.event (seen + 1))).2 = b' at hstep
  cases hstep with
  | first hstate =>
      refine .of_buffering seen (by simp) (by omega) ?_
      simpa [hb.idle hstate] using segment_one h seen
  | buffered hstate =>
      obtain ⟨first, hfirst, hbuffer⟩ := hb.buffering hstate
      obtain ⟨second, hsecond, hpush⟩ := exists_pushed_segment (h := h) hfirst
      exact .of_buffering second (by simp [hstate]) hsecond (by simpa [hbuffer] using hpush)
  | stale hstate hu =>
      rw [h.u_eq] at hu
      cases hfirst : b.needFirstEvent with
      | true => exact .of_awaiting hstate hfirst (hb.awaiting hstate hfirst).1 hu
      | false =>
          have hlast := (hb.following hstate hfirst).1
          have hlt := h.last_lt seen
          omega
  | gap hstate hu hfirst hpu =>
      exact .of_buffering seen (by simp) (by omega)
        (by simpa using segment_one h seen)
  | rejected hstate hu hchain crossed mismatch =>
      exact .of_buffering seen (by simp) (by omega)
        (by simpa using segment_one h seen)
  | published hstate hu hchain crossed mismatch huncrossed hmismatch =>
      exact .of_at hstate (hb.at_applied hstate hu) rfl

theorem view_of_publish (hb : InSync h b seen)
    (hpublish : (b.onDepth (h.event (seen + 1))).1 = .publish) :
    (b.onDepth (h.event (seen + 1))).2.view = h.version (seen + 1) := by
  have hstep := onDepth_step b (h.event (seen + 1))
  rw [hpublish] at hstep
  generalize (b.onDepth (h.event (seen + 1))).2 = b' at hstep
  cases hstep with
  | published hstate hu => exact (hb.at_applied hstate hu).2

/-! ## Snapshots -/

/-- A snapshot that finds the buffer empty and is not crossed is not older than the last
event. -/
def Covers (h : VenueHistory) (b : Book) (seen lastUpdateId : Nat) (bids asks : Levels) : Prop :=
  b.state = .buffering → b.buffer = [] → ¬ (BookView.ofLevels bids asks).Crossed →
    h.last seen ≤ lastUpdateId

theorem not_crossed_of_drained {lastUpdateId : Nat} {bids asks : Levels} (hnil : b.buffer = [])
    (hpos : ∀ level ∈ bids ++ asks, Decimal.zero < level.2)
    (huncrossed : ¬ (b.synced lastUpdateId bids asks).Crossed) :
    ¬ (BookView.ofLevels bids asks).Crossed := by
  have hpending : pending lastUpdateId b.buffer = [] := by
    rw [hnil]
    rfl
  rwa [crossed_iff_view, (synced_of_pending_nil b hpos hpending).2.1] at huncrossed

theorem synced {lastUpdateId : Nat} {bids asks : Levels} (hb : InSync h b seen)
    (hstate : b.state = .buffering) (hgenuine : h.Genuine lastUpdateId bids asks)
    (hcovers : b.buffer = [] → h.last seen ≤ lastUpdateId)
    (hbridge : Bridged lastUpdateId (pending lastUpdateId b.buffer)) :
    InSync h (b.synced lastUpdateId bids asks) seen := by
  obtain ⟨first, hfirst, hbuffer⟩ := hb.buffering hstate
  have hasc : b.buffer.Pairwise fun d e => d.u < e.u := hbuffer ▸ h.ascending_segment first seen
  have hevents : ∀ e ∈ b.buffer, h.Event e := fun e he => h.event_of_mem_segment (hbuffer ▸ he)
  by_cases hne : pending lastUpdateId b.buffer = []
  · obtain ⟨hid, hview, hneed⟩ :=
      synced_of_pending_nil b hgenuine.1 hne
    refine .of_awaiting rfl hneed (by rw [hid, hview]; exact hgenuine.2) ?_
    rw [hid]
    rcases hfirst.eq_or_lt with rfl | hlt
    · exact hcovers (by rw [hbuffer, h.segment_self])
    · -- the last event of the buffer was dropped, so the snapshot is past it
      obtain ⟨k, rfl⟩ : ∃ k, seen = k + 1 := ⟨seen - 1, by omega⟩
      have hmem : h.event (k + 1) ∈ b.buffer := by
        rw [hbuffer]
        exact h.mem_segment.mpr ⟨k, by omega, by omega, rfl⟩
      have hdropped := List.filter_eq_nil_iff.mp hne _ hmem
      have hlt : ¬ lastUpdateId ≤ (h.event (k + 1)).u := by simpa using hdropped
      rw [h.u_eq] at hlt
      omega
  · obtain ⟨m, hm⟩ := At.of_synced hgenuine hevents hbridge hne
    have hlt : first < seen := by
      refine lt_of_le_of_ne hfirst fun heq => hne ?_
      rw [hbuffer, heq, h.segment_self]
      rfl
    obtain ⟨k, rfl⟩ : ∃ k, seen = k + 1 := ⟨seen - 1, by omega⟩
    have hlast : b.buffer.getLast? = some (h.event (k + 1)) := by
      rw [hbuffer, h.getLast?_segment hlt]
    have hid := lastUpdateId_synced bids asks hasc hne hlast
    rw [hm.1, h.u_eq] at hid
    obtain rfl := h.last_injective hid
    exact .of_at rfl hm (needFirstEvent_synced bids asks hne)

theorem onSnapshot {lastUpdateId : Nat} {bids asks : Levels} (hb : InSync h b seen)
    (hgenuine : h.Genuine lastUpdateId bids asks)
    (hcovers : Covers h b seen lastUpdateId bids asks) :
    InSync h (b.onSnapshot lastUpdateId bids asks).2 seen := by
  have hstep := onSnapshot_step b lastUpdateId bids asks
  generalize (b.onSnapshot lastUpdateId bids asks).1 = answer,
    (b.onSnapshot lastUpdateId bids asks).2 = b' at hstep
  cases hstep with
  | ignored hstate => exact hb
  | refused hstate hbridge bids' asks' last =>
      exact .of_drained (by simp [loadSnapshot, hstate]) rfl
  | rejected hstate hbridge crossed mismatch => exact .of_drained rfl (by simp)
  | accepted hstate hbridge crossed mismatch huncrossed hmismatch =>
      have hsynced := hb.synced hstate hgenuine (fun hnil =>
        hcovers hstate hnil (not_crossed_of_drained hnil hgenuine.1 huncrossed)) hbridge
      exact ⟨fun hidle => by simp at hidle, hsynced.buffering, hsynced.awaiting,
        hsynced.following⟩

/-! ## The other calls -/

theorem setTickerBbo (hb : InSync h b seen) (bid ask : Decimal) :
    InSync h (b.setTickerBbo bid ask) seen :=
  ⟨hb.idle, hb.buffering, hb.awaiting, hb.following⟩

theorem markForResync (b : Book) (seen : Nat) : InSync h b.markForResync seen :=
  .of_drained rfl rfl

theorem reset (b : Book) (seen : Nat) : InSync h b.reset seen :=
  .of_uninitialized rfl rfl

end InSync

end Book

end FeedHandler
