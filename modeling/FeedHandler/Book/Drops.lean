import FeedHandler.Book.Counters
/-!
# What becomes of a buffered event

The intake of a book lists every event that `on_depth` has put into the resync
buffer, and what became of those that are no longer there. Nothing leaves the
buffer unlisted, and the events pushed out of a full buffer are the ones
`buffer_dropped` counts. A snapshot that is refused has drained the buffer before,
so the events it did not cover are in none of the books and in no counter.
-/

namespace FeedHandler

open Lib

namespace Book

inductive Fate
  /-- Applied on top of a snapshot the book went live on. -/
  | replayed
  /-- Older than a snapshot. -/
  | passedOver
  /-- Thrown away by `reset` or `mark_for_resync`. -/
  | discarded
  /-- Pushed out of a full buffer, and counted in `buffer_dropped`. -/
  | counted
  /-- Gone otherwise. -/
  | lost
deriving DecidableEq

/-- The events put into the buffer so far, and the fate of those that left it. -/
structure Intake where
  arrived : List DepthEvent
  settled : List (DepthEvent × Fate)
deriving DecidableEq

namespace Intake

def start : Intake := ⟨[], []⟩

def settle (g : Intake) (es : List DepthEvent) (fate : DepthEvent → Fate) : Intake :=
  { g with settled := g.settled ++ es.map fun e => (e, fate e) }

/-- An event that goes into the buffer pushes out the oldest one of a full buffer; one
that takes a live book back to buffering finds the buffer cleared. -/
def onDepth (g : Intake) (b : Book) (e : DepthEvent) : Intake :=
  if (b.onDepth e).2.state = .buffering then
    let g' := if b.state = .live then g.settle b.buffer fun _ => .lost
      else if b.buffer.length ≥ bufferMax then g.settle (b.buffer.take 1) fun _ => .counted
      else g
    { g' with arrived := g'.arrived ++ [e] }
  else g

/-- What a snapshot offered to a buffering book makes of an event in the buffer. -/
def verdict (b : Book) (lastUpdateId : Nat) (bids asks : Levels) (e : DepthEvent) : Fate :=
  if e.u < lastUpdateId then .passedOver
  else if (b.onSnapshot lastUpdateId bids asks).1 then .replayed
  else .lost

def onSnapshot (g : Intake) (b : Book) (lastUpdateId : Nat) (bids asks : Levels) : Intake :=
  if b.state = .buffering then g.settle b.buffer (verdict b lastUpdateId bids asks) else g

def track (b : Book) (op : BookOp) (g : Intake) : Intake :=
  match op with
  | .onDepth e => g.onDepth b e
  | .onSnapshot lastUpdateId bids asks => g.onSnapshot b lastUpdateId bids asks
  | .setTickerBbo _ _ => g
  | .markForResync | .reset => g.settle b.buffer fun _ => .discarded

end Intake

def recorded (symbol : String) : Machine (Book × Intake) BookOp :=
  (machine symbol).withGhost Intake.start Intake.track

/-- An event is in the buffer or has one fate, and the drops counted are the drops. -/
structure Conserved (b : Book) (g : Intake) : Prop where
  arrived : g.arrived = g.settled.map Prod.fst ++ b.buffer
  counted : g.settled.countP (fun r => r.2 = .counted) = b.bufferDropped

def NoneLost (g : Intake) : Prop := ∀ r ∈ g.settled, r.2 ≠ .lost

/-- No snapshot is refused while the buffer holds an event that it does not cover. -/
def KeepsPending (b : Book) (op : BookOp) : Prop :=
  ∀ lastUpdateId bids asks, op = .onSnapshot lastUpdateId bids asks → b.state = .buffering →
    pending lastUpdateId b.buffer = [] ∨ b.Acceptable lastUpdateId bids asks

/-! ## Conservation -/

namespace Conserved

variable {b c : Book} {g : Intake}

theorem of_eq (h : Conserved b g) (hbuffer : c.buffer = b.buffer)
    (hdropped : c.bufferDropped = b.bufferDropped) : Conserved c g :=
  ⟨by rw [hbuffer, h.arrived], by rw [hdropped, h.counted]⟩

theorem settle (h : Conserved b g) {out : List DepthEvent} (fate : DepthEvent → Fate)
    (hbuffer : b.buffer = out ++ c.buffer)
    (hdropped : c.bufferDropped =
      b.bufferDropped + out.countP fun e => fate e = .counted) :
    Conserved c (g.settle out fate) := by
  constructor
  · simp [Intake.settle, h.arrived, hbuffer, Function.comp_def]
  · rw [hdropped, ← h.counted]
    simp [Intake.settle, List.countP_map, Function.comp_def]

theorem drain (h : Conserved b g) {fate : DepthEvent → Fate} (hfate : ∀ e, fate e ≠ .counted)
    (hbuffer : c.buffer = []) (hdropped : c.bufferDropped = b.bufferDropped) :
    Conserved c (g.settle b.buffer fate) := by
  refine h.settle fate (by rw [hbuffer, List.append_nil]) ?_
  simp [hdropped, hfate]

theorem arrive (h : Conserved b g) {e : DepthEvent} (hbuffer : c.buffer = b.buffer ++ [e])
    (hdropped : c.bufferDropped = b.bufferDropped) :
    Conserved c { g with arrived := g.arrived ++ [e] } :=
  ⟨by simp [h.arrived, hbuffer], by rw [hdropped, ← h.counted]⟩

theorem push (h : Conserved b g) {e : DepthEvent} (hbuffer : c.buffer = pushed b.buffer e)
    (hdropped : c.bufferDropped =
      if b.buffer.length ≥ bufferMax then b.bufferDropped + 1 else b.bufferDropped)
    (hlive : b.state ≠ .live) (hstate : (b.onDepth e).2.state = .buffering) :
    Conserved c (g.onDepth b e) := by
  unfold Intake.onDepth
  rw [if_pos hstate]
  simp only [if_neg hlive]
  unfold pushed at hbuffer
  split_ifs at hbuffer hdropped ⊢ with hfull
  · have hmax : 0 < bufferMax := by decide
    obtain ⟨oldest, rest, hb⟩ := List.exists_cons_of_length_pos (hmax.trans_le hfull)
    have hsettled : Conserved { b with buffer := rest, bufferDropped := b.bufferDropped + 1 }
        (g.settle (b.buffer.take 1) fun _ => .counted) :=
      h.settle _ (by simp [hb]) (by simp [hb])
    exact hsettled.arrive (by simp [hbuffer, hb]) hdropped
  · exact h.arrive hbuffer hdropped

theorem fallBack (h : Conserved b g) {e : DepthEvent} (hbuffer : c.buffer = [e])
    (hdropped : c.bufferDropped = b.bufferDropped) (hlive : b.state = .live)
    (hstate : (b.onDepth e).2.state = .buffering) : Conserved c (g.onDepth b e) := by
  have hsettled : Conserved { b with buffer := [] } (g.settle b.buffer fun _ => .lost) :=
    h.drain (fun _ => by decide) rfl rfl
  unfold Intake.onDepth
  rw [if_pos hstate]
  simp only [if_pos hlive]
  exact hsettled.arrive hbuffer hdropped

theorem onDepth (h : Conserved b g) (e : DepthEvent) :
    Conserved (b.onDepth e).2 (g.onDepth b e) := by
  cases buffer_onDepth b e with
  | pushed hlive hstate hbuffer hdropped => exact h.push hbuffer hdropped hlive hstate
  | fellBack hlive hstate hbuffer hdropped => exact h.fallBack hbuffer hdropped hlive hstate
  | kept hlive hstate hbuffer hdropped =>
      have hkept : g.onDepth b e = g := if_neg (by simp [hstate])
      rw [hkept]
      exact h.of_eq hbuffer hdropped

theorem onSnapshot (h : Conserved b g) (lastUpdateId : Nat) (bids asks : Levels) :
    Conserved (b.onSnapshot lastUpdateId bids asks).2 (g.onSnapshot b lastUpdateId bids asks) := by
  unfold Intake.onSnapshot
  by_cases hstate : b.state = .buffering
  · obtain ⟨hbuffer, hdropped⟩ := buffer_onSnapshot hstate lastUpdateId bids asks
    rw [if_pos hstate]
    refine h.drain (fun e => ?_) hbuffer hdropped
    unfold Intake.verdict
    split_ifs <;> decide
  · rw [if_neg hstate, onSnapshot_of_not_buffering hstate]
    exact h

theorem call (h : Conserved b g) (op : BookOp) :
    Conserved (b.call op).2 (Intake.track b op g) := by
  cases op with
  | onDepth e => exact h.onDepth e
  | onSnapshot lastUpdateId bids asks => exact h.onSnapshot lastUpdateId bids asks
  | setTickerBbo bid ask => exact h.of_eq rfl rfl
  | markForResync => exact h.drain (fun _ => by decide) rfl rfl
  | reset => exact h.drain (fun _ => by decide) rfl rfl

end Conserved

theorem conserved_new (symbol : String) : Conserved (new symbol) Intake.start := ⟨rfl, rfl⟩

/-! ## What gets lost -/

theorem noneLost_settle {g : Intake} {es : List DepthEvent} {fate : DepthEvent → Fate} :
    NoneLost (g.settle es fate) ↔ NoneLost g ∧ ∀ e ∈ es, fate e ≠ .lost := by
  simp only [NoneLost, Intake.settle, List.mem_append, List.mem_map]
  constructor
  · intro h
    exact ⟨fun r hr => h r (Or.inl hr), fun e he => h _ (Or.inr ⟨e, he, rfl⟩)⟩
  · rintro ⟨hold, hnew⟩ r (hr | ⟨e, he, rfl⟩)
    · exact hold r hr
    · exact hnew e he

theorem noneLost_onDepth {b : Book} (hwf : b.WellFormed) (g : Intake) (e : DepthEvent) :
    NoneLost (g.onDepth b e) ↔ NoneLost g := by
  unfold Intake.onDepth
  split_ifs with hstate hlive hfull
  · have hbuffer := (hwf.live hlive).1
    show NoneLost (g.settle b.buffer fun _ => .lost) ↔ _
    rw [noneLost_settle, hbuffer]
    simp
  · show NoneLost (g.settle (b.buffer.take 1) fun _ => .counted) ↔ _
    rw [noneLost_settle]
    simp
  · exact Iff.rfl
  · exact Iff.rfl

theorem noneLost_onSnapshot (b : Book) (g : Intake) (lastUpdateId : Nat) (bids asks : Levels) :
    NoneLost (g.onSnapshot b lastUpdateId bids asks) ↔
      NoneLost g ∧ b.KeepsPending (.onSnapshot lastUpdateId bids asks) := by
  unfold Intake.onSnapshot
  by_cases hstate : b.state = .buffering
  · have hanswer := onSnapshot_eq_true_iff_bridged hstate lastUpdateId bids asks
    have hkeeps : b.KeepsPending (.onSnapshot lastUpdateId bids asks) ↔
        pending lastUpdateId b.buffer = [] ∨ b.Acceptable lastUpdateId bids asks := by
      simp [KeepsPending, hstate]
    rw [if_pos hstate, noneLost_settle, hkeeps]
    apply and_congr_right'
    unfold Intake.verdict Acceptable
    rw [← hanswer, pending, List.filter_eq_nil_iff]
    cases (b.onSnapshot lastUpdateId bids asks).1 with
    | true =>
        refine iff_of_true (fun e _ => ?_) (Or.inr rfl)
        show (if e.u < lastUpdateId then Fate.passedOver else Fate.replayed) ≠ Fate.lost
        split_ifs <;> decide
    | false => simp
  · rw [if_neg hstate]
    exact (and_iff_left fun _ _ _ _ hnot => absurd hnot hstate).symm

theorem noneLost_track {b : Book} (hwf : b.WellFormed) (g : Intake) (op : BookOp) :
    NoneLost (Intake.track b op g) ↔ NoneLost g ∧ b.KeepsPending op := by
  cases op with
  | onDepth e => simp [Intake.track, noneLost_onDepth hwf, KeepsPending]
  | onSnapshot lastUpdateId bids asks => exact noneLost_onSnapshot b g lastUpdateId bids asks
  | setTickerBbo bid ask => simp [Intake.track, KeepsPending]
  | _ => simp [Intake.track, noneLost_settle, KeepsPending]

/-- Every event put into the buffer is there still or has one fate, and in exactly the
runs in which no snapshot is refused over an event it does not cover none is lost. -/
theorem no_silent_drop_iff (symbol : String) (ops : List BookOp) :
    Conserved ((recorded symbol).exec (new symbol, Intake.start) ops).1
      ((recorded symbol).exec (new symbol, Intake.start) ops).2 ∧
    (NoneLost ((recorded symbol).exec (new symbol, Intake.start) ops).2 ↔
      ((machine symbol).guarded KeepsPending).Admits (new symbol) ops) := by
  constructor
  · have hreachable := Machine.reachable_of_enabled (m := recorded symbol)
      (s := (new symbol, Intake.start)) (fun _ _ => trivial) ⟨rfl, rfl⟩ ops
    refine hreachable.invariant (I := fun s => Conserved s.1 s.2) ?_ fun s op h _ => h.call op
    rintro ⟨b, g⟩ ⟨rfl, rfl⟩
    exact conserved_new symbol
  · have hiff := Machine.exec_iff_admits (m := recorded symbol) (I := fun s => s.1.WellFormed)
      (P := fun s => NoneLost s.2) (g := fun s op => s.1.KeepsPending op)
      (s := (new symbol, Intake.start))
      (fun _ _ => trivial) (fun s op h => wellFormed_call h op)
      (fun s op h => noneLost_track h s.2 op) (wellFormed_new symbol) ops
    have hstart : NoneLost Intake.start := by simp [NoneLost, Intake.start]
    rw [hiff, and_iff_right hstart]
    exact Machine.admits_withGhost

/-- The event of the refused snapshot ends after it, is not in the buffer any more, and
nothing has counted it. -/
theorem refused_snapshot_drops_silently :
    ((recorded "BTCUSDT").exec (new "BTCUSDT", Intake.start) refusedRun).2 =
        ⟨[⟨11, 20, 10, [], []⟩], [(⟨11, 20, 10, [], []⟩, .lost)]⟩ ∧
    ((machine "BTCUSDT").exec (new "BTCUSDT") refusedRun).state = .buffering ∧
    ((machine "BTCUSDT").exec (new "BTCUSDT") refusedRun).buffer = [] ∧
    ((machine "BTCUSDT").exec (new "BTCUSDT") refusedRun).bufferDropped = 0 := by
  decide +kernel

end Book

end FeedHandler
