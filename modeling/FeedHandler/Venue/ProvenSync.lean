import FeedHandler.Venue.History
/-!
# A proven sync is sound

When at least one buffered event was replayed over the snapshot, the bridge check
and the `pu` chain pin the book to a point of the venue's history, whatever was
delivered. The runs here are hostile: the events of the history come in any order,
with losses and duplicates, and genuine snapshots come at any time.
-/

namespace FeedHandler

open Lib

namespace Book

variable {h : VenueHistory}

def At (h : VenueHistory) (b : Book) (k : Nat) : Prop :=
  b.lastUpdateId = h.last k ∧ b.view = h.version k

/-! ## Applying events of the history -/

theorem At.of_apply {b : Book} {k : Nat}
    (hview : b.view.apply (h.event (k + 1)) = h.version (k + 1)) :
    At h (b.applyEvent (h.event (k + 1))) (k + 1) :=
  ⟨h.u_eq k, by rw [view_applyEvent, hview]⟩

theorem event_of_pu {e : DepthEvent} {k : Nat} (he : h.Event e) (hpu : e.pu = h.last k) :
    e = h.event (k + 1) := by
  obtain ⟨i, rfl⟩ := he
  rw [h.pu_eq i] at hpu
  rw [h.last_injective hpu]

theorem At.apply_chained {b : Book} {k : Nat} (hb : At h b k) {e : DepthEvent}
    (he : h.Event e) (hpu : e.pu = b.lastUpdateId) : At h (b.applyEvent e) (k + 1) := by
  obtain rfl := event_of_pu he (hpu.trans hb.1)
  exact .of_apply (by rw [hb.2, h.version_succ])

theorem At.foldl_chained {b : Book} {k : Nat} (hb : At h b k) {es : List DepthEvent}
    (hes : ∀ e ∈ es, h.Event e) (hchain : Chained b.lastUpdateId es) :
    ∃ m, At h (es.foldl applyEvent b) m := by
  induction es generalizing b k with
  | nil => exact ⟨k, hb⟩
  | cons e es ih =>
      obtain ⟨hpu, hrest⟩ := hchain
      exact ih (hb.apply_chained (hes e List.mem_cons_self) hpu)
        (fun d hd => hes d (List.mem_cons_of_mem e hd)) hrest

/-! ## Replaying the buffer over a genuine snapshot -/

theorem At.of_straddle {b : Book} {lastUpdateId : Nat} {e : DepthEvent}
    (hcheck : h.Checkpoint lastUpdateId b.view) (he : h.Event e)
    (hU : e.U ≤ lastUpdateId) (hu : lastUpdateId ≤ e.u) : ∃ m, At h (b.applyEvent e) m := by
  obtain ⟨i, rfl⟩ := he
  rw [h.U_eq i] at hU
  rw [h.u_eq i] at hu
  exact ⟨i + 1, .of_apply (hcheck.straddled (by omega) hu)⟩

/-- A bridged replay that is not empty brings the book to a point of the
history. -/
theorem At.of_synced {b : Book} {lastUpdateId : Nat} {bids asks : Levels}
    (hgenuine : h.Genuine lastUpdateId bids asks) (hbuffer : ∀ e ∈ b.buffer, h.Event e)
    (hbridge : Bridged lastUpdateId (pending lastUpdateId b.buffer))
    (hne : pending lastUpdateId b.buffer ≠ []) :
    ∃ m, At h (b.synced lastUpdateId bids asks) m := by
  have hmem : ∀ e ∈ pending lastUpdateId b.buffer, h.Event e ∧ lastUpdateId ≤ e.u := by
    intro e he
    exact ⟨hbuffer e (List.mem_of_mem_filter he), by simpa using (List.mem_filter.mp he).2⟩
  unfold synced
  generalize pending lastUpdateId b.buffer = es at hbridge hne hmem
  cases es with
  | nil => exact absurd rfl hne
  | cons e es =>
      obtain ⟨he, hu⟩ := hmem e List.mem_cons_self
      obtain ⟨hU, hchain⟩ := hbridge
      have hcheck : h.Checkpoint lastUpdateId (b.loadSnapshot lastUpdateId bids asks).view := by
        rw [view_loadSnapshot b lastUpdateId hgenuine.1]
        exact hgenuine.2
      obtain ⟨i, hi⟩ := At.of_straddle hcheck he hU hu
      exact hi.foldl_chained (fun d hd => (hmem d (List.mem_cons_of_mem e hd)).1) hchain

theorem synced_of_pending_nil (b : Book) {lastUpdateId : Nat} {bids asks : Levels}
    (hpos : ∀ level ∈ bids ++ asks, Decimal.zero < level.2)
    (hnil : pending lastUpdateId b.buffer = []) :
    (b.synced lastUpdateId bids asks).lastUpdateId = lastUpdateId ∧
      (b.synced lastUpdateId bids asks).view = BookView.ofLevels bids asks ∧
      (b.synced lastUpdateId bids asks).needFirstEvent = true := by
  unfold synced
  rw [hnil]
  exact ⟨rfl, view_loadSnapshot b lastUpdateId hpos, rfl⟩

theorem needFirstEvent_synced {b : Book} {lastUpdateId : Nat} (bids asks : Levels)
    (hne : pending lastUpdateId b.buffer ≠ []) :
    (b.synced lastUpdateId bids asks).needFirstEvent = false := by
  simp [synced, goLive, hne]

/-! ## Hostile runs -/

/-- The buffered events an operation replays when it brings the book live. -/
def replayed (b : Book) : BookOp → List DepthEvent
  | .onSnapshot lastUpdateId _ _ => pending lastUpdateId b.buffer
  | _ => []

/-- Whether the most recent transition to live replayed an event. -/
def provenBy (b : Book) (op : BookOp) (proven : Bool) : Bool :=
  if b.state ≠ .live ∧ (b.call op).2.state = .live then !(b.replayed op).isEmpty else proven

/-- Events are of the history and snapshots genuine; nothing is said of order,
loss or repetition. -/
def OfVenue (h : VenueHistory) : BookOp → Prop
  | .onDepth e => h.Event e
  | .onSnapshot lastUpdateId bids asks => h.Genuine lastUpdateId bids asks
  | _ => True

def hostileRuns (h : VenueHistory) (symbol : String) : Machine (Book × Bool) BookOp :=
  ((machine symbol).withGhost false provenBy).guarded fun _ op => OfVenue h op

structure Sound (h : VenueHistory) (b : Book) (proven : Bool) : Prop where
  buffered : ∀ e ∈ b.buffer, h.Event e
  live : b.state = .live → proven = true → b.needFirstEvent = false ∧ ∃ k, At h b k

theorem Sound.of_not_live {b : Book} {proven : Bool} (hstate : b.state ≠ .live)
    (hbuffer : ∀ e ∈ b.buffer, h.Event e) : Sound h b proven :=
  ⟨hbuffer, fun hlive => absurd hlive hstate⟩

theorem Sound.onDepth {b : Book} {proven : Bool} (hb : Sound h b proven) {e : DepthEvent}
    (he : h.Event e) : Sound h (b.onDepth e).2 proven := by
  have hpush : ∀ d ∈ pushed b.buffer e, h.Event d := by
    intro d hd
    rcases mem_pushed hd with hd | rfl
    · exact hb.buffered d hd
    · exact he
  have hone : ∀ d ∈ [e], h.Event d := by simpa using he
  have hstep := onDepth_step b e
  generalize (b.onDepth e).1 = action, (b.onDepth e).2 = b' at hstep
  cases hstep with
  | first hstate => exact .of_not_live (by simp) (by simpa using hpush)
  | buffered hstate => exact .of_not_live (by simp [hstate]) (by simpa using hpush)
  | stale hstate hu => exact hb
  | gap hstate hu hfirst hpu => exact .of_not_live (by simp) (by simpa using hone)
  | rejected hstate hu hchain crossed mismatch =>
      exact .of_not_live (by simp) (by simpa using hone)
  | published hstate hu hchain crossed mismatch huncrossed hmismatch =>
      refine ⟨hb.buffered, fun _ hproven => ⟨rfl, ?_⟩⟩
      obtain ⟨hfirst, k, hk⟩ := hb.live hstate hproven
      have hpu : e.pu = b.lastUpdateId := hchain.resolve_left (by simp [hfirst])
      exact ⟨k + 1, hk.apply_chained he hpu⟩

theorem Sound.onSnapshot {b : Book} {proven : Bool} (hb : Sound h b proven) {lastUpdateId : Nat}
    {bids asks : Levels} (hgenuine : h.Genuine lastUpdateId bids asks) :
    Sound h (b.onSnapshot lastUpdateId bids asks).2
      (b.provenBy (.onSnapshot lastUpdateId bids asks) proven) := by
  have hbuffer : ∀ e ∈ (b.synced lastUpdateId bids asks).buffer, h.Event e := by simp
  have hstep := onSnapshot_step b lastUpdateId bids asks
  unfold provenBy call replayed
  generalize (b.onSnapshot lastUpdateId bids asks).1 = answer,
    (b.onSnapshot lastUpdateId bids asks).2 = b' at hstep
  cases hstep with
  | ignored hstate =>
      rw [if_neg fun hnew => hnew.1 hnew.2]
      exact hb
  | refused hstate hbridge bids' asks' last =>
      exact .of_not_live (by simp [loadSnapshot, hstate]) (by simp [loadSnapshot])
  | rejected hstate hbridge crossed mismatch => exact .of_not_live (by simp) hbuffer
  | accepted hstate hbridge crossed mismatch huncrossed hmismatch =>
      rw [if_pos ⟨by simp [hstate], rfl⟩]
      refine ⟨hbuffer, fun _ hproven => ?_⟩
      have hne : pending lastUpdateId b.buffer ≠ [] := by simpa using hproven
      exact ⟨needFirstEvent_synced bids asks hne, At.of_synced hgenuine hb.buffered hbridge hne⟩

theorem Sound.call {b : Book} {proven : Bool} (hb : Sound h b proven) {op : BookOp}
    (hop : OfVenue h op) : Sound h (b.call op).2 (b.provenBy op proven) := by
  cases op with
  | onDepth e =>
      have hkeep : b.provenBy (.onDepth e) proven = proven := by
        refine if_neg fun hnew => hnew.1 ?_
        have hstep := onDepth_step b e
        have hlive : (b.onDepth e).2.state = .live := hnew.2
        generalize (b.onDepth e).1 = action, (b.onDepth e).2 = b' at hstep hlive
        cases hstep <;> simp_all
      rw [hkeep]
      exact hb.onDepth hop
  | onSnapshot lastUpdateId bids asks => exact hb.onSnapshot hop
  | setTickerBbo bid ask =>
      rw [provenBy, if_neg fun hnew => hnew.1 hnew.2]
      exact ⟨hb.buffered, hb.live⟩
  | markForResync => exact .of_not_live (by simp [Book.call, markForResync]) (by
      simp [Book.call, markForResync, reset])
  | reset => exact .of_not_live (by simp [Book.call, reset]) (by simp [Book.call, reset])

theorem sound_reachable {symbol : String} {s : Book × Bool}
    (hs : (hostileRuns h symbol).Reachable s) : Sound h s.1 s.2 := by
  refine hs.invariant (I := fun s => Sound h s.1 s.2) ?_ fun s op hsound henabled => ?_
  · rintro ⟨b, proven⟩ ⟨rfl, -⟩
    exact .of_not_live (by simp [new]) (by simp [new])
  · exact hsound.call henabled.2

/-- A live book whose sync was proven is the venue's book at its own id. -/
theorem proven_sync_sound {symbol : String} {s : Book × Bool}
    (hs : (hostileRuns h symbol).Reachable s) (hlive : s.1.state = .live)
    (hproven : s.2 = true) : ∃ k, h.last k = s.1.lastUpdateId ∧ s.1.view = h.version k := by
  obtain ⟨-, k, hid, hview⟩ := (sound_reachable hs).live hlive hproven
  exact ⟨k, hid.symm, hview⟩

/-- A snapshot inside the first event, taken before the event had any effect. -/
theorem proven_sync_sound_straddle : ∃ k,
    steps.last k = ((hostileRuns steps "BTCUSDT").exec (new "BTCUSDT", false)
      [.onDepth (steps.event 1), .onSnapshot 5 [] [], .onDepth (steps.event 2)]).1.lastUpdateId ∧
    ((hostileRuns steps "BTCUSDT").exec (new "BTCUSDT", false)
      [.onDepth (steps.event 1), .onSnapshot 5 [] [], .onDepth (steps.event 2)]).1.view =
        steps.version k := by
  have hgenuine : steps.Genuine 5 [] [] :=
    ⟨by simp, 0, by decide, by decide, rfl, fun h => absurd h (by decide)⟩
  have hreachable := (Machine.Reachable.start (m := hostileRuns steps "BTCUSDT")
    (s := (new "BTCUSDT", false)) ⟨rfl, rfl⟩).exec
    [.onDepth (steps.event 1), .onSnapshot 5 [] [], .onDepth (steps.event 2)]
    ⟨⟨trivial, 0, rfl⟩, ⟨trivial, hgenuine⟩, ⟨trivial, 1, rfl⟩, trivial⟩
  exact proven_sync_sound hreachable (by decide) (by decide)

end Book

end FeedHandler
